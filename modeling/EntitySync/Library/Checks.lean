import Mathlib.Data.List.Basic
import Mathlib.Data.List.Forall2

/-!
# Sequences of fallible checks

A loop that leaves with the first error succeeds exactly when every iteration does.
-/

namespace Checks

universe u

variable {ε α : Type*}

@[simp] theorem isOk_ok (a : α) : (Except.ok a : Except ε α).isOk = true := rfl

@[simp] theorem isOk_error (e : ε) : (Except.error e : Except ε α).isOk = false := rfl

theorem bind_eq_ok {α β : Type u} {x : Except ε α} {f : α → Except ε β} {b : β} :
    (x >>= f) = .ok b ↔ ∃ a, x = .ok a ∧ f a = .ok b := by
  cases x with
  | error e => simp [bind, Except.bind]
  | ok a => simp [bind, Except.bind]

theorem forM_eq_ok {f : α → Except ε Unit} {as : List α} :
    as.forM f = .ok () ↔ ∀ a ∈ as, f a = .ok () := by
  induction as with
  | nil => simp [pure, Except.pure]
  | cons a as ih =>
    change (f a >>= fun _ => as.forM f) = .ok () ↔ _
    rw [bind_eq_ok]
    constructor
    · intro h b hb
      obtain ⟨_, ha, has⟩ := h
      cases List.mem_cons.mp hb with
      | inl heq => rw [heq, ha]
      | inr hb => exact ih.mp has b hb
    · intro h
      exact ⟨(), h a List.mem_cons_self, ih.mpr fun b hb => h b (List.mem_cons_of_mem _ hb)⟩

theorem mapM_eq_ok_of_forall₂ {β : Type u} {f : α → Except ε β} {as : List α} {bs : List β}
    (h : List.Forall₂ (fun a b => f a = .ok b) as bs) : as.mapM f = .ok bs := by
  induction h with
  | nil => rfl
  | cons ha _ ih =>
    rw [List.mapM_cons, ha, ih]
    rfl

theorem forall₂_of_mapM_eq_ok {β : Type u} {f : α → Except ε β} {as : List α} {bs : List β}
    (h : as.mapM f = .ok bs) : List.Forall₂ (fun a b => f a = .ok b) as bs := by
  induction as generalizing bs with
  | nil =>
    cases h
    exact .nil
  | cons a as ih =>
    rw [List.mapM_cons, bind_eq_ok] at h
    obtain ⟨b, hb, h⟩ := h
    obtain ⟨rest, hrest, h⟩ := bind_eq_ok.mp h
    cases h
    exact .cons hb (ih hrest)

theorem mapM_mapM_eq_ok {β γ : Type u} {f : α → Except ε β} {g : β → Except ε γ} {as : List α}
    {cs : List γ} : (as.mapM fun a => f a >>= g) = .ok cs ↔
      ∃ bs, as.mapM f = .ok bs ∧ bs.mapM g = .ok cs := by
  constructor
  · intro h
    have hall := forall₂_of_mapM_eq_ok h
    clear h
    induction hall with
    | nil => exact ⟨[], rfl, rfl⟩
    | cons ha _ ih =>
      obtain ⟨b, hb, hc⟩ := bind_eq_ok.mp ha
      obtain ⟨bs, hbs, hcs⟩ := ih
      exact ⟨b :: bs, mapM_eq_ok_of_forall₂ (.cons hb (forall₂_of_mapM_eq_ok hbs)),
        mapM_eq_ok_of_forall₂ (.cons hc (forall₂_of_mapM_eq_ok hcs))⟩
  · intro h
    obtain ⟨bs, hbs, hcs⟩ := h
    apply mapM_eq_ok_of_forall₂
    have hfirst := forall₂_of_mapM_eq_ok hbs
    have hsecond := forall₂_of_mapM_eq_ok hcs
    clear hbs hcs
    induction hfirst generalizing cs with
    | nil =>
      cases hsecond
      exact .nil
    | cons hb _ ih =>
      cases hsecond with
      | cons hc hrest => exact .cons (bind_eq_ok.mpr ⟨_, hb, hc⟩) (ih hrest)

/-- The results of a loop that gets through are those of its iterations. -/
theorem mem_of_mapM_eq_ok {β : Type u} {f : α → Except ε β} {as : List α} {bs : List β}
    (h : as.mapM f = .ok bs) :
    (∀ b ∈ bs, ∃ a ∈ as, f a = .ok b) ∧ ∀ a ∈ as, ∃ b ∈ bs, f a = .ok b := by
  have hall := forall₂_of_mapM_eq_ok h
  clear h
  induction hall with
  | nil => simp
  | cons hb _ ih =>
    simp only [List.forall_mem_cons, List.exists_mem_cons_iff]
    exact ⟨⟨Or.inl hb, fun c hc => Or.inr (ih.1 c hc)⟩, Or.inl hb, fun c hc => Or.inr (ih.2 c hc)⟩

theorem exists_of_mapM_eq_error {β : Type u} {f : α → Except ε β} {as : List α} {e : ε}
    (h : as.mapM f = .error e) : ∃ a ∈ as, f a = .error e := by
  induction as with
  | nil => cases h
  | cons a as ih =>
    rw [List.mapM_cons] at h
    cases ha : f a with
    | error e' =>
      rw [ha] at h
      cases h
      exact ⟨a, List.mem_cons_self, ha⟩
    | ok b =>
      cases hrest : as.mapM f with
      | error e' =>
        rw [ha, hrest] at h
        cases h
        obtain ⟨x, hx, hfx⟩ := ih hrest
        exact ⟨x, List.mem_cons_of_mem _ hx, hfx⟩
      | ok bs =>
        rw [ha, hrest] at h
        cases h

end Checks
