import Mathlib.Data.List.Basic

/-!
# Runs of a partial step function

A system is a function `step : σ → α → Option σ`; the label resolves every choice the
environment or the scheduler makes, and `none` means that the step is not enabled. `Meets` and
`Always` speak about all steps and all states of one run, and the rules at the end reduce a
statement about runs to one about a single step.
-/

namespace StepSystem

variable {σ α : Type*} {step : σ → α → Option σ}

/-- The state after taking the steps of `as` one after another. -/
def run (step : σ → α → Option σ) : σ → List α → Option σ
  | s, [] => some s
  | s, a :: as => (step s a).bind fun t => run step t as

/-- Every step of the run is taken in a state where `G` allows it. -/
def Meets (step : σ → α → Option σ) (G : σ → α → Prop) : σ → List α → Prop
  | _, [] => True
  | s, a :: as => ∀ t, step s a = some t → G s a ∧ Meets step G t as

/-- `P` holds in every state of the run, the first one included. -/
def Always (step : σ → α → Option σ) (P : σ → Prop) : σ → List α → Prop
  | s, [] => P s
  | s, a :: as => P s ∧ ∀ t, step s a = some t → Always step P t as

instance decidableMeets (G : σ → α → Prop) [∀ s a, Decidable (G s a)] :
    (s : σ) → (as : List α) → Decidable (Meets step G s as)
  | _, [] => isTrue trivial
  | s, a :: as =>
    match h : step s a with
    | none => isTrue fun t ht => by rw [h] at ht; cases ht
    | some t =>
      have := decidableMeets G t as
      decidable_of_iff (G s a ∧ Meets step G t as) (by simp [Meets, h])

@[simp] theorem run_nil (s : σ) : run step s [] = some s := rfl

@[simp] theorem run_cons (s : σ) (a : α) (as : List α) :
    run step s (a :: as) = (step s a).bind fun t => run step t as := rfl

theorem run_cons_eq_some {s u : σ} {a : α} {as : List α} :
    run step s (a :: as) = some u ↔ ∃ t, step s a = some t ∧ run step t as = some u := by
  simp [Option.bind_eq_some_iff]

theorem run_append {s : σ} {as bs : List α} :
    run step s (as ++ bs) = (run step s as).bind fun t => run step t bs := by
  induction as generalizing s with
  | nil => rfl
  | cons a as ih =>
    rw [List.cons_append, run_cons, run_cons, Option.bind_assoc]
    congr 1
    funext t
    exact ih

/-- An invariant of every step holds after every run. -/
theorem run_invariant {I : σ → Prop} (hstep : ∀ s a t, I s → step s a = some t → I t) {s t : σ}
    {as : List α} (hI : I s) (hr : run step s as = some t) : I t := by
  induction as generalizing s with
  | nil =>
    obtain rfl : s = t := by simpa using hr
    exact hI
  | cons a as ih =>
    obtain ⟨u, hu, hr⟩ := run_cons_eq_some.mp hr
    exact ih (hstep s a u hI hu) hr

theorem meets_of_forall {P : α → Prop} {s : σ} {as : List α} (h : ∀ a ∈ as, P a) :
    Meets step (fun _ a => P a) s as := by
  induction as generalizing s with
  | nil => trivial
  | cons a as ih =>
    intro t _
    exact ⟨h a List.mem_cons_self, ih fun x hx => h x (List.mem_cons_of_mem _ hx)⟩

/-- If under the invariant `I` a step that meets `G` meets `G'` too, then so does a run. -/
theorem Meets.imp {G G' : σ → α → Prop} {I : σ → Prop}
    (hstep : ∀ s a t, I s → G s a → step s a = some t → G' s a ∧ I t) {s : σ} {as : List α}
    (hm : Meets step G s as) (hI : I s) : Meets step G' s as := by
  induction as generalizing s with
  | nil => trivial
  | cons a as ih =>
    intro t ht
    obtain ⟨hG, hm⟩ := hm t ht
    have hnext := hstep s a t hI hG ht
    exact ⟨hnext.1, ih hm hnext.2⟩

theorem meets_of_invariant {G : σ → α → Prop} {I : σ → Prop}
    (hstep : ∀ s a t, I s → step s a = some t → G s a ∧ I t) {s : σ} (hI : I s) (as : List α) :
    Meets step G s as := by
  have hany : Meets step (fun _ _ => True) s as := meets_of_forall fun _ _ => trivial
  exact hany.imp (fun s a t hs _ ht => hstep s a t hs ht) hI

theorem meets_congr {G G' : σ → α → Prop} {I : σ → Prop}
    (hI : ∀ s a t, I s → step s a = some t → I t)
    (hiff : ∀ s a t, I s → step s a = some t → (G s a ↔ G' s a)) {s : σ} (hs : I s)
    (as : List α) : Meets step G s as ↔ Meets step G' s as := by
  constructor
  · intro h
    exact h.imp (fun s a t hs hG ht => ⟨(hiff s a t hs ht).mp hG, hI s a t hs ht⟩) hs
  · intro h
    exact h.imp (fun s a t hs hG ht => ⟨(hiff s a t hs ht).mpr hG, hI s a t hs ht⟩) hs

/-- Corresponding steps of two label lists are related, where `A` may look at the state that the
first run is in. -/
def Paired (step : σ → α → Option σ) (A : σ → α → α → Prop) : σ → List α → List α → Prop
  | _, [], [] => True
  | s, a :: as, b :: bs => A s a b ∧ ∀ t, step s a = some t → Paired step A t as bs
  | _, _, _ => False

/-- If related steps keep two states related, related runs do. -/
theorem Paired.rel_run {A : σ → α → α → Prop} {R : σ → σ → Prop}
    (hstep : ∀ s s' a b, R s s' → A s a b → Option.Rel R (step s a) (step s' b))
    {s s' : σ} {as bs : List α} (h : Paired step A s as bs) (hR : R s s') :
    Option.Rel R (run step s as) (run step s' bs) := by
  induction as generalizing s s' bs with
  | nil =>
    cases bs with
    | nil => exact .some hR
    | cons b bs => exact h.elim
  | cons a as ih =>
    cases bs with
    | nil => exact h.elim
    | cons b bs =>
      have hrel := hstep s s' a b hR h.1
      have hrest := h.2
      rw [run_cons, run_cons]
      generalize step s a = t at hrel hrest
      generalize step s' b = t' at hrel
      cases hrel with
      | some hR => exact ih (hrest _ rfl) hR
      | none => exact .none

theorem Meets.invariant {G : σ → α → Prop} {I : σ → Prop}
    (hstep : ∀ s a t, I s → G s a → step s a = some t → I t)
    {s t : σ} {as : List α} (hm : Meets step G s as) (hI : I s) (hr : run step s as = some t) :
    I t := by
  induction as generalizing s with
  | nil =>
    obtain rfl : s = t := by simpa using hr
    exact hI
  | cons a as ih =>
    obtain ⟨u, hu, hr⟩ := run_cons_eq_some.mp hr
    obtain ⟨hG, hm⟩ := hm u hu
    exact ih hm (hstep s a u hI hG hu) hr

/-- What an invariant implies holds in every state of a run whose steps preserve the invariant. -/
theorem Meets.always {G : σ → α → Prop} {I P : σ → Prop}
    (hstep : ∀ s a t, I s → G s a → step s a = some t → I t) (hP : ∀ s, I s → P s)
    {s : σ} {as : List α} (hm : Meets step G s as) (hI : I s) : Always step P s as := by
  induction as generalizing s with
  | nil => exact hP s hI
  | cons a as ih =>
    refine ⟨hP s hI, fun t ht => ?_⟩
    exact ih (hm t ht).2 (hstep s a t hI (hm t ht).1 ht)

theorem Meets.and_forall {G : σ → α → Prop} {P : α → Prop} {s : σ} {as : List α}
    (hG : Meets step G s as) (hP : ∀ a ∈ as, P a) : Meets step (fun s a => G s a ∧ P a) s as := by
  induction as generalizing s with
  | nil => trivial
  | cons a as ih =>
    intro t ht
    exact ⟨⟨(hG t ht).1, hP a List.mem_cons_self⟩,
      ih (hG t ht).2 fun x hx => hP x (List.mem_cons_of_mem _ hx)⟩

theorem Meets.append_left {G : σ → α → Prop} {s : σ} {as bs : List α}
    (hm : Meets step G s (as ++ bs)) : Meets step G s as := by
  induction as generalizing s with
  | nil => trivial
  | cons a as ih =>
    intro t ht
    exact ⟨(hm t ht).1, ih (hm t ht).2⟩

theorem Meets.append_right {G : σ → α → Prop} {s t : σ} {as bs : List α}
    (hm : Meets step G s (as ++ bs)) (hr : run step s as = some t) : Meets step G t bs := by
  induction as generalizing s with
  | nil =>
    obtain rfl : s = t := by simpa using hr
    exact hm
  | cons a as ih =>
    obtain ⟨u, hu, hr⟩ := run_cons_eq_some.mp hr
    exact ih (hm u hu).2 hr

theorem Always.head {P : σ → Prop} {s : σ} {as : List α} (h : Always step P s as) : P s := by
  cases as with
  | nil => exact h
  | cons a as => exact h.1

/-- `Always` is about exactly the states that the prefixes of the run reach. -/
theorem always_iff {P : σ → Prop} {s : σ} {as : List α} :
    Always step P s as ↔ ∀ bs cs t, as = bs ++ cs → run step s bs = some t → P t := by
  induction as generalizing s with
  | nil =>
    constructor
    · intro h bs cs t hsplit hr
      obtain ⟨rfl, rfl⟩ := List.append_eq_nil_iff.mp hsplit.symm
      obtain rfl : s = t := by simpa using hr
      exact h
    · intro h
      exact h [] [] s rfl rfl
  | cons a as ih =>
    constructor
    · intro h bs cs t hsplit hr
      cases bs with
      | nil =>
        obtain rfl : s = t := by simpa using hr
        exact h.1
      | cons b bs =>
        obtain ⟨rfl, htail⟩ := List.cons_eq_cons.mp hsplit
        obtain ⟨u, hu, hr⟩ := run_cons_eq_some.mp hr
        exact ih.mp (h.2 u hu) bs cs t htail hr
    · intro h
      refine ⟨h [] (a :: as) s rfl rfl, fun t ht => ih.mpr ?_⟩
      intro bs cs u hsplit hr
      exact h (a :: bs) cs u (by simp [hsplit]) (run_cons_eq_some.mpr ⟨t, ht, hr⟩)

/-- If, under the invariant `J` and the environment `E`, a step establishes `P` exactly when it
meets `C`, then a run stays in `P` exactly when all its steps meet `C`. -/
theorem always_iff_meets {P J : σ → Prop} {E C : σ → α → Prop}
    (hP : ∀ s, J s → P s)
    (hstep : ∀ s a t, J s → E s a → step s a = some t → (P t ↔ C s a))
    (hJ : ∀ s a t, J s → E s a → step s a = some t → P t → J t)
    {s : σ} {as : List α} (hE : Meets step E s as) (hs : J s) :
    Always step P s as ↔ Meets step C s as := by
  induction as generalizing s with
  | nil => exact ⟨fun _ => trivial, fun _ => hP s hs⟩
  | cons a as ih =>
    constructor
    · intro h t ht
      have hPt := (h.2 t ht).head
      have hEs := hE t ht
      exact ⟨(hstep s a t hs hEs.1 ht).mp hPt,
        (ih hEs.2 (hJ s a t hs hEs.1 ht hPt)).mp (h.2 t ht)⟩
    · intro h
      refine ⟨hP s hs, fun t ht => ?_⟩
      have hEs := hE t ht
      have hPt := (hstep s a t hs hEs.1 ht).mpr (h t ht).1
      exact (ih hEs.2 (hJ s a t hs hEs.1 ht hPt)).mpr (h t ht).2

/-- If, under the invariant `J` and the environment `E`, a step leads to `P` exactly from `P` and by
meeting `C`, then so does a run. -/
theorem run_iff_meets {P J : σ → Prop} {E C : σ → α → Prop}
    (hJ : ∀ s a t, J s → E s a → step s a = some t → J t)
    (hstep : ∀ s a t, J s → E s a → step s a = some t → (P t ↔ P s ∧ C s a))
    {s t : σ} {as : List α} (hE : Meets step E s as) (hs : J s) (hr : run step s as = some t) :
    P t ↔ P s ∧ Meets step C s as := by
  induction as generalizing s with
  | nil =>
    obtain rfl : s = t := by simpa using hr
    exact ⟨fun h => ⟨h, trivial⟩, fun h => h.1⟩
  | cons a as ih =>
    obtain ⟨u, hu, hr⟩ := run_cons_eq_some.mp hr
    obtain ⟨hEs, hE⟩ := hE u hu
    rw [ih hE (hJ s a u hs hEs hu) hr, hstep s a u hs hEs hu, and_assoc]
    apply and_congr_right
    intro _
    constructor
    · intro h v hv
      obtain rfl : u = v := Option.some.inj (hu.symm.trans hv)
      exact h
    · intro h
      exact h u hu

/-- If every step is matched by the steps `g` gives for it, so is every run. -/
theorem run_simulation {τ β : Type*} {step' : τ → β → Option τ} {f : σ → τ}
    {g : α → List β} {G : σ → α → Prop}
    (hstep : ∀ s a t, G s a → step s a = some t → run step' (f s) (g a) = some (f t))
    {s t : σ} {as : List α} (hm : Meets step G s as) (hr : run step s as = some t) :
    run step' (f s) (as.flatMap g) = some (f t) := by
  induction as generalizing s with
  | nil =>
    obtain rfl : s = t := by simpa using hr
    rfl
  | cons a as ih =>
    obtain ⟨u, hu, hr⟩ := run_cons_eq_some.mp hr
    obtain ⟨hG, hm⟩ := hm u hu
    rw [List.flatMap_cons, run_append, hstep s a u hG hu]
    exact ih hm hr

/-- If every allowed step keeps two states related, where the second system takes the steps `g a`,
so does a run. -/
theorem Meets.simulates {τ β : Type*} {step' : τ → β → Option τ} {R : σ → τ → Prop}
    {g : α → List β} {G : σ → α → Prop}
    (hstep : ∀ s a t x, R s x → G s a → step s a = some t →
      ∃ y, run step' x (g a) = some y ∧ R t y)
    {s t : σ} {x : τ} {as : List α} (hm : Meets step G s as) (hR : R s x)
    (hr : run step s as = some t) : ∃ y, run step' x (as.flatMap g) = some y ∧ R t y := by
  induction as generalizing s x with
  | nil =>
    obtain rfl : s = t := by simpa using hr
    exact ⟨x, rfl, hR⟩
  | cons a as ih =>
    obtain ⟨u, hu, hr⟩ := run_cons_eq_some.mp hr
    obtain ⟨hG, hm⟩ := hm u hu
    obtain ⟨y, hy, hR⟩ := hstep s a u x hR hG hu
    rw [List.flatMap_cons, run_append, hy]
    exact ih hm hR hr

theorem map_run {τ : Type*} {step' : τ → α → Option τ} {f : σ → τ} {I : σ → Prop} {P : α → Prop}
    (hI : ∀ s a t, I s → P a → step s a = some t → I t)
    (hstep : ∀ s a, I s → P a → (step s a).map f = step' (f s) a)
    {s : σ} {as : List α} (hs : I s) (h : ∀ a ∈ as, P a) :
    (run step s as).map f = run step' (f s) as := by
  induction as generalizing s with
  | nil => rfl
  | cons a as ih =>
    have ha := h a List.mem_cons_self
    rw [run_cons, run_cons, ← hstep s a hs ha]
    cases hu : step s a with
    | none => rfl
    | some u =>
      exact ih (hI s a u hs ha hu) fun x hx => h x (List.mem_cons_of_mem _ hx)

/-- A system that comes back to a state goes on from it for ever. -/
theorem exists_run_of_cycle {s : σ} {a : α} {m : Nat}
    (hcycle : run step s (List.replicate (m + 1) a) = some s) (n : Nat) :
    ∃ t, run step s (List.replicate n a) = some t := by
  -- some number of rounds covers the `n` steps
  have hrounds (k : Nat) : run step s (List.replicate (k * (m + 1)) a) = some s := by
    induction k with
    | zero => simp
    | succ k ih =>
      rw [Nat.succ_mul, List.replicate_add, run_append, ih]
      exact hcycle
  have hsplit : n * (m + 1) = n + n * m := by rw [Nat.mul_succ, Nat.add_comm]
  have hlong := hrounds n
  rw [hsplit, List.replicate_add, run_append] at hlong
  cases hrun : run step s (List.replicate n a) with
  | none =>
    rw [hrun] at hlong
    cases hlong
  | some t => exact ⟨t, rfl⟩

/-- A run keeps its relation to a run without the silent steps, if each of these keeps it and
every other step is matched by the same step. -/
theorem rel_run_filter {R : σ → σ → Prop} {visible : α → Bool}
    (hsilent : ∀ s t a, visible a = false → R s t → ∃ u, step s a = some u ∧ R u t)
    (hvisible : ∀ s t a, visible a = true → R s t → Option.Rel R (step s a) (step t a))
    {s t : σ} (h : R s t) (as : List α) :
    Option.Rel R (run step s as) (run step t (as.filter visible)) := by
  induction as generalizing s t with
  | nil => exact .some h
  | cons a as ih =>
    cases ha : visible a with
    | false =>
      obtain ⟨u, hu, hR⟩ := hsilent s t a ha h
      rw [List.filter_cons_of_neg (by simp [ha]), run_cons, hu]
      exact ih hR
    | true =>
      rw [List.filter_cons_of_pos ha, run_cons, run_cons]
      have hrel := hvisible s t a ha h
      generalize step s a = s' at hrel
      generalize step t a = t' at hrel
      cases hrel with
      | some hR => exact ih hR
      | none => exact .none

end StepSystem
