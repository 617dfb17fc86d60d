import Mathlib.Logic.Function.Basic
import Mathlib.Data.List.Basic
import Mathlib.Data.List.Induction

/-!
# Replay of a log of writes

A write sets or removes the value under one key; replaying a log applies its writes in order. At
each key only the last write counts. Actions that keep a part of what they find are replayed by
`perform`; if none of them undoes another halfway, replaying a log twice is replaying it once.
-/

namespace Replay

variable {κ ν : Type*} [DecidableEq κ]

/-- Apply the writes in order; `none` removes the value under a key. -/
def replay (start : κ → Option ν) (writes : List (κ × Option ν)) : κ → Option ν :=
  writes.foldl (fun m w => Function.update m w.1 w.2) start

@[simp] theorem replay_nil (start : κ → Option ν) : replay start [] = start := rfl

theorem replay_append (start : κ → Option ν) (xs ys : List (κ × Option ν)) :
    replay start (xs ++ ys) = replay (replay start xs) ys :=
  List.foldl_append

@[simp] theorem replay_concat (start : κ → Option ν) (writes : List (κ × Option ν))
    (w : κ × Option ν) :
    replay start (writes ++ [w]) = Function.update (replay start writes) w.1 w.2 := by
  rw [replay_append]
  rfl

omit [DecidableEq κ] in
private theorem written_of_concat {P : Prop} {writes : List (κ × Option ν)} {w : κ × Option ν}
    {k : κ} (hk : k ≠ w.1) (h : P ∨ ∃ x ∈ writes ++ [w], x.1 = k) : P ∨ ∃ x ∈ writes, x.1 = k := by
  refine h.imp_right ?_
  rintro ⟨x, hx, hxk⟩
  cases List.mem_append.mp hx with
  | inl hmem => exact ⟨x, hmem, hxk⟩
  | inr hlast => exact absurd (List.mem_singleton.mp hlast ▸ hxk).symm hk

/-- If all writes at `k` agree, their common value is the result. -/
theorem replay_eq_of_forall {start : κ → Option ν} {writes : List (κ × Option ν)} {k : κ}
    {v : Option ν} (hall : ∀ w ∈ writes, w.1 = k → w.2 = v)
    (hsome : start k = v ∨ ∃ w ∈ writes, w.1 = k) : replay start writes k = v := by
  induction writes using List.reverseRecOn with
  | nil => simpa using hsome
  | append_singleton writes w ih =>
    rw [replay_concat]
    by_cases hk : k = w.1
    · rw [hk, Function.update_self]
      exact hall w (by simp) hk.symm
    · rw [Function.update_of_ne hk]
      apply ih (fun x hx => hall x (List.mem_append_left _ hx))
      exact written_of_concat hk hsome

/-- Two starts that agree at `k` give the same result there, and any two do if `k` is written. -/
theorem replay_congr {start start' : κ → Option ν} {writes : List (κ × Option ν)} {k : κ}
    (h : start k = start' k ∨ ∃ w ∈ writes, w.1 = k) :
    replay start writes k = replay start' writes k := by
  induction writes using List.reverseRecOn with
  | nil => simpa using h
  | append_singleton writes w ih =>
    rw [replay_concat, replay_concat]
    by_cases hk : k = w.1
    · simp [hk]
    · rw [Function.update_of_ne hk, Function.update_of_ne hk]
      exact ih (written_of_concat hk h)

theorem replay_map {κ' ν' : Type*} [DecidableEq κ'] {f : κ → κ'} (hf : Function.Injective f)
    (g : ν → ν') {start : κ → Option ν} {start' : κ' → Option ν'} {k : κ}
    (h : start' (f k) = (start k).map g) (writes : List (κ × Option ν)) :
    replay start' (writes.map fun w => (f w.1, w.2.map g)) (f k) =
      (replay start writes k).map g := by
  induction writes using List.reverseRecOn with
  | nil => exact h
  | append_singleton writes w ih =>
    rw [List.map_append, List.map_singleton, replay_concat, replay_concat]
    by_cases hk : k = w.1
    · simp [hk]
    · rw [Function.update_of_ne hk, Function.update_of_ne (fun heq => hk (hf heq))]
      exact ih

section Actions

variable {α β : Type*} {act : β → α → α}

def perform (act : β → α → α) (actions : List β) (start : α) : α :=
  actions.foldl (fun x a => act a x) start

@[simp] theorem perform_nil (start : α) : perform act [] start = start := rfl

@[simp] theorem perform_cons (a : β) (actions : List β) (start : α) :
    perform act (a :: actions) start = perform act actions (act a start) := rfl

theorem perform_append (xs ys : List β) (start : α) :
    perform act (xs ++ ys) start = perform act ys (perform act xs start) :=
  List.foldl_append

/-- An action forgets what it finds, or every later action overwrites it or commutes with it. -/
structure Overwriting (act : β → α → α) : Prop where
  idem : ∀ a x, act a (act a x) = act a x
  later : ∀ a, (∀ x y, act a x = act a y) ∨
    ∀ b x, act b (act a x) = act b x ∨ act b (act a x) = act a (act b x)

/-- An action that is performed again at the end need not be performed at the beginning. -/
theorem act_perform_act (h : Overwriting act) (a : β) (actions : List β) (x : α) :
    act a (perform act actions (act a x)) = act a (perform act actions x) := by
  cases h.later a with
  | inl hforgets => exact hforgets _ _
  | inr hlater =>
    induction actions generalizing x with
    | nil => exact h.idem a x
    | cons b actions ih =>
      rw [perform_cons, perform_cons]
      cases hlater b x with
      | inl hoverwrites => rw [hoverwrites]
      | inr hcommutes => rw [hcommutes, ih]

theorem perform_perform (h : Overwriting act) (actions : List β) (x : α) :
    perform act actions (perform act actions x) = perform act actions x := by
  induction actions using List.reverseRecOn generalizing x with
  | nil => rfl
  | append_singleton actions a ih =>
    simp only [perform_append, perform_cons, perform_nil]
    rw [act_perform_act h, ih]

end Actions

end Replay
