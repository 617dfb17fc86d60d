import Mathlib.Data.List.Basic
import Mathlib.Data.List.Perm.Basic

/-!
# Commutative, associative and idempotent merges

`merge a b = b` says that `b` covers `a`: nothing of `a` is missing in `b`.
-/

namespace Merge

variable {α : Type*} {merge : α → α → α} [Std.Associative merge]

theorem covers_trans {a b c : α} (hab : merge a b = b) (hbc : merge b c = c) : merge a c = c := by
  have hassoc : merge (merge a b) c = merge a (merge b c) := Std.Associative.assoc a b c
  rw [hab, hbc] at hassoc
  exact hassoc.symm

/-- A delta merged into an old state `e` gives the same as merged into a state `a` that covers `e`
exactly when the result covers `a`. -/
theorem merge_old_eq_iff [Std.Commutative merge] {e a delta : α} (h : merge e a = a) :
    merge e delta = merge a delta ↔ merge a (merge e delta) = merge e delta := by
  have hassoc : merge (merge a e) delta = merge a (merge e delta) :=
    Std.Associative.assoc a e delta
  have hcomm : merge a e = merge e a := Std.Commutative.comm a e
  rw [← hassoc, hcomm, h]
  exact eq_comm

end Merge

namespace List

theorem filterMap_set_perm {α β : Type*} {f : α → Option β} {xs : List α} {i : Nat} {x y : α}
    {b : β} (hx : xs[i]? = some x) (hdrop : f x = none) (hkeep : f y = some b) :
    ((xs.set i y).filterMap f).Perm (xs.filterMap f ++ [b]) := by
  induction xs generalizing i with
  | nil => simp at hx
  | cons z xs ih =>
    cases i with
    | zero =>
      simp only [List.getElem?_cons_zero, Option.some.injEq] at hx
      simp only [List.set_cons_zero, List.filterMap_cons, hx, hdrop, hkeep]
      exact (List.perm_append_singleton b _).symm
    | succ i =>
      simp only [List.set_cons_succ, List.filterMap_cons]
      cases f z with
      | none => exact ih hx
      | some c => exact (ih hx).cons c

theorem filterMap_set_of_none {α β : Type*} {f : α → Option β} {xs : List α} {i : Nat} {x y : α}
    (hx : xs[i]? = some x) (hdrop : f x = none) (hdrop' : f y = none) :
    (xs.set i y).filterMap f = xs.filterMap f := by
  induction xs generalizing i with
  | nil => simp at hx
  | cons z xs ih =>
    cases i with
    | zero =>
      simp only [List.getElem?_cons_zero, Option.some.injEq] at hx
      simp [hx, hdrop, hdrop']
    | succ i => simp only [List.set_cons_succ, List.filterMap_cons, ih hx]

end List
