import Mathlib.Data.List.Basic

/-!
# Counting over slots

Tasks, sockets or other parties as the elements of a list, where each step replaces one element by
the next state of the party. The lemmas say what a replacement does to the number of parties in
some states, and when such a party is unique.
-/

namespace Slots

variable {α : Type*} {l : List α} {i j : Nat} {a b : α} {p : α → Bool}

theorem countP_set (h : l[i]? = some a) (b : α) (p : α → Bool) :
    (l.set i b).countP p + (p a).toNat = l.countP p + (p b).toNat := by
  obtain ⟨hi, hget⟩ := List.getElem?_eq_some_iff.mp h
  have hpos : (p a).toNat ≤ l.countP p := by
    cases hp : p a with
    | false => exact Nat.zero_le _
    | true => exact List.countP_pos_iff.mpr ⟨a, List.mem_of_getElem? h, hp⟩
  simp only [List.countP_set hi, hget]
  revert hpos
  cases p a <;> cases p b <;>
    simp only [Bool.toNat_true, Bool.toNat_false, Bool.false_eq_true, reduceIte] <;> omega

theorem index_unique (h : l.countP p ≤ 1) (hi : l[i]? = some a) (hj : l[j]? = some b)
    (ha : p a = true) (hb : p b = true) : i = j := by
  have hfound {xs : List α} {k : Nat} {x : α} (hk : xs[k]? = some x) (hx : p x = true) :
      0 < xs.countP p := List.countP_pos_iff.mpr ⟨x, List.mem_of_getElem? hk, hx⟩
  induction l generalizing i j with
  | nil => cases hi
  | cons x xs ih =>
    cases i with
    | zero =>
      cases j with
      | zero => rfl
      | succ j =>
        cases hi
        rw [List.countP_cons_of_pos ha] at h
        rw [List.getElem?_cons_succ] at hj
        have hpos := hfound hj hb
        omega
    | succ i =>
      cases j with
      | zero =>
        cases hj
        rw [List.countP_cons_of_pos hb] at h
        rw [List.getElem?_cons_succ] at hi
        have hpos := hfound hi ha
        omega
      | succ j =>
        have hle : xs.countP p ≤ (x :: xs).countP p := (List.sublist_cons_self x xs).countP_le
        exact congrArg (· + 1) (ih (Nat.le_trans hle h) hi hj)

theorem of_countP_eq {q : α → Bool} (himp : ∀ x, q x = true → p x = true)
    (hcount : l.countP p = l.countP q) : ∀ x ∈ l, p x = true → q x = true := by
  induction l with
  | nil => simp
  | cons x xs ih =>
    have hle : xs.countP q ≤ xs.countP p := List.countP_mono_left fun y _ => himp y
    rw [List.countP_cons, List.countP_cons] at hcount
    cases hq : q x with
    | true =>
      rw [himp x hq, hq] at hcount
      rw [List.forall_mem_cons]
      exact ⟨fun _ => hq, ih (Nat.add_right_cancel hcount)⟩
    | false =>
      rw [hq] at hcount
      cases hp : p x with
      | true =>
        rw [hp] at hcount
        simp only [if_true, Bool.false_eq_true, if_false] at hcount
        omega
      | false =>
        rw [hp] at hcount
        rw [List.forall_mem_cons]
        refine ⟨fun h => ?_, ih (Nat.add_right_cancel hcount)⟩
        rw [hp] at h
        cases h

end Slots
