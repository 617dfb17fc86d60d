import Mathlib.Logic.Function.Basic

/-!
# Folds of reversible steps

A fold whose every step is injective in the state never merges two states, and a list in which one
element was replaced by one that acts differently leads to another state.
-/

namespace Accumulator

open Function

variable {σ α : Type*} {f : σ → α → σ}

theorem foldl_bijective (h : ∀ a, Bijective fun s => f s a) (as : List α) :
    Bijective fun s => as.foldl f s := by
  induction as with
  | nil => exact bijective_id
  | cons a as ih => exact ih.comp (h a)

theorem foldl_ne (h : ∀ a, Injective fun s => f s a) {s t : σ} (hne : s ≠ t) (as : List α) :
    as.foldl f s ≠ as.foldl f t := by
  induction as generalizing s t with
  | nil => exact hne
  | cons a as ih => exact ih ((h a).ne hne)

/-- One replaced element makes a difference that the rest of the fold keeps. -/
theorem foldl_replaced_ne (h : ∀ a, Injective fun s => f s a) {a b : α} (hne : ∀ s, f s a ≠ f s b)
    (front back : List α) (s : σ) :
    (front ++ a :: back).foldl f s ≠ (front ++ b :: back).foldl f s := by
  rw [List.foldl_append, List.foldl_append, List.foldl_cons, List.foldl_cons]
  exact foldl_ne h (hne _) back

end Accumulator
