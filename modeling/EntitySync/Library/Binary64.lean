import Mathlib.Data.Nat.Find
import Mathlib.Data.Nat.Log
import Mathlib.Tactic.Ring

/-!
# Integers as doubles

The natural numbers that a double holds exactly, the double nearest to a natural number, and the
shortest decimal that determines such a double. Everything stays far below the largest double.
-/

namespace Binary64

/-- The multiple of `unit` that is nearest to `n`, and of two such multiples the even one. -/
def roundHalfEven (unit n : Nat) : Nat :=
  if 2 * (n % unit) < unit ∨ 2 * (n % unit) = unit ∧ n / unit % 2 = 0 then n / unit * unit
  else (n / unit + 1) * unit

/-- The double nearest to `n`: 53 bits of significand remain. -/
def nearest (n : Nat) : Nat := roundHalfEven (2 ^ (n.log2 - 52)) n

def Exact (n : Nat) : Prop := ∃ m e, m < 2 ^ 53 ∧ n = m * 2 ^ e

/-- The decimal with the fewest significant digits whose nearest double is `n`. -/
def shortest (n : Nat) : Nat :=
  roundHalfEven (10 ^ Nat.findGreatest (fun k => nearest (roundHalfEven (10 ^ k) n) = n) 21) n

variable {unit n : Nat}

theorem roundHalfEven_eq_self_iff (hunit : 0 < unit) : roundHalfEven unit n = n ↔ unit ∣ n := by
  unfold roundHalfEven
  constructor
  · intro h
    split at h
    · exact ⟨n / unit, by rw [mul_comm, h]⟩
    · exact ⟨n / unit + 1, by rw [mul_comm, h]⟩
  · intro h
    rw [if_pos (Or.inl (by rw [Nat.mod_eq_zero_of_dvd h]; omega)), Nat.div_mul_cancel h]

theorem le_roundHalfEven (unit n : Nat) : n / unit * unit ≤ roundHalfEven unit n := by
  unfold roundHalfEven
  split
  · exact le_rfl
  · exact Nat.mul_le_mul_right unit (Nat.le_succ _)

/-- The unit in the last place divides exactly the numbers with 53 bits of significand. -/
theorem unit_dvd_iff : 2 ^ (n.log2 - 52) ∣ n ↔ Exact n := by
  constructor
  · rintro ⟨q, hq⟩
    refine ⟨q, n.log2 - 52, ?_, by rw [mul_comm]; exact hq⟩
    have hn : 2 ^ (n.log2 - 52) * q < 2 ^ (n.log2 - 52) * 2 ^ 53 := by
      rw [← hq, ← pow_add]
      exact Nat.lt_log2_self.trans_le (Nat.pow_le_pow_right (by omega) (by omega))
    exact Nat.lt_of_mul_lt_mul_left hn
  · rintro ⟨m, e, hm, hn⟩
    rcases Nat.eq_zero_or_pos n with hzero | hpos
    · rw [hzero]
      exact dvd_zero _
    · have hlt : n < 2 ^ (53 + e) := by
        rw [hn, pow_add]
        exact Nat.mul_lt_mul_of_pos_right hm (Nat.two_pow_pos e)
      have hlog := (Nat.log2_lt (by omega)).mpr hlt
      have hdvd : 2 ^ e ∣ n := ⟨m, by rw [hn, mul_comm]⟩
      exact (Nat.pow_dvd_pow 2 (by omega)).trans hdvd

theorem nearest_eq_self_iff : nearest n = n ↔ Exact n := by
  rw [nearest, roundHalfEven_eq_self_iff (Nat.two_pow_pos _), unit_dvd_iff]

instance : Decidable (Exact n) := decidable_of_iff _ nearest_eq_self_iff

theorem exact_of_lt (h : n < 2 ^ 53) : Exact n := ⟨n, 0, h, by simp⟩

theorem nearest_of_lt (h : n < 2 ^ 53) : nearest n = n := nearest_eq_self_iff.mpr (exact_of_lt h)

theorem le_nearest (h : 2 ^ 53 ≤ n) : 2 ^ 53 ≤ nearest n := by
  have hlog : 53 ≤ n.log2 := (Nat.le_log2 (by omega)).mpr h
  have hunit : 2 ^ (n.log2 - 52) * 2 ^ 52 ≤ n := by
    rw [← pow_add, Nat.sub_add_cancel (by omega)]
    exact (Nat.le_log2 (by omega)).mp le_rfl
  have hdiv : 2 ^ 52 ≤ n / 2 ^ (n.log2 - 52) :=
    (Nat.le_div_iff_mul_le (Nat.two_pow_pos _)).mpr (by rw [mul_comm]; exact hunit)
  have htwo : 2 ^ 1 ≤ 2 ^ (n.log2 - 52) := Nat.pow_le_pow_right (by omega) (by omega)
  calc 2 ^ 53 = 2 ^ 52 * 2 ^ 1 := by norm_num
    _ ≤ n / 2 ^ (n.log2 - 52) * 2 ^ (n.log2 - 52) := Nat.mul_le_mul hdiv htwo
    _ ≤ nearest n := le_roundHalfEven _ _

/-- Reading the shortest decimal of a double gives the double back. -/
theorem nearest_shortest (h : Exact n) : nearest (shortest n) = n := by
  have hone : nearest (roundHalfEven (10 ^ 0) n) = n := by
    rw [(roundHalfEven_eq_self_iff (by simp)).mpr (by simp), nearest_eq_self_iff]
    exact h
  have hspec := Nat.findGreatest_spec
    (P := fun k => nearest (roundHalfEven (10 ^ k) n) = n) (Nat.zero_le 21) hone
  exact hspec

example : nearest 9007199254740993 = 9007199254740992 := by decide +kernel

example : shortest 9223372036854775808 = 9223372036854776000 := by decide +kernel

end Binary64
