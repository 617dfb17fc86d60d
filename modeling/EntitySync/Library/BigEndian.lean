import Mathlib.Data.Nat.Basic
import Mathlib.Tactic.Ring

/-!
# Big-endian bytes under the lexicographic order

Fixed-width big-endian encodings compare like the numbers they encode, and a concatenation of
fields of equal width compares field by field. Byte strings are ordered by the `Ord` instance
of `List UInt8`, which is the order of a byte-wise comparison with the shorter string first.
-/

namespace BigEndian

/-- The last `width` base-256 digits of `n`, most significant first. -/
def bytes : Nat → Nat → List UInt8
  | 0, _ => []
  | width + 1, n => UInt8.ofNat (n / 256 ^ width) :: bytes width n

/-- The number whose base-256 digits, most significant first, are the given bytes. -/
def value (bs : List UInt8) : Nat := bs.foldl (fun acc b => acc * 256 + b.toNat) 0

@[simp] theorem length_bytes (width n : Nat) : (bytes width n).length = width := by
  induction width with
  | zero => rfl
  | succ width ih => simp [bytes, ih]

theorem bytes_succ_eq_concat (width n : Nat) :
    bytes (width + 1) n = bytes width (n / 256) ++ [UInt8.ofNat n] := by
  induction width with
  | zero => simp [bytes]
  | succ width ih =>
    rw [bytes, ih, bytes, List.cons_append, Nat.div_div_eq_div_mul, pow_succ']

private theorem foldl_value (bs : List UInt8) (acc : Nat) :
    bs.foldl (fun acc b => acc * 256 + b.toNat) acc = acc * 256 ^ bs.length + value bs := by
  induction bs generalizing acc with
  | nil => simp [value]
  | cons b bs ih =>
    simp only [value, List.foldl_cons, List.length_cons] at ih ⊢
    rw [ih, ih (0 * 256 + b.toNat)]
    ring

theorem value_cons (b : UInt8) (bs : List UInt8) :
    value (b :: bs) = b.toNat * 256 ^ bs.length + value bs := by
  rw [value, List.foldl_cons, foldl_value]
  ring

theorem value_lt (bs : List UInt8) : value bs < 256 ^ bs.length := by
  induction bs with
  | nil => simp [value]
  | cons b bs ih =>
    have hb : b.toNat + 1 ≤ 256 := b.toNat_lt
    calc value (b :: bs) = b.toNat * 256 ^ bs.length + value bs := value_cons b bs
      _ < (b.toNat + 1) * 256 ^ bs.length := by rw [Nat.succ_mul]; omega
      _ ≤ 256 * 256 ^ bs.length := Nat.mul_le_mul_right _ hb
      _ = 256 ^ (b :: bs).length := by rw [List.length_cons, pow_succ, Nat.mul_comm]

theorem value_bytes (width n : Nat) : value (bytes width n) = n % 256 ^ width := by
  induction width with
  | zero => simp [bytes, value, Nat.mod_one]
  | succ width ih =>
    rw [bytes, value_cons, length_bytes, ih]
    have hmod : n % 256 ^ (width + 1) =
        n % 256 ^ width + 256 ^ width * (n / 256 ^ width % 256) := by
      rw [pow_succ, Nat.mod_mul]
    rw [hmod, UInt8.toNat_ofNat']
    ring

theorem value_bytes_of_lt {width n : Nat} (h : n < 256 ^ width) : value (bytes width n) = n := by
  rw [value_bytes, Nat.mod_eq_of_lt h]

theorem compare_eq_lt {xs ys : List UInt8} : compare xs ys = .lt ↔ xs < ys := by
  induction xs generalizing ys with
  | nil => cases ys <;> simp
  | cons x xs ih =>
    cases ys with
    | nil => simp
    | cons y ys =>
      rw [List.compare_cons_cons, Ordering.then_eq_lt, List.cons_lt_cons_iff, ih,
        Std.compare_eq_lt, Std.LawfulEqOrd.compare_eq_iff_eq]

theorem compare_append {xs ys : List UInt8} (h : xs.length = ys.length) (us vs : List UInt8) :
    compare (xs ++ us) (ys ++ vs) = (compare xs ys).then (compare us vs) := by
  induction xs generalizing ys with
  | nil =>
    obtain rfl : ys = [] := List.length_eq_zero_iff.mp h.symm
    simp
  | cons x xs ih =>
    cases ys with
    | nil => simp at h
    | cons y ys =>
      rw [List.cons_append, List.cons_append, List.compare_cons_cons, List.compare_cons_cons,
        ih (by simpa using h), Ordering.then_assoc]

private theorem compare_toNat (x y : UInt8) : compare x y = compare x.toNat y.toNat := by
  simp only [compare, compareOfLessAndEq, UInt8.lt_iff_toNat_lt, UInt8.toNat_inj]

private theorem compare_value_cons {x y : UInt8} {xs ys : List UInt8}
    (h : xs.length = ys.length) :
    compare (value (x :: xs)) (value (y :: ys)) =
      (compare x y).then (compare (value xs) (value ys)) := by
  have hx := value_lt xs
  have hy := value_lt ys
  rw [← h] at hy
  rw [value_cons, value_cons, ← h, compare_toNat]
  rcases Nat.lt_trichotomy x.toNat y.toNat with hlt | heq | hgt
  · have hmul := Nat.mul_le_mul_right (256 ^ xs.length) hlt
    rw [Nat.succ_mul] at hmul
    rw [Nat.compare_eq_lt.mpr hlt, Nat.compare_eq_lt.mpr (by omega)]
    rfl
  · rw [heq, Nat.compare_eq_eq.mpr rfl, Ordering.eq_then]
    simp only [Nat.compare_eq_ite_lt, Nat.add_lt_add_iff_left]
  · have hmul := Nat.mul_le_mul_right (256 ^ xs.length) hgt
    rw [Nat.succ_mul] at hmul
    rw [Nat.compare_eq_gt.mpr hgt, Nat.compare_eq_gt.mpr (by omega)]
    rfl

theorem compare_eq_compare_value {xs ys : List UInt8} (h : xs.length = ys.length) :
    compare xs ys = compare (value xs) (value ys) := by
  induction xs generalizing ys with
  | nil =>
    obtain rfl : ys = [] := List.length_eq_zero_iff.mp h.symm
    rfl
  | cons x xs ih =>
    cases ys with
    | nil => simp at h
    | cons y ys =>
      have hlen : xs.length = ys.length := by simpa using h
      rw [List.compare_cons_cons, ih hlen, compare_value_cons hlen]

theorem compare_bytes {width m n : Nat} (hm : m < 256 ^ width) (hn : n < 256 ^ width) :
    compare (bytes width m) (bytes width n) = compare m n := by
  rw [compare_eq_compare_value (by simp), value_bytes_of_lt hm, value_bytes_of_lt hn]

end BigEndian
