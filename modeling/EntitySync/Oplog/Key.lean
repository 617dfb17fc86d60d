import EntitySync.Core.Types
import EntitySync.Library.BigEndian

/-!
# Composite keys of the op log

Layout: the length of the bucket id (2 bytes, big-endian), the bytes of the id, the LSN (8
bytes, big-endian). For ids whose length fits the prefix, the byte order of the keys is the
lexicographic order of (length, id, LSN), so the keys of one bucket are contiguous and sorted by
LSN.
-/

namespace EntitySync.Oplog

def idBytes (b : BucketId) : List UInt8 := b.val.toByteArray.data.toList

def maxBucketIdLen : Nat := 65535

/-- The length is cast with `as u16`: only its last two base-256 digits are written. -/
def makeKey (b : BucketId) (lsn : PgLsn) : List UInt8 :=
  BigEndian.bytes 2 (UInt16.ofNat (idBytes b).length).toNat ++ idBytes b ++
    BigEndian.bytes 8 lsn.toNat

def makeRangeStart (b : BucketId) (fromLsn : PgLsn) : List UInt8 := makeKey b fromLsn

def makeBucketRangeEnd (b : BucketId) : List UInt8 := makeKey b PgLsn.max

def lsnFromKey (key : List UInt8) : Option PgLsn :=
  if key.length < 8 then none
  else some (UInt64.ofNat (BigEndian.value (key.drop (key.length - 8))))

theorem idBytes_injective {a b : BucketId} (h : idBytes a = idBytes b) : a = b := by
  cases a with
  | mk s =>
    cases b with
    | mk t =>
      have hval : s = t := eq_of_utf8_eq h
      rw [hval]

@[simp] theorem length_makeKey (b : BucketId) (lsn : PgLsn) :
    (makeKey b lsn).length = (idBytes b).length + 10 := by
  simp [makeKey]
  omega

theorem lsnFromKey_makeKey (b : BucketId) (lsn : PgLsn) :
    lsnFromKey (makeKey b lsn) = some lsn := by
  have hlen : ¬(makeKey b lsn).length < 8 := by
    rw [length_makeKey]
    omega
  have hdrop : (makeKey b lsn).drop ((makeKey b lsn).length - 8) =
      BigEndian.bytes 8 lsn.toNat := by
    have hhead : (makeKey b lsn).length - 8 =
        (BigEndian.bytes 2 (UInt16.ofNat (idBytes b).length).toNat ++ idBytes b).length := by
      rw [length_makeKey, List.length_append, BigEndian.length_bytes]
      omega
    rw [hhead, makeKey, List.drop_left]
  have hvalue : BigEndian.value (BigEndian.bytes 8 lsn.toNat) = lsn.toNat :=
    BigEndian.value_bytes_of_lt (by simpa using lsn.toNat_lt)
  rw [lsnFromKey, if_neg hlen, hdrop, hvalue, UInt64.ofNat_toNat]

theorem lengthPrefix_toNat {b : BucketId} (h : (idBytes b).length ≤ maxBucketIdLen) :
    (UInt16.ofNat (idBytes b).length).toNat = (idBytes b).length := by
  rw [UInt16.toNat_ofNat']
  apply Nat.mod_eq_of_lt
  simp only [maxBucketIdLen] at h
  omega

private theorem compare_lsn (l m : PgLsn) : compare l m = compare l.toNat m.toNat := by
  simp only [compare, compareOfLessAndEq, UInt64.lt_iff_toNat_lt, UInt64.toNat_inj]

theorem compare_makeKey {a b : BucketId} (ha : (idBytes a).length ≤ maxBucketIdLen)
    (hb : (idBytes b).length ≤ maxBucketIdLen) (l m : PgLsn) :
    compare (makeKey a l) (makeKey b m) =
      (compare (idBytes a).length (idBytes b).length).then
        ((compare (idBytes a) (idBytes b)).then (compare l m)) := by
  have hlen : compare (BigEndian.bytes 2 (idBytes a).length)
      (BigEndian.bytes 2 (idBytes b).length) =
      compare (idBytes a).length (idBytes b).length := by
    simp only [maxBucketIdLen] at ha hb
    apply BigEndian.compare_bytes <;> omega
  have hlsn : compare (BigEndian.bytes 8 l.toNat) (BigEndian.bytes 8 m.toNat) = compare l m := by
    rw [compare_lsn]
    apply BigEndian.compare_bytes
    · simpa using l.toNat_lt
    · simpa using m.toNat_lt
  rw [makeKey, makeKey, lengthPrefix_toNat ha, lengthPrefix_toNat hb, List.append_assoc,
    List.append_assoc, BigEndian.compare_append (by simp), hlen]
  by_cases heq : (idBytes a).length = (idBytes b).length
  · rw [BigEndian.compare_append heq, hlsn]
  · have hne : compare (idBytes a).length (idBytes b).length ≠ .eq := by
      intro h
      exact heq (Nat.compare_eq_eq.mp h)
    cases hcmp : compare (idBytes a).length (idBytes b).length with
    | lt => rfl
    | gt => rfl
    | eq => exact absurd hcmp hne

theorem compare_makeKey_self {b : BucketId} (hb : (idBytes b).length ≤ maxBucketIdLen)
    (l m : PgLsn) : compare (makeKey b l) (makeKey b m) = compare l m := by
  rw [compare_makeKey hb hb, Nat.compare_eq_eq.mpr rfl, Std.ReflOrd.compare_self]
  rfl

theorem makeKey_injective {a b : BucketId} (ha : (idBytes a).length ≤ maxBucketIdLen)
    (hb : (idBytes b).length ≤ maxBucketIdLen) {l m : PgLsn} (h : makeKey a l = makeKey b m) :
    a = b ∧ l = m := by
  have hcmp := compare_makeKey ha hb l m
  rw [h, Std.ReflOrd.compare_self, eq_comm, Ordering.then_eq_eq, Ordering.then_eq_eq] at hcmp
  exact ⟨idBytes_injective (Std.LawfulEqOrd.eq_of_compare hcmp.2.1),
    Std.LawfulEqOrd.eq_of_compare hcmp.2.2⟩

/-- Keys are ordered like the triples of length, id and LSN, and a key gives back both the id and
the LSN. -/
theorem makeKey_orderEmbedding {a b : BucketId} (ha : (idBytes a).length ≤ maxBucketIdLen)
    (hb : (idBytes b).length ≤ maxBucketIdLen) (l m : PgLsn) :
    (makeKey a l < makeKey b m ↔
        (idBytes a).length < (idBytes b).length ∨
          ((idBytes a).length = (idBytes b).length ∧
            (idBytes a < idBytes b ∨ (idBytes a = idBytes b ∧ l < m)))) ∧
      (makeKey a l = makeKey b m → a = b ∧ l = m) ∧
      lsnFromKey (makeKey a l) = some l := by
  refine ⟨?_, makeKey_injective ha hb, lsnFromKey_makeKey a l⟩
  rw [← BigEndian.compare_eq_lt, compare_makeKey ha hb, Ordering.then_eq_lt, Ordering.then_eq_lt,
    Nat.compare_eq_lt, Nat.compare_eq_eq, BigEndian.compare_eq_lt,
    Std.LawfulEqOrd.compare_eq_iff_eq, Std.compare_eq_lt]

/-- A longer id sorts behind a shorter one, whatever their letters and LSNs are. -/
theorem makeKey_lt_longer : makeKey ⟨"b"⟩ 7 < makeKey ⟨"a:1"⟩ 3 := by
  have h := makeKey_orderEmbedding (a := ⟨"b"⟩) (b := ⟨"a:1"⟩) (by decide) (by decide) 7 3
  exact h.1.mpr (Or.inl (by decide))

/-- A key of any bucket that lies in the scan range of `b` is a key of `b` from `fromLsn` on. -/
theorem makeKey_mem_range {a b : BucketId} (ha : (idBytes a).length ≤ maxBucketIdLen)
    (hb : (idBytes b).length ≤ maxBucketIdLen) {l fromLsn : PgLsn} :
    ((compare (makeRangeStart b fromLsn) (makeKey a l)).isLE ∧
        compare (makeKey a l) (makeBucketRangeEnd b) = .lt) ↔
      a = b ∧ fromLsn ≤ l ∧ l < PgLsn.max := by
  rw [makeRangeStart, makeBucketRangeEnd]
  by_cases hab : a = b
  · subst hab
    rw [compare_makeKey_self ha, compare_makeKey_self ha, Std.isLE_compare, Std.compare_eq_lt]
    simp
  · constructor
    · intro h
      -- The id fields differ, so both endpoints compare with the key in the same way.
      exfalso
      rw [compare_makeKey hb ha, compare_makeKey ha hb] at h
      have hid : compare (idBytes a) (idBytes b) ≠ .eq := by
        intro heq
        exact hab (idBytes_injective (Std.LawfulEqOrd.eq_of_compare heq))
      have hswap : compare (idBytes b) (idBytes a) = (compare (idBytes a) (idBytes b)).swap :=
        Std.OrientedOrd.eq_swap
      have hswapLen : compare (idBytes b).length (idBytes a).length =
          (compare (idBytes a).length (idBytes b).length).swap := Std.OrientedOrd.eq_swap
      rw [hswap, hswapLen] at h
      cases hlen : compare (idBytes a).length (idBytes b).length <;>
        cases hcmp : compare (idBytes a) (idBytes b) <;> simp_all
    · intro h
      exact absurd h.1 hab

end EntitySync.Oplog
