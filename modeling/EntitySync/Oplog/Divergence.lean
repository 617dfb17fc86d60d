import EntitySync.Library.Accumulator
import EntitySync.Oplog.Lifetime

/-!
# Divergence of checksums

Every step of `fold_checksum` can be undone: the offset and the bytes enter by xor, and the FNV
prime is odd, so it has an inverse modulo 2^64. Hence two checksums that differ keep differing under
common payloads, and a single changed byte always shows.
-/

namespace EntitySync.Oplog

open Function

def fnvInverse : UInt64 := 0xce965057aff6957b

theorem fnvPrime_mul_fnvInverse : fnvPrime * fnvInverse = 1 := by decide

theorem mul_fnvPrime_bijective : Bijective fun hash : UInt64 => hash * fnvPrime := by
  refine bijective_iff_has_inverse.mpr ⟨fun hash => hash * fnvInverse, ?_, ?_⟩
  · intro hash
    change hash * fnvPrime * fnvInverse = hash
    rw [UInt64.mul_assoc, fnvPrime_mul_fnvInverse, UInt64.mul_one]
  · intro hash
    change hash * fnvInverse * fnvPrime = hash
    rw [UInt64.mul_assoc, UInt64.mul_comm fnvInverse, fnvPrime_mul_fnvInverse, UInt64.mul_one]

theorem xor_bijective (c : UInt64) : Bijective fun hash : UInt64 => hash ^^^ c := by
  apply Involutive.bijective
  intro hash
  change hash ^^^ c ^^^ c = hash
  rw [UInt64.xor_assoc, UInt64.xor_self, UInt64.xor_zero]

/-- The step of `fold_checksum` for one byte. -/
def absorb (hash : UInt64) (byte : UInt8) : UInt64 := (hash ^^^ byte.toUInt64) * fnvPrime

theorem foldChecksum_eq (prev : BucketChecksum) (payload : Bytes) :
    foldChecksum prev payload = payload.foldl absorb (prev ^^^ 0xcbf29ce484222325) := rfl

theorem absorb_bijective (byte : UInt8) : Bijective fun hash => absorb hash byte :=
  mul_fnvPrime_bijective.comp (xor_bijective byte.toUInt64)

theorem absorb_ne {x y : UInt8} (hne : x ≠ y) (hash : UInt64) : absorb hash x ≠ absorb hash y := by
  intro heq
  have hxor : hash ^^^ x.toUInt64 = hash ^^^ y.toUInt64 := mul_fnvPrime_bijective.injective heq
  rw [UInt64.xor_comm hash, UInt64.xor_comm hash] at hxor
  have hbyte : x.toUInt64 = y.toUInt64 := (xor_bijective hash).injective hxor
  exact hne (UInt8.toUInt64_inj.mp hbyte)

theorem foldChecksum_bijective (payload : Bytes) :
    Bijective fun prev => foldChecksum prev payload :=
  (Accumulator.foldl_bijective absorb_bijective payload).comp (xor_bijective _)

theorem foldChecksum_replaced_ne {x y : UInt8} (hne : x ≠ y) (front back : Bytes)
    (prev : BucketChecksum) :
    foldChecksum prev (front ++ x :: back) ≠ foldChecksum prev (front ++ y :: back) := by
  rw [foldChecksum_eq, foldChecksum_eq]
  exact Accumulator.foldl_replaced_ne (fun byte => (absorb_bijective byte).injective)
    (absorb_ne hne) front back _

def historyChecksum (history : List Bytes) : BucketChecksum := history.foldl foldChecksum 0

/-- Divergence never heals: each payload acts on the checksums as a bijection, so histories with
different checksums keep them different under common payloads, and histories that differ in one
byte of one payload have different checksums. After every run, the checksum of a bucket is that of
its committed payloads. -/
theorem divergence_never_heals :
    (∀ payload, Bijective fun prev => foldChecksum prev payload) ∧
    (∀ history history' common : List Bytes,
      historyChecksum history ≠ historyChecksum history' →
        historyChecksum (history ++ common) ≠ historyChecksum (history' ++ common)) ∧
    (∀ (before after : List Bytes) (front back : Bytes) (x y : UInt8), x ≠ y →
      historyChecksum (before ++ (front ++ x :: back) :: after) ≠
        historyChecksum (before ++ (front ++ y :: back) :: after)) ∧
    ∀ codec ttl steps b, (run codec (BucketOpLog.empty ttl) steps).checksum b =
      historyChecksum (payloads codec b steps) := by
  have hinjective (payload : Bytes) : Injective fun prev => foldChecksum prev payload :=
    (foldChecksum_bijective payload).injective
  refine ⟨foldChecksum_bijective, ?_, ?_, ?_⟩
  · intro history history' common hne
    rw [historyChecksum, historyChecksum, List.foldl_append, List.foldl_append]
    exact Accumulator.foldl_ne hinjective hne common
  · intro before after front back x y hne
    exact Accumulator.foldl_replaced_ne hinjective (foldChecksum_replaced_ne hne front back)
      before after 0
  · intro codec ttl steps b
    exact checksum_run codec _ steps b

end EntitySync.Oplog
