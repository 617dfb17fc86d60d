import EntitySync.Core.Json
import EntitySync.Library.AssocMap

/-!
# Core types

The types of `pes-core` that the crates share. A `HashMap` is an association list without
repeated keys: its list order is one of the iteration orders the real map may show, so a
statement about all maps is also one about all iteration orders.
-/

namespace EntitySync

open Json (Value)

/-- `std::collections::HashMap`. -/
abbrev HashMap (κ ν : Type) := AssocMap κ ν

theorem eq_of_utf8_eq {s t : String}
    (h : s.toByteArray.data.toList = t.toByteArray.data.toList) : s = t := by
  have hdata : s.toByteArray.data = t.toByteArray.data := Array.toList_inj.mp h
  have hbytes : s.toByteArray = t.toByteArray := ByteArray.ext hdata
  exact String.toByteArray_inj.mp hbytes

/-- `PgLsn(pub u64)`: the position token of an op. -/
abbrev PgLsn := UInt64

def PgLsn.max : PgLsn := 0xFFFFFFFFFFFFFFFF

/-- `BucketId(pub String)`. -/
structure BucketId where
  val : String
deriving DecidableEq, Repr

/-- `BucketChecksum(pub u64)`. -/
abbrev BucketChecksum := UInt64

inductive Op where
  | upsert (row : Value)
  | delete
  | crdtPatch (patch : List UInt8)
deriving DecidableEq, Repr

structure BucketOp where
  lsn : PgLsn
  bucketId : BucketId
  entityType : String
  entityId : String
  op : Op
deriving DecidableEq, Repr

structure SyncRule where
  id : String
  description : Option String
  parameters : List String
  parameterQueries : HashMap String String
  dataQueries : HashMap String String

structure BucketAssignment where
  bucketId : BucketId
  ruleId : String
  parameters : HashMap String Value
  dataQueries : HashMap String String

structure TokenClaims where
  sub : String
  exp : Nat

inductive SyncError where
  | bucketAssignmentFailed (message : String)
  | lsnGap (expected actual : PgLsn)
  | checksumMismatch (expected actual : BucketChecksum)
  | protocolError (message : String)
  | authError (message : String)
  | database (error : String)
deriving DecidableEq, Repr

theorem PgLsn.le_max (l : PgLsn) : l ≤ PgLsn.max := by
  have h := l.toNat_lt
  rw [UInt64.le_iff_toNat_le]
  simp only [PgLsn.max, UInt64.reduceToNat]
  omega

theorem PgLsn.toNat_succ {l : PgLsn} (h : l < PgLsn.max) : (l + 1).toNat = l.toNat + 1 := by
  have hl : l.toNat < 2 ^ 64 - 1 := UInt64.lt_iff_toNat_lt.mp h
  rw [UInt64.toNat_add, UInt64.toNat_one]
  omega

theorem PgLsn.succ_le_iff {l m : PgLsn} (h : l < PgLsn.max) : l + 1 ≤ m ↔ l < m := by
  rw [UInt64.le_iff_toNat_le, UInt64.lt_iff_toNat_lt, PgLsn.toNat_succ h]
  omega

end EntitySync
