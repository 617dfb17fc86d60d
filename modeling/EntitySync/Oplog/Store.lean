import EntitySync.Oplog.Key
import EntitySync.Library.OrderedScan

/-!
# The op log over redb

`BucketOpLog` keeps two redb tables, which are maps ordered lexicographically by key bytes. A
write transaction is atomic, so each operation below is one step from the tables before it to
the tables after it. `rmp_serde` enters through `Codec`, with the round trip of the stored
envelope as its law.
-/

namespace EntitySync.Oplog

open Std (TreeMap)

abbrev Bytes := List UInt8

structure StoredOp where
  op : BucketOp
  appendedAtUnixSecs : UInt64
deriving DecidableEq, Repr

/-- `rmp_serde::to_vec` and `rmp_serde::from_slice` on the stored envelope. -/
structure Codec where
  toVec : StoredOp → Bytes
  fromSlice : Bytes → Except String StoredOp
  fromSlice_toVec : ∀ stored, fromSlice (toVec stored) = .ok stored

inductive OpLogError where
  | codec (message : String)
deriving DecidableEq, Repr

/-- `From<OpLogError> for SyncError`. -/
def OpLogError.toSyncError : OpLogError → SyncError
  | .codec message => .protocolError ("MessagePack (de)serialization error: " ++ message)

structure Duration where
  secs : UInt64
  subsecNanos : UInt32
deriving DecidableEq, Repr

def Duration.nanos (d : Duration) : Nat := d.secs.toNat * 1000000000 + d.subsecNanos.toNat

/-- `std::time::SystemTime` as nanoseconds since the epoch; its seconds are an `i64`. -/
structure SystemTime where
  nanos : Int
  fits : nanos < 2 ^ 63 * 1000000000

/-- `unix_now_secs` at a time; times before the epoch read as 0. -/
def unixNowSecs (t : SystemTime) : UInt64 :=
  if t.nanos < 0 then 0 else UInt64.ofNat (t.nanos.toNat / 1000000000)

structure BucketOpLog where
  bucketOps : TreeMap Bytes Bytes
  bucketChecksums : TreeMap Bytes BucketChecksum
  compactionTtl : Duration

/-- `BucketOpLog::open` on a file without tables. -/
def BucketOpLog.empty (compactionTtl : Duration) : BucketOpLog where
  bucketOps := ∅
  bucketChecksums := ∅
  compactionTtl := compactionTtl

def fnvPrime : UInt64 := 0x100000001b3

/-- `fold_checksum`: an FNV-1a fold started from the previous checksum. -/
def foldChecksum (prev : BucketChecksum) (payload : Bytes) : BucketChecksum :=
  payload.foldl (fun hash byte => (hash ^^^ byte.toUInt64) * fnvPrime)
    (prev ^^^ 0xcbf29ce484222325)

def saturatingSub (a b : UInt64) : UInt64 := if a ≤ b then 0 else a - b

namespace BucketOpLog

variable (codec : Codec)

def append (log : BucketOpLog) (now : UInt64) (b : BucketId) (lsn : PgLsn) (op : BucketOp) :
    BucketOpLog :=
  let payload := codec.toVec ⟨op, now⟩
  let prev := log.bucketChecksums[idBytes b]?.getD 0
  { log with
    bucketOps := log.bucketOps.insert (makeKey b lsn) payload
    bucketChecksums := log.bucketChecksums.insert (idBytes b) (foldChecksum prev payload) }

def decodeEntries : List (Bytes × Bytes) → Except OpLogError (List BucketOp)
  | [] => .ok []
  | (key, value) :: entries =>
    if (lsnFromKey key).isNone then decodeEntries entries
    else
      match codec.fromSlice value with
      | .error e => .error (.codec e)
      | .ok stored => (decodeEntries entries).map (stored.op :: ·)

def drainSince (log : BucketOpLog) (b : BucketId) (fromLsn : PgLsn) :
    Except OpLogError (List BucketOp) :=
  decodeEntries codec
    (OrderedScan.range log.bucketOps (makeRangeStart b fromLsn) (makeBucketRangeEnd b))

def checksum (log : BucketOpLog) (b : BucketId) : BucketChecksum :=
  log.bucketChecksums[idBytes b]?.getD 0

/-- The keys of the entries appended before `cutoff`; any undecodable value fails the scan. -/
def expiredKeys (cutoff : UInt64) : List (Bytes × Bytes) → Except OpLogError (List Bytes)
  | [] => .ok []
  | (key, value) :: entries =>
    match codec.fromSlice value with
    | .error e => .error (.codec e)
    | .ok stored =>
      (expiredKeys cutoff entries).map fun keys =>
        if stored.appendedAtUnixSecs < cutoff then key :: keys else keys

def compactionCutoff (log : BucketOpLog) (now : UInt64) : UInt64 :=
  saturatingSub now log.compactionTtl.secs

/-- `compact`: the number of removed entries and the log after the transaction. A failed scan
drops the transaction. -/
def compact (log : BucketOpLog) (now : UInt64) : Except OpLogError UInt64 × BucketOpLog :=
  match expiredKeys codec (log.compactionCutoff now) log.bucketOps.toList with
  | .error e => (.error e, log)
  | .ok keys =>
    (.ok (UInt64.ofNat keys.length),
      { log with bucketOps := keys.foldl (fun table key => table.erase key) log.bucketOps })

end BucketOpLog

end EntitySync.Oplog
