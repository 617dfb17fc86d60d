import EntitySync.Oplog.Envelope
import EntitySync.Oplog.History

/-!
# Bucket checksums

The running checksum of a bucket folds the stored envelopes of all appends to it. It does not see
other buckets or compactions, but an envelope holds the second of its append.
-/

namespace EntitySync.Oplog

open MsgPack (FloatLayout)

/-- The envelopes appended to a bucket, in order. -/
def envelopes (b : BucketId) (history : List Transaction) : List (PgLsn × StoredOp) :=
  committed b (history.map Transaction.toStep)

def appendedOps (b : BucketId) (history : List Transaction) : List (PgLsn × BucketOp) :=
  (envelopes b history).map fun e => (e.1, e.2.op)

def appendSeconds (b : BucketId) (history : List Transaction) : List UInt64 :=
  (envelopes b history).map fun e => e.2.appendedAtUnixSecs

variable (codec : Codec)

theorem checksum_execute (ttl : Duration) (history : List Transaction) (b : BucketId) :
    (execute codec (BucketOpLog.empty ttl) history).checksum b =
      (envelopes b history).foldl (fun sum e => foldChecksum sum (codec.toVec e.2)) 0 := by
  rw [execute, checksum_run, payloads, ← envelopes, List.foldl_map]
  rfl

theorem envelopes_eq_zipWith (b : BucketId) (history : List Transaction) :
    envelopes b history = List.zipWith (fun e now => (e.1, ⟨e.2, now⟩))
      (appendedOps b history) (appendSeconds b history) := by
  rw [appendedOps, appendSeconds, List.zipWith_map, List.zipWith_self, List.map_id']

/-- Two runs that append the same ops to a bucket, each in the same second, have the same checksum
for it, whatever they append to other buckets and whenever they compact. -/
theorem checksum_eq_of_same_seconds (ttl ttl' : Duration) {history history' : List Transaction}
    {b : BucketId} (hops : appendedOps b history = appendedOps b history')
    (hseconds : appendSeconds b history = appendSeconds b history') :
    (execute codec (BucketOpLog.empty ttl) history).checksum b =
      (execute codec (BucketOpLog.empty ttl') history').checksum b := by
  rw [checksum_execute, checksum_execute, envelopes_eq_zipWith b history, hops, hseconds,
    ← envelopes_eq_zipWith]

private def deletion : BucketOp := ⟨1, ⟨"b"⟩, "e", "a", .delete⟩

/-- The envelope `[[1, "b", "e", "a", "Delete"], now]`, for a second below 128. -/
private def deletionBytes (now : UInt8) : Bytes :=
  [0x92, 0x95, 1, 0xa1, 0x62, 0xa1, 0x65, 0xa1, 0x61,
    0xa6, 0x44, 0x65, 0x6c, 0x65, 0x74, 0x65, now]

private theorem storable_deletion : Storable FloatLayout.plain deletion :=
  storable_of_fits trivial (MsgPack.fits_str (by decide)) (MsgPack.fits_str (by decide))
    (MsgPack.fits_str (by decide)) (MsgPack.fits_str (by decide))

private def bucketB : StoreId := ⟨⟨"b"⟩, by decide⟩

private def bucketC : StoreId := ⟨⟨"c"⟩, by decide⟩

theorem checksum_eq_of_same_seconds_compacted :
    (execute (.msgPack .plain) (BucketOpLog.empty ⟨1, 0⟩)
        [.append bucketB 1 deletion 7]).checksum ⟨"b"⟩ =
      (execute (.msgPack .plain) (BucketOpLog.empty ⟨1, 0⟩)
        [.append bucketC 5 deletion 3, .append bucketB 1 deletion 7, .compact 9]).checksum ⟨"b"⟩ :=
  checksum_eq_of_same_seconds _ _ _ rfl rfl

/-- The same op at the same LSN, appended in two different seconds. -/
theorem checksum_depends_on_second :
    ∃ codec : Codec, appendedOps ⟨"b"⟩ [.append bucketB 1 deletion 0] =
        appendedOps ⟨"b"⟩ [.append bucketB 1 deletion 1] ∧
      codec.toVec ⟨deletion, 0⟩ = deletionBytes 0 ∧ codec.toVec ⟨deletion, 1⟩ = deletionBytes 1 ∧
      (execute codec (BucketOpLog.empty ⟨1, 0⟩) [.append bucketB 1 deletion 0]).checksum ⟨"b"⟩ ≠
        (execute codec (BucketOpLog.empty ⟨1, 0⟩)
          [.append bucketB 1 deletion 1]).checksum ⟨"b"⟩ := by
  have hbytes (now : UInt64) : (Codec.msgPack .plain).toVec ⟨deletion, now⟩ =
      (StoredOp.write ⟨deletion, now⟩).bytes .plain :=
    Codec.compact_msgPack .plain _ storable_deletion
  refine ⟨.msgPack .plain, rfl, hbytes 0, hbytes 1, ?_⟩
  rw [checksum_execute, checksum_execute]
  show foldChecksum 0 _ ≠ foldChecksum 0 _
  rw [hbytes, hbytes]
  decide

end EntitySync.Oplog
