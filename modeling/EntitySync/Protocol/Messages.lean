import EntitySync.Core.Types

/-!
# PSyncV1 messages
-/

namespace EntitySync

open Json (Value)

def protocolVersion : UInt8 := 1

inductive ServerMessage where
  | snapshotBegin (bucketId : BucketId) (totalRows : UInt64) (protocolVersion : UInt8)
  | snapshotBatch (bucketId : BucketId) (rows : List Value) (offset : UInt64)
  | snapshotComplete (bucketId : BucketId) (checksum : BucketChecksum)
  | delta (bucketId : BucketId) (ops : List BucketOp) (lsn : PgLsn)
  | checkpoint (lsn : PgLsn) (bucketChecksums : HashMap BucketId BucketChecksum)
  | keepalive (serverTimeMs : UInt64)
  | error (code : UInt16) (message : String)
deriving DecidableEq

inductive ClientMessage where
  | subscribe (buckets : List String) (token : String) (resumeLsn : Option PgLsn)
      (protocolVersion : UInt8)
  | ack (lsn : PgLsn)
  | write (entityType entityId : String) (op : Op)
  | ping
deriving DecidableEq

end EntitySync
