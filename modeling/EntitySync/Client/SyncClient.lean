import EntitySync.Protocol.Messages

/-!
# The sync client

What `SyncClient` keeps across connections and how it handles a server frame. LSNs are JavaScript
numbers on the client, exact up to `Number.MAX_SAFE_INTEGER`; within that range `String` and
`Number` convert between them and the stored text without loss.
-/

namespace EntitySync.Client

def maxSafeInteger : PgLsn := 9007199254740991

inductive SyncStatus where
  | connecting
  | syncing (lsn : PgLsn)
  | live (lsn : PgLsn)
  | error (message : String)
  | disconnected
deriving DecidableEq

structure SyncClient where
  subscribedBuckets : List String
  lastLsn : Option PgLsn
  status : SyncStatus

namespace SyncClient

def new (buckets : List String) : SyncClient := ⟨buckets, none, .disconnected⟩

/-- The fields that `subscribe` sets before it sends a `Subscribe` or connects. -/
def subscribe (client : SyncClient) (buckets : List String) (resumeLsn : Option PgLsn) :
    SyncClient :=
  { client with subscribedBuckets := buckets, lastLsn := resumeLsn.or client.lastLsn }

def sendSubscribe (client : SyncClient) (token : String) : ClientMessage :=
  .subscribe client.subscribedBuckets token client.lastLsn protocolVersion

/-- The client after a frame, and what it answers. Batches and Deltas also go to the registered
handlers. -/
def handleMessage (client : SyncClient) : ServerMessage → SyncClient × Option ClientMessage
  | .snapshotBegin _ _ _ => ({ client with status := .syncing (client.lastLsn.getD 0) }, none)
  | .snapshotBatch _ _ _ => (client, none)
  | .snapshotComplete _ _ => ({ client with status := .live (client.lastLsn.getD 0) }, none)
  | .delta _ _ lsn => ({ client with lastLsn := some lsn, status := .live lsn }, some (.ack lsn))
  | .checkpoint lsn _ => ({ client with lastLsn := some lsn }, none)
  | .keepalive _ => (client, none)
  | .error code message =>
    ({ client with status := .error s!"sync gateway error {code}: {message}" }, none)

end SyncClient

end EntitySync.Client
