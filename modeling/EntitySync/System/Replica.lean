import EntitySync.Core.Types
import EntitySync.Library.Replay

/-!
# Replicas

The rows a client holds after applying ops in order.
-/

namespace EntitySync.System

open Json (Value)

abbrev RowKey := String × String

/-- What replaying an op does to its row; the router appends no CRDT patches. -/
def opWrite (op : BucketOp) : Option (RowKey × Option Value) :=
  match op.op with
  | .upsert row => some ((op.entityType, op.entityId), some row)
  | .delete => some ((op.entityType, op.entityId), none)
  | .crdtPatch _ => none

def replayOps (ops : List BucketOp) : RowKey → Option Value :=
  Replay.replay (fun _ => none) (ops.filterMap opWrite)

end EntitySync.System
