import EntitySync.Library.StepSystem
import EntitySync.Library.BigEndian
import EntitySync.Library.OrderedScan
import EntitySync.Library.Keyset
import EntitySync.Library.AssocMap
import EntitySync.Library.Checks
import EntitySync.Library.Delimited
import EntitySync.Library.Replay
import EntitySync.Library.SqlLexer
import EntitySync.Library.SqlNesting
import EntitySync.Library.SqlCondition
import EntitySync.Library.SqlSelect
import EntitySync.Library.TomlLexer
import EntitySync.Library.Merge
import EntitySync.Library.MsgPack
import EntitySync.Library.MsgPackBytes
import EntitySync.Library.MsgPackAccepted
import EntitySync.Library.Binary64
import EntitySync.Library.Slots
import EntitySync.Library.Accumulator
import EntitySync.Core.Json
import EntitySync.Core.Types
import EntitySync.Protocol.Messages
import EntitySync.Protocol.JsonCodec
import EntitySync.Protocol.Codec
import EntitySync.Protocol.Wire
import EntitySync.Config.Interpolation
import EntitySync.Oplog.Key
import EntitySync.Oplog.Store
import EntitySync.Oplog.Compaction
import EntitySync.Oplog.Partition
import EntitySync.Oplog.History
import EntitySync.Oplog.Lifetime
import EntitySync.Oplog.Envelope
import EntitySync.Oplog.Checksum
import EntitySync.Oplog.Divergence
import EntitySync.Rules.Template
import EntitySync.Rules.Substitution
import EntitySync.Rules.RuleSet
import EntitySync.Rules.Injection
import EntitySync.Rules.Assigner
import EntitySync.Rules.Cache
import EntitySync.Rules.Sweep
import EntitySync.Rules.BucketKey
import EntitySync.Rules.Resolution
import EntitySync.Rules.Leftover
import EntitySync.Rules.Statements
import EntitySync.Router.Router
import EntitySync.Router.Server
import EntitySync.Router.Pipeline
import EntitySync.Router.FanOut
import EntitySync.Router.Progress
import EntitySync.Router.Matching
import EntitySync.Router.Completeness
import EntitySync.Router.Multiplicity
import EntitySync.Router.KeyLength
import EntitySync.Gateway.Session
import EntitySync.Gateway.Delivery
import EntitySync.Gateway.ExactlyOnce
import EntitySync.Gateway.Acks
import EntitySync.Gateway.Auth
import EntitySync.Gateway.KeySet
import EntitySync.Gateway.Connection
import EntitySync.Gateway.Overflow
import EntitySync.Gateway.Conformance
import EntitySync.Gateway.Reports
import EntitySync.Gateway.Confinement
import EntitySync.Gateway.Write
import EntitySync.Gateway.Redaction
import EntitySync.Gateway.WriteScope
import EntitySync.Gateway.WriteVerdict
import EntitySync.Gateway.CrdtMerge
import EntitySync.Gateway.Gaps
import EntitySync.Gateway.Server
import EntitySync.Gateway.Shutdown
import EntitySync.Snapshot.Stream
import EntitySync.Snapshot.RowChecksum
import EntitySync.Gateway.SnapshotFrames
import EntitySync.Snapshot.Paging
import EntitySync.Snapshot.Cursor
import EntitySync.Snapshot.Wrapping
import EntitySync.Client.SyncClient
import EntitySync.Client.Codec
import EntitySync.Client.Lifecycle
import EntitySync.Client.Recovery
import EntitySync.Client.TokenRefresh
import EntitySync.Client.Backoff
import EntitySync.Client.LocalDb
import EntitySync.Client.Redelivery
import EntitySync.Client.Consumer
import EntitySync.Client.SnapshotRows
import EntitySync.Client.Filter
import EntitySync.Client.ListQuery
import EntitySync.Client.ListPaging
import EntitySync.Client.ChangeFeed
import EntitySync.System.Replica
import EntitySync.System.Membership
import EntitySync.System.Resume
import EntitySync.System.Handoff
import EntitySync.System.Reconnect
import EntitySync.System.Resubscribe
import EntitySync.System.Fleet
import EntitySync.System.LiveDelivery
import EntitySync.System.Sockets
