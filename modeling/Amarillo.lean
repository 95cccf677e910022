import Amarillo.Core.Batch
import Amarillo.Core.Brackets
import Amarillo.Core.Decimal
import Amarillo.Core.Grouping
import Amarillo.Core.History
import Amarillo.Core.Inevitable
import Amarillo.Core.Interleave
import Amarillo.Core.Ip
import Amarillo.Core.Keyed
import Amarillo.Core.LTS
import Amarillo.Core.Num
import Amarillo.Core.Numeric
import Amarillo.Core.Paging
import Amarillo.Core.Pool
import Amarillo.Core.Rose
import Amarillo.Core.Sql
import Amarillo.Core.Tally
import Amarillo.Core.Text
import Amarillo.L1Decoder.AbiValue
import Amarillo.L1Decoder.Classifier
import Amarillo.L1Decoder.Events
import Amarillo.L1Decoder.Flatten
import Amarillo.L1Decoder.Keywords
import Amarillo.L1Decoder.RevertReason
import Amarillo.L1Decoder.Trace
import Amarillo.L2Db.Analysis
import Amarillo.L2Db.ByLabel
import Amarillo.L2Db.DailyVolume
import Amarillo.L2Db.Labels
import Amarillo.L2Db.Lists
import Amarillo.L2Db.LocalNames
import Amarillo.L2Db.PoolStats
import Amarillo.L2Db.Queries
import Amarillo.L2Db.References
import Amarillo.L2Db.Rollback
import Amarillo.L2Db.Schema
import Amarillo.L2Db.Trends
import Amarillo.L2Db.Validators
import Amarillo.L3Indexer.Accepted
import Amarillo.L3Indexer.Canonical
import Amarillo.L3Indexer.CatchUp
import Amarillo.L3Indexer.Categories
import Amarillo.L3Indexer.Chunks
import Amarillo.L3Indexer.Columns
import Amarillo.L3Indexer.Completeness
import Amarillo.L3Indexer.Coverage
import Amarillo.L3Indexer.Cycles
import Amarillo.L3Indexer.Derived
import Amarillo.L3Indexer.FailedStub
import Amarillo.L3Indexer.FixedRange
import Amarillo.L3Indexer.Follow
import Amarillo.L3Indexer.Fork
import Amarillo.L3Indexer.ForkScan
import Amarillo.L3Indexer.Hashes
import Amarillo.L3Indexer.Linkage
import Amarillo.L3Indexer.Network
import Amarillo.L3Indexer.Order
import Amarillo.L3Indexer.ProcessBlock
import Amarillo.L3Indexer.Profiles
import Amarillo.L3Indexer.Progress
import Amarillo.L3Indexer.Reindex
import Amarillo.L3Indexer.Repair
import Amarillo.L3Indexer.Replay
import Amarillo.L3Indexer.RootCause
import Amarillo.L3Indexer.Snapshot
import Amarillo.L3Indexer.SwapDirection
import Amarillo.L3Indexer.TraceNumbers
import Amarillo.L3Indexer.Trigger
import Amarillo.L4Alerts.Attempts
import Amarillo.L4Alerts.Counters
import Amarillo.L4Alerts.Debounce
import Amarillo.L4Alerts.Dispatch
import Amarillo.L4Alerts.Dispatcher
import Amarillo.L4Alerts.Fairness
import Amarillo.L4Alerts.Lease
import Amarillo.L4Alerts.Ledger
import Amarillo.L4Alerts.Provenance
import Amarillo.L4Alerts.Rate
import Amarillo.L4Alerts.Recovery
import Amarillo.L4Alerts.Redaction
import Amarillo.L4Alerts.Rotation
import Amarillo.L4Alerts.Signature
import Amarillo.L4Alerts.Webhook
import Amarillo.L5Api.AbiArgs
import Amarillo.L5Api.AlertRoutes
import Amarillo.L5Api.Auth
import Amarillo.L5Api.FailedTxDetail
import Amarillo.L5Api.LabelRoutes
import Amarillo.L5Api.ListRoutes
import Amarillo.L5Api.Secrets
import Amarillo.L5Api.Server
import Amarillo.L5Api.VolumeRoutes
import Amarillo.L6Tui.App
import Amarillo.L6Tui.Detail
import Amarillo.L6Tui.Paging
import Amarillo.L6Tui.Selection
import Amarillo.L6Tui.Wire
