import XLayerReth.Lib.Duration
import XLayerReth.Lib.Digits
import XLayerReth.Lib.Table
import XLayerReth.Lib.OrdMap
import XLayerReth.Lib.Loops
import XLayerReth.Lib.Runs
import XLayerReth.Lib.PrefixCode
import XLayerReth.Lib.Broadcast
import XLayerReth.Lib.SortedList
import XLayerReth.Lib.LruCache
import XLayerReth.Lib.XorShift
import XLayerReth.Lib.Batches
import XLayerReth.RcsFilter.Primitives
import XLayerReth.RcsFilter.JsonLogic
import XLayerReth.RcsFilter.JsonLogicExact
import XLayerReth.RcsFilter.JsonLogicTrace
import XLayerReth.RcsFilter.JsonLogicFallbacks
import XLayerReth.RcsFilter.Rules
import XLayerReth.RcsFilter.Matching
import XLayerReth.RcsFilter.MatchingSpec
import XLayerReth.RcsFilter.RuleOrder
import XLayerReth.RcsFilter.BindingBudget
import XLayerReth.RcsFilter.RuleIndex
import XLayerReth.RcsFilter.EventVariables
import XLayerReth.RcsFilter.QuotaHash
import XLayerReth.RcsFilter.Pool
import XLayerReth.RcsFilter.PoolLifecycle
import XLayerReth.RcsFilter.PoolRuns
import XLayerReth.RcsFilter.Generations
import XLayerReth.RcsFilter.Submit
import XLayerReth.RcsFilter.Handle
import XLayerReth.RcsFilter.HandleSafety
import XLayerReth.RcsFilter.RuleUpdates
import XLayerReth.RcsFilter.QuotaInjective
import XLayerReth.RcsFilter.Fencing
import XLayerReth.RcsFilter.TerminalEvents
import XLayerReth.RcsFilter.RetryBackoff
import XLayerReth.RcsFilter.Config
import XLayerReth.RcsFilter.Retention
import XLayerReth.RcsFilter.RulesTask
import XLayerReth.RcsFilter.Client
import XLayerReth.RcsFilter.OverHttp
import XLayerReth.Lib.Framing
import XLayerReth.P2p.Wire
import XLayerReth.P2p.Network
import XLayerReth.Builder.Handler
import XLayerReth.Builder.Cluster
import XLayerReth.RcsFilter.QueryOrder
import XLayerReth.RcsFilter.SubmitFrame
import XLayerReth.Lib.Dependency
import XLayerReth.RcsFilter.SubmitGraph
import XLayerReth.RcsFilter.SubmitRun
import XLayerReth.RcsFilter.SubmitEvents
import XLayerReth.RcsFilter.SubmitOrder
import XLayerReth.Builder.Capture
import XLayerReth.Builder.CaptureExact
import XLayerReth.Builder.Block
import XLayerReth.Builder.ExecutionSpec
import XLayerReth.Builder.CaptureIsolation
import XLayerReth.Builder.Follower
import XLayerReth.Builder.Agreement
import XLayerReth.Builder.FollowerSound
import XLayerReth.Builder.Payload
import XLayerReth.Builder.Preconfirmation
import XLayerReth.Builder.Runs
import XLayerReth.Builder.Partition
import XLayerReth.Builder.BestTxs
import XLayerReth.Builder.Availability
import XLayerReth.Builder.LoopBudgets
import XLayerReth.Builder.BuilderTx
import XLayerReth.Builder.BatchBudgets
import XLayerReth.Builder.GasValidity
import XLayerReth.Builder.Replay
import XLayerReth.Builder.SequenceCache
import XLayerReth.Builder.Timing
import XLayerReth.Builder.TerminalDiscard
import XLayerReth.Builder.Generator
import XLayerReth.Builder.WsPublisher
import XLayerReth.LegacyRpc.Rpc
import XLayerReth.LegacyRpc.GetLogs
import XLayerReth.LegacyRpc.GetLogsRange
import XLayerReth.LegacyRpc.Routing
import XLayerReth.LegacyRpc.EthRouting
import XLayerReth.MigrateV2.Changesets
import XLayerReth.MigrateV2.Migration
import XLayerReth.MigrateV2.Rerun
import XLayerReth.AuditRpc.Audit
import XLayerReth.AuditRpc.AuditOrder
import XLayerReth.Flashblocks.Pubsub
import XLayerReth.Flashblocks.Stream
import XLayerReth.Flashblocks.Subscribe
import XLayerReth.Flashblocks.Persistence
import XLayerReth.P2p.Outgoing
import XLayerReth.P2p.Node
import XLayerReth.Tools.Export
