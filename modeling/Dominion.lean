import Dominion.Framework.RelyGuarantee
import Dominion.Framework.Counting
import Dominion.Framework.Fallible
import Dominion.Config.DeepMerge
import Dominion.Deploy.App.Daemon
import Dominion.Deploy.Domain.Spec
import Dominion.Deploy.Domain.Environment
import Dominion.Deploy.Calls
import Dominion.Deploy.Service.Command
import Dominion.Deploy.Service.Reconcile
import Dominion.Deploy.Worker
import Dominion.Deploy.Storage.Documents
import Dominion.Framework.Base64
import Dominion.Deploy.Storage.Listing
import Dominion.Deploy.System.World
import Dominion.Deploy.System.Effect
import Dominion.Deploy.System.Invariant
import Dominion.Deploy.System.Contract
import Dominion.Deploy.System.Frame
import Dominion.Deploy.System.CommandOutline
import Dominion.Deploy.System.WorkerOutline
import Dominion.Deploy.System.ReconcileOutline
import Dominion.Deploy.System.Sound
import Dominion.Deploy.System.Locking
import Dominion.Deploy.System.Lifecycle
import Dominion.Deploy.System.Applied
import Dominion.Deploy.System.Deletion
import Dominion.Deploy.System.Continuation
import Dominion.Saolei.Flow
import Dominion.Saolei.Member
import Dominion.Saolei.Ledger
import Dominion.Saolei.Orchestrator
import Dominion.Saolei.Driving
import Dominion.Saolei.Cancel
import Dominion.Saolei.Wakes
import Dominion.Saolei.Records
import Dominion.Framework.Sha256
import Dominion.Framework.Text
import Dominion.Deploy.K8s.Config
import Dominion.Deploy.K8s.Converter
import Dominion.Deploy.K8s.Labels
import Dominion.Deploy.K8s.Objects
import Dominion.Deploy.K8s.Builder
import Dominion.Deploy.K8s.InfraBuilder
import Dominion.Deploy.K8s.Cluster
import Dominion.Deploy.K8s.Executor
import Dominion.Deploy.K8s.Effects
import Dominion.Deploy.K8s.Ownership
import Dominion.Deploy.K8s.Prune
import Dominion.Deploy.K8s.Services
import Dominion.Deploy.K8s.Converge
import Dominion.Team.Broadcast
import Dominion.Team.Team
import Dominion.Team.Drain
import Dominion.Team.FailingDrain
import Dominion.Memory.Operations
import Dominion.Memory.Truth
import Dominion.Memory.BatchRefinement
import Dominion.Memory.Wiki
import Dominion.Memory.WikiUpdate
import Dominion.Memory.WikiOperations
import Dominion.Memory.WikiSearch
import Dominion.Memory.WikiTitles
import Dominion.Memory.WikiPages
import Dominion.Memory.ListingPages
import Dominion.Game.Board
import Dominion.Game.Text
import Dominion.Game.Runtime
import Dominion.Game.Accounts
import Dominion.Game.Batch
import Dominion.Game.Recognition
import Dominion.Game.Counter
import Dominion.Game.ReadBack
import Dominion.Framework.Ownership
import Dominion.Framework.Pages
import Dominion.Framework.Keyset
import Dominion.Saolei.Materialize
import Dominion.Saolei.LeakFree
import Dominion.Chat.History
import Dominion.Chat.Collector
import Dominion.Chat.MemberFrames
import Dominion.Chat.InterruptedPrefix
import Dominion.Chat.Settlement
import Dominion.Desktop.Bridge
import Dominion.Desktop.Settlement
import Dominion.Desktop.Heartbeats
import Dominion.Desktop.App
import Dominion.Desktop.DebugHolds
import Dominion.Desktop.Overlaps
import Dominion.Desktop.Readers
import Dominion.Desktop.Handover
import Dominion.Desktop.Undisturbed
import Dominion.Llm.Chunks
import Dominion.Llm.GlmWire
import Dominion.Llm.GlmProtocol
import Dominion.Llm.GlmTranslation
import Dominion.Llm.Adapter
import Dominion.Llm.OpencodeWire
import Dominion.Framework.Transducer
import Dominion.Llm.Grouping
import Dominion.Llm.OpencodeTranslation
import Dominion.Llm.OneTerminal
import Dominion.Sessions.Service
import Dominion.Sessions.NameMap
import Dominion.Proxy.Owners
import Dominion.Bootstrap.Daemon
import Dominion.Bootstrap.Lifecycle
import Dominion.Proxy.Connections
import Dominion.Release.Config
import Dominion.Release.Compiler
import Dominion.Framework.Locations
import Dominion.Release.References
import Dominion.Framework.Keyed
import Dominion.Web.ChatStore
import Dominion.Web.Drafts
import Dominion.Web.Frames
import Dominion.Web.StoreInvariants
import Dominion.Web.SingleStream
import Dominion.Framework.Commuting
import Dominion.Web.Views
import Dominion.Web.Reordering
import Dominion.Web.Texts
import Dominion.Web.Scripts
import Dominion.Web.Repeats
import Dominion.Web.Ownership
import Dominion.Web.Streams
import Dominion.Web.Delivery
import Dominion.Web.Fanout
import Dominion.Web.QueueChips
import Dominion.Release.Routes
import Dominion.Framework.Files
import Dominion.Release.ReleaseManifest
import Dominion.Release.Staging
import Dominion.Release.Publish
import Dominion.Release.Passes
import Dominion.Release.Published
import Dominion.Framework.LastMax
import Dominion.Deploy.Domain.Conflicts
import Dominion.Deploy.System.Bookkeeping
import Dominion.Deploy.K8s.Collisions
import Dominion.Deploy.K8s.Endpoints
import Dominion.Deploy.K8s.StatefulEndpoints
import Dominion.Solver.Target
import Dominion.Solver.Resolvers
import Dominion.Solver.Agreement
import Dominion.Solver.StatefulInstances
import Dominion.Solver.Decimal
import Dominion.Solver.TargetText
import Dominion.Grpc.Resolver
import Dominion.Grpc.Publication
import Dominion.Sts2.Custody
import Dominion.Sts2.Orchestrator
import Dominion.Sts2.LeakFree
import Dominion.Framework.Projection
import Dominion.Presets.Derivation
import Dominion.Presets.Authoring
import Dominion.Presets.Refinement
import Dominion.Presets.Turns
import Dominion.Framework.Utf8
import Dominion.Web.Ndjson
import Dominion.Saolei.Hooks
import Dominion.Saolei.HookProgramme
import Dominion.Grpc.Polling
import Dominion.Framework.Exchange
import Dominion.Framework.Substrings
import Dominion.Release.Command
import Dominion.Guitar.Plan
import Dominion.Guitar.Run
import Dominion.Llm.Requests
import Dominion.Llm.Replay
