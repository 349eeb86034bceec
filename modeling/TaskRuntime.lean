import TaskRuntime.Bytes
import TaskRuntime.Config
import TaskRuntime.Config.Loading
import TaskRuntime.Config.Reader
import TaskRuntime.Config.Settings
import TaskRuntime.Config.Value
import TaskRuntime.Decimal.Shortest
import TaskRuntime.DelayServer.CommandLine
import TaskRuntime.DelayServer.Connection
import TaskRuntime.DelayServer.Target
import TaskRuntime.Demo.Fetch
import TaskRuntime.Demo.Options
import TaskRuntime.Demo.Program
import TaskRuntime.Errno
import TaskRuntime.Executor
import TaskRuntime.Executor.Act
import TaskRuntime.Executor.Loop
import TaskRuntime.Failure
import TaskRuntime.Future
import TaskRuntime.Kernel
import TaskRuntime.Kernel.Event
import TaskRuntime.Kernel.Host
import TaskRuntime.Kernel.Pipes
import TaskRuntime.Kernel.Poller
import TaskRuntime.Kernel.Sending
import TaskRuntime.Kernel.Session
import TaskRuntime.Kernel.System
import TaskRuntime.Library
import TaskRuntime.Log
import TaskRuntime.Log.Session
import TaskRuntime.Main
import TaskRuntime.Net.Environment
import TaskRuntime.Net.Exchange
import TaskRuntime.Net.Get
import TaskRuntime.Net.ReadToEnd
import TaskRuntime.Net.Request
import TaskRuntime.Net.Session
import TaskRuntime.Numeral
import TaskRuntime.Reactor
import TaskRuntime.Reactor.Session
import TaskRuntime.Table
import TaskRuntime.Task
import TaskRuntime.Task.Behaviour
import TaskRuntime.Task.Feeding
import TaskRuntime.Task.Serving
import TaskRuntime.Task.Stage
import TaskRuntime.Task.Value
import TaskRuntime.Threads
import TaskRuntime.Threads.Batch
import TaskRuntime.Threads.Lifecycle
import TaskRuntime.Threads.Session
import TaskRuntime.Wake
import TaskRuntime.Wake.Parker
import TaskRuntime.Wake.ReadyQueue
import TaskRuntime.Wake.Session
import TaskRuntime.Proofs.History
import TaskRuntime.Proofs.Interleaving
import TaskRuntime.Proofs.Moves
import TaskRuntime.Proofs.Lives
import TaskRuntime.Proofs.Alone
import TaskRuntime.Proofs.NoLostWake
import TaskRuntime.Proofs.Parking
import TaskRuntime.Proofs.Nesting
import TaskRuntime.Proofs.Ids
import TaskRuntime.Proofs.Phases
import TaskRuntime.Proofs.Propagation
import TaskRuntime.Proofs.Completion
import TaskRuntime.Proofs.Replay
import TaskRuntime.Proofs.Figures
import TaskRuntime.Proofs.Places
import TaskRuntime.Proofs.Conservation
import TaskRuntime.Proofs.ReactorFailure
import TaskRuntime.Proofs.DeadReactor
import TaskRuntime.Proofs.EdgeRule
import TaskRuntime.Proofs.DuringPoll
import TaskRuntime.Proofs.Reader
import TaskRuntime.Proofs.Armed
import TaskRuntime.Proofs.Scene
import TaskRuntime.Proofs.HostEdges
import TaskRuntime.Proofs.NoStuckRead
import TaskRuntime.Proofs.Likeness
import TaskRuntime.Proofs.LikeSites
import TaskRuntime.Proofs.LikeRuns
import TaskRuntime.Proofs.Failing
import TaskRuntime.Proofs.Resumption
import TaskRuntime.Proofs.LeafContract
import TaskRuntime.Proofs.Lineage
import TaskRuntime.Proofs.Fleet
import TaskRuntime.Proofs.Obligations
import TaskRuntime.Proofs.Trees
import TaskRuntime.Proofs.Grove
import TaskRuntime.Proofs.Akin
import TaskRuntime.Proofs.Noise
import TaskRuntime.Proofs.Observed
import TaskRuntime.Proofs.Notifier
import TaskRuntime.Proofs.Stopping
import TaskRuntime.Proofs.Steadiness
import TaskRuntime.Proofs.Quarters
import TaskRuntime.Proofs.Tenants
import TaskRuntime.Proofs.Answered
import TaskRuntime.Proofs.LateLines
import TaskRuntime.Proofs.WholeStream
import TaskRuntime.Proofs.Dispatching
import TaskRuntime.Proofs.Batching
import TaskRuntime.Proofs.DepthFirst
import TaskRuntime.Proofs.QueueHistory
import TaskRuntime.Proofs.Matching
import TaskRuntime.Proofs.Association
import TaskRuntime.Proofs.Watching
import TaskRuntime.Proofs.Releasing
import TaskRuntime.Proofs.Trailing
import TaskRuntime.Proofs.Exchange
import TaskRuntime.Proofs.ExchangedCalls
import TaskRuntime.Proofs.Courses
import TaskRuntime.Proofs.ExchangedRuns
import TaskRuntime.Proofs.Shown
import TaskRuntime.Proofs.PathUpdates
import TaskRuntime.Proofs.Sizes
import TaskRuntime.Proofs.Tales
import TaskRuntime.Proofs.Recital
import TaskRuntime.Proofs.Transparency
import TaskRuntime.Proofs.Numerals
import TaskRuntime.Proofs.Targets
import TaskRuntime.Proofs.CommandLines
import TaskRuntime.Proofs.Delays
import TaskRuntime.Proofs.Sockets
import TaskRuntime.Proofs.Tokens
import TaskRuntime.Proofs.Cloakroom
