import Librr.Base.Transition
import Librr.Base.Acyclic
import Librr.Base.Fifo
import Librr.Base.IntrusiveQueue
import Librr.Base.Lifecycle
import Librr.Base.LittleEndian
import Librr.Types
import Librr.LogFormat
import Librr.Replay
import Librr.Wrappers
import Librr.Ring
import Librr.Scheduler
import Librr.Runtime
import Librr.SchedulerFacts
import Librr.SchedulerQueue
import Librr.RuntimeFacts
import Librr.Refinement
import Librr.Frames
import Librr.History
import Librr.Overlap
import Librr.WrapperFacts
import Librr.RingFacts
import Librr.RingMoves
import Librr.Overdue
import Librr.Erasure
import Librr.Births
import Librr.Creation
import Librr.Fifo
import Librr.Numbering
import Librr.Naming
import Librr.Logging
import Librr.ReplayFacts
import Librr.AsyncReplay
import Librr.ImmediateReplay
import Librr.Lockstep
import Librr.RecordReplay
import Librr.Wakers
import Librr.OneWaker
import Librr.Submissions
import Librr.Lifecycles
import Librr.Joins
import Librr.Deadlock
import Librr.Files
import Librr.FileRuns
import Librr.Requests
import Librr.Recorder
import Librr.ReadLoop
import Librr.RoundTrip
import Librr.ExactTrace
import Librr.Deviation
import Librr.Lone
import Librr.SignalReplay
import Librr.Base.Journal
import Librr.Startup
import Librr.StartupFacts
import Librr.Endings
import Librr.LogBounds
import Librr.Base.Copy
import Librr.ReplayBounds
import Librr.ReplayCounts
import Librr.Sleeps
import Librr.Base.Strtoul
import Librr.StackSize
import Librr.Overflow
import Librr.Base.Coop
import Librr.Tasks
import Librr.Turns
import Librr.TasksRefinement
import Librr.TaskRuns
import Librr.Base.Ledger
import Librr.Shutdown
import Librr.Accounts
import Librr.ShutdownFacts
import Librr.TornLog
import Librr.Durability
import Librr.FailureCodes
import Librr.KilledReplay
import Librr.Hermetic
import Librr.Transparency
import Librr.LossyReplay
import Librr.Levels
import Librr.RealTime
import Librr.JoinCycles
import Librr.Recordable
