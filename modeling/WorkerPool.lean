import WorkerPool.Queue.Trial
import WorkerPool.Script.Report
import WorkerPool.Workload
import WorkerPool.Proofs.Operations
import WorkerPool.Proofs.ExactlyOnce
import WorkerPool.Proofs.Holdings
import WorkerPool.Proofs.Wakeups
import WorkerPool.Proofs.Workers
import WorkerPool.Proofs.Shutdown
import WorkerPool.Proofs.QueueHistory
import WorkerPool.Proofs.NewestFirst
import WorkerPool.Proofs.Growth
import WorkerPool.Proofs.Endings
import WorkerPool.Proofs.Lockstep.Pool
import WorkerPool.Proofs.Lockstep.System
import WorkerPool.Proofs.Lockstep.Moves
import WorkerPool.Proofs.Lockstep.Session
import WorkerPool.Proofs.AtRest
import WorkerPool.Proofs.Failures
import WorkerPool.Proofs.NoTrace
import WorkerPool.Proofs.Draining
import WorkerPool.Proofs.Dropping
import WorkerPool.Proofs.SettlingBounds
import WorkerPool.Proofs.LogAccount
import WorkerPool.Proofs.SideBySide
import WorkerPool.Proofs.Containment.Pool
import WorkerPool.Proofs.Containment.System
import WorkerPool.Proofs.Containment.Moves
import WorkerPool.Proofs.Containment.Session
import WorkerPool.Proofs.Confluence.Joins
import WorkerPool.Proofs.Confluence.Renamed
import WorkerPool.Proofs.QueueMisuse
import WorkerPool.Proofs.Marks
import WorkerPool.Proofs.Releases
import WorkerPool.Proofs.Confluence.Session
import WorkerPool.Proofs.Deferral.Pool
import WorkerPool.Proofs.Deferral.System
import WorkerPool.Proofs.Deferral.Session
import WorkerPool.Proofs.Workloads
