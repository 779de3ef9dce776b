/-
# Pools

A `Pool` has a lock, and everything that happens to its records, its workers and its counters
happens in sections under that lock; a function `Pool → Pool` in these modules is one such
section.  Only the bodies of tasks run outside.  The type holds

* the records (`queue`) and the results that bodies left for them;
* the workers ever started, by index, and where each of them is (`Phase`);
* the two counters that a submission looks at: `threads`, the workers that have not left,
  and `busy`, those of them that are not parked;
* what a pool looks like to its owner (`Standing`), its journal, and the internal checks that
  failed (`faults`: none ever does).
-/
import WorkerPool.Body
import WorkerPool.Journal
import WorkerPool.Settings
import WorkerPool.Queue.Basic

namespace WorkerPool

/-- The work of a record: run the body of a task. -/
structure Job where
  task : Nat
deriving DecidableEq, Repr

/-- Where a worker is in the body that it runs. -/
inductive Stage where
  /-- The record is claimed, the body has not begun. -/
  | entering
  /-- Run number `run` waits at its gate. -/
  | atGate (run : Nat)
  /-- Run number `run` has its gate, if any, behind it. -/
  | past (run : Nat)
  /-- The body has ended; the record is still running. -/
  | over
deriving DecidableEq, Repr

/-- Where a worker is. -/
inductive Phase where
  /-- Started, and about to look for work for the first time. -/
  | starting
  /-- Waiting for work; `notified` if it was told to look again. -/
  | parked (notified : Bool)
  /-- Running the job of the record named by `ticket`. -/
  | executing (ticket : Ticket) (job : Job) (stage : Stage)
  /-- Out of its loop. -/
  | exited
deriving DecidableEq, Repr

/-- A parked worker is told to look for work; others need not be told. -/
def Phase.notify : Phase → Phase
  | parked _ => parked true
  | phase => phase

/-- Whether the worker runs a body that no gate holds up. -/
def Phase.isUnderWay : Phase → Bool
  | executing _ _ (.atGate _) => false
  | executing _ _ _ => true
  | _ => false

/-- Whether the worker is about to look for work. -/
def Phase.isLooking : Phase → Bool
  | starting => true
  | parked notified => notified
  | _ => false

/-- The task and the run number, if the worker is held up at a gate. -/
def Phase.blockedRun? : Phase → Option (Nat × Nat)
  | executing _ job (.atGate run) => some (job.task, run)
  | _ => none

/-- What a pool is to its owner. -/
inductive Standing where
  | active
  /-- A shutdown waits for the workers to leave; `notified` if it was told to look again. -/
  | stopping (notified : Bool)
  /-- A shutdown has succeeded. -/
  | stopped
  /-- The owner dropped it without a shutdown. -/
  | dropped
deriving DecidableEq, Repr

/-- A shutdown that waits is told to look again. -/
def Standing.notify : Standing → Standing
  | stopping _ => stopping true
  | standing => standing

/-- An internal check that failed. -/
inductive Fault where
  | queue (f : QueueFault)
  /-- A second result for one submission. -/
  | resultWrittenTwice
deriving DecidableEq, Repr

/-- A pool, with results of type `Value α`. -/
structure Pool (α : Type) where
  id : String
  plan : Plan
  standing : Standing
  threads : Nat
  busy : Nat
  queue : Queue Arena Job
  /-- The workers ever started, by index. -/
  workers : List Phase
  /-- The results that bodies have given, by submission number. -/
  results : Std.ExtTreeMap Nat (Value α)
  /-- What was noted, newest first. -/
  journal : List PoolNote
  faults : List Fault

namespace Pool

variable {α : Type}

/-- A new pool; no worker is started before the first submission. -/
def create (id : String) (plan : Plan) : Pool α where
  id
  plan
  standing := .active
  threads := 0
  busy := 0
  queue := .empty plan.limit
  workers := []
  results := ∅
  journal := []
  faults := []

/-! ## 1. Looking -/

/-- Whether the owner can still use the pool.  Workers of a pool that is not active leave when
they find nothing to run. -/
def isActive (p : Pool α) : Bool := p.standing == .active

/-- The counters that an observer sees. -/
def counts (p : Pool α) : PoolCounts := ⟨p.threads, p.busy, p.queue.size⟩

/-- The form of a pool for a debugger. -/
def describe (p : Pool α) : String :=
  "ThreadPool \x7b name: " ++ Text.quote p.plan.name ++ ", capacity: " ++ toString p.plan.capacity
    ++ ", threads: " ++ toString p.threads ++ ", .. \x7d"

/-- The name of a worker. -/
def workerName (p : Pool α) (worker : Nat) : String :=
  p.plan.name ++ "-worker-" ++ toString worker

/-- What a finished submission answers: its result, or that its body left none. -/
def outcome (p : Pool α) (ticket : Ticket) : Except Failure (Value α) :=
  match p.results[ticket.number]? with
  | some v => .ok v
  | none => .error .taskPanicked

/-- The runs of task `task` that wait at a gate of this pool. -/
def blockedRuns (p : Pool α) (task : Nat) : List Nat :=
  p.workers.filterMap fun phase =>
    match phase.blockedRun? with
    | some (t, run) => if t = task then some run else none
    | none => none

/-! ## 2. Small changes -/

/-- Notes `n`. -/
def note (p : Pool α) (n : PoolNote) : Pool α := { p with journal := n :: p.journal }

/-- Records that an internal check failed. -/
def fault (p : Pool α) (f : Fault) : Pool α := { p with faults := f :: p.faults }

/-- Moves a worker to a phase. -/
def setPhase (p : Pool α) (worker : Nat) (phase : Phase) : Pool α :=
  { p with workers := p.workers.set worker phase }

/-- Tells every parked worker to look for work. -/
def notifyWorkers (p : Pool α) : Pool α := { p with workers := p.workers.map Phase.notify }

/-- Marks the record joined. -/
def join (p : Pool α) (ticket : Ticket) : Pool α :=
  { p with queue := p.queue.join ticket }

/-- Gives up the record: it goes when it has finished. -/
def detach (p : Pool α) (ticket : Ticket) : Pool α := { p with queue := p.queue.detach ticket }

/-- Takes the finished record out of the queue. -/
def unlink (p : Pool α) (ticket : Ticket) : Pool α :=
  match p.queue.remove ticket with
  | (.ok _, q) => { p with queue := q }
  | (.error f, q) => { p with queue := q }.fault (.queue f)

/-- Leaves the result of a submission; there is room for one. -/
def putResult (p : Pool α) (ticket : Ticket) (v : Value α) : Pool α :=
  if p.results.contains ticket.number then p.fault .resultWrittenTwice
  else { p with results := p.results.insert ticket.number v }

end Pool
end WorkerPool
