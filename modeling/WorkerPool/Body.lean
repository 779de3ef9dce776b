/-
# What a task does when it runs

The body of a task is a small program: it may wait at a gate until someone opens it, it may
panic, and otherwise it gives a value.  `RunSet` says for which runs of the task a gate or a panic
applies; runs count from 1.  Values that a caller put in are carried through unchanged, whatever
their type `α` is.
-/
import WorkerPool.Failure

namespace WorkerPool

/-- A set of runs of one task. -/
inductive RunSet where
  | never
  | always
  | only (runs : List Nat)
deriving DecidableEq, Repr

/-- Whether run number `run` belongs to the set. -/
def RunSet.has : RunSet → Nat → Bool
  | never, _ => false
  | always, _ => true
  | only runs, run => runs.contains run

/-- What a body gives if it does not panic. -/
inductive Kind (α : Type) where
  /-- A value put in by the caller. -/
  | const (value : α)
  /-- The number of the run. -/
  | count
  /-- The sum `arg * mul + add` in 64-bit words. -/
  | affine (arg mul add : Int64)
  /-- The name of the worker that runs it. -/
  | workerName
  /-- The counters of a pool and the status of a task (by default of the task itself). -/
  | observe (pool : String) (task : Option String)
  /-- Submits a task from within the body; on other runs than `on` it does nothing. -/
  | submit (on : RunSet) (pool task : String)
deriving DecidableEq, Repr

/-- A gate, a panic with its payload, and what is given if neither stops the run. -/
structure Body (α : Type) where
  kind : Kind α
  gate : RunSet
  panics : RunSet
  payload : α
deriving DecidableEq, Repr

/-- The counters of a pool. -/
structure PoolCounts where
  /-- Workers that were started and have not left. -/
  threads : Nat
  /-- Of those, the ones that are not parked. -/
  busy : Nat
  /-- Records that wait, run or have finished. -/
  queued : Nat
deriving DecidableEq, Repr

/-- What is seen of a task: its most recent submission and the number of its submissions. -/
structure TaskStatus where
  isRunning : Bool
  isFinished : Bool
  submissions : Nat
deriving DecidableEq, Repr

/-- The answer to a submission. -/
inductive SubmitReply where
  | accepted
  | failed (e : Failure)
  | noPool
  | noTask
deriving DecidableEq, Repr

/-- What a run of a body gives. -/
inductive Value (α : Type) where
  | given (value : α)
  | int (i : Int)
  | workerName (name : String)
  | seen (pool : Option PoolCounts) (task : Option TaskStatus)
  | submitted (reply : SubmitReply)
  | nothing
deriving DecidableEq, Repr

end WorkerPool
