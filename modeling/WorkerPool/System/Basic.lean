/-
# Pools, tasks and joins together

A `System` is everything that a program using this library has: its pools, its tasks, the joins
it ever began, what has happened so far, and the world that it runs in (a clock, and whether
threads can be started).  Pools, tasks and joins are named by their place in the lists of the
system and stay there for good; `findPool?` and `findTask?` find the ones that are still in use
by their id.
-/
import WorkerPool.Pool.Submit
import WorkerPool.Pool.Worker
import WorkerPool.Pool.End

namespace WorkerPool

/-- An accepted submission: its pool and its record there. -/
structure Submission where
  pool : Nat
  ticket : Ticket
deriving DecidableEq, Repr

/-- What has become of a task. -/
inductive Fate where
  | live
  | released
  /-- Detached or dropped; its submissions belong to their pools now. -/
  | detached
deriving DecidableEq, Repr

/-- A task, and the submissions that were accepted from it, newest first. -/
structure Task (α : Type) where
  id : String
  body : Body α
  /-- The runs begun so far. -/
  runs : Nat
  submissions : List Submission
  fate : Fate

namespace Task

variable {α : Type}

/-- Whether the task is still in use. -/
def isLive (t : Task α) : Bool := t.fate == .live

/-- Ends the use of a task; a task ends once. -/
def retire (t : Task α) (fate : Fate) : Task α := if t.isLive then { t with fate } else t

end Task

/-- How far a join has come. -/
inductive JoinState (α : Type) where
  /-- The submission is found, the wait has not begun. -/
  | called
  /-- Waiting; `woken` if it was told to look again. -/
  | waiting (woken : Bool)
  | answered (answer : Except Failure (Value α))

/-- A join: it belongs to the submission that was the most recent when it was called, and gives up
at its deadline if it has one. -/
structure Joiner (α : Type) where
  task : Nat
  submission : Submission
  deadline : Option Nat
  state : JoinState α

namespace Joiner

variable {α : Type}

/-- A waiting join is told to look again. -/
def wake (j : Joiner α) : Joiner α :=
  match j.state with
  | .waiting _ => { j with state := .waiting true }
  | _ => j

/-- Whether the join is about to look at its record. -/
def isWoken (j : Joiner α) : Bool :=
  match j.state with
  | .called => true
  | .waiting woken => woken
  | .answered _ => false

/-- Whether the deadline, if there is one, is over at time `clock`. -/
def isDue (j : Joiner α) (clock : Nat) : Bool :=
  match j.deadline with
  | some deadline => deadline ≤ clock
  | none => false

/-- The answer, once there is one. -/
def answer? (j : Joiner α) : Option (Except Failure (Value α)) :=
  match j.state with
  | .answered answer => some answer
  | _ => none

end Joiner

/-- What an outsider sees happen. -/
inductive Event (α : Type) where
  /-- The body of a task began, for a submission of its pool. -/
  | started (pool task : String) (submission run : Nat)
  /-- The panic handler of a pool was called. -/
  | panicked (pool : String) (payload : α)

/-- Pools, tasks, joins, and the world around them. -/
structure System (α : Type) where
  pools : List (Pool α)
  tasks : List (Task α)
  joiners : List (Joiner α)
  /-- What happened, newest first. -/
  events : List (Event α)
  /-- What tasks noted, newest first. -/
  journal : List TaskNote
  /-- Milliseconds since the start. -/
  clock : Nat
  /-- Why no thread can be started, if none can. -/
  refusal : Option String
  processors : Nat

namespace System

variable {α : Type}

/-- Nothing but a machine with `processors` processors. -/
def start (processors : Nat) : System α where
  pools := []
  tasks := []
  joiners := []
  events := []
  journal := []
  clock := 0
  refusal := none
  processors

/-! ## 1. Looking -/

/-- The pool in use with this id. -/
def findPool? (s : System α) (id : String) : Option Nat :=
  s.pools.findIdx? fun p => p.id == id && p.isActive

/-- The task in use with this id. -/
def findTask? (s : System α) (id : String) : Option Nat :=
  s.tasks.findIdx? fun t => t.id == id && t.isLive

/-- The record of a submission, unless it is gone. -/
def record? (s : System α) (x : Submission) : Option (Record Job) := do
  let pool ← s.pools[x.pool]?
  pool.queue.get? x.ticket

/-- What a finished submission answers. -/
def outcome (s : System α) (x : Submission) : Except Failure (Value α) :=
  match s.pools[x.pool]? with
  | some pool => pool.outcome x.ticket
  | none => .error .taskPanicked

/-- Whether nobody needs the record of a submission any more. -/
def isSpent (s : System α) (x : Submission) : Bool :=
  match s.pools[x.pool]? with
  | some pool => pool.queue.isSpent x.ticket
  | none => true

/-- The submissions that a task in use owns, newest first. -/
def submissions (s : System α) (task : Nat) : List Submission :=
  match s.tasks[task]? with
  | some t => if t.isLive then t.submissions else []
  | none => []

/-- The status of the most recent submission of a task. -/
def currentStatus? (s : System α) (t : Task α) : Option Status := do
  let x ← t.submissions.head?
  let r ← s.record? x
  return r.status

/-- What an observer sees of a task. -/
def taskStatus (s : System α) (t : Task α) : TaskStatus where
  isRunning := s.currentStatus? t == some .running
  isFinished := s.currentStatus? t == some .finished
  submissions := t.submissions.length

/-- How far a join has come. -/
def joinState? (s : System α) (joiner : Nat) : Option (JoinState α) := do
  let j ← s.joiners[joiner]?
  return j.state

/-- The answer of a join, once there is one. -/
def answer? (s : System α) (joiner : Nat) : Option (Except Failure (Value α)) := do
  let j ← s.joiners[joiner]?
  j.answer?

/-- The runs of a task that wait at a gate, in whatever pool. -/
def blockedRuns (s : System α) (task : Nat) : List Nat :=
  s.pools.flatMap fun p => p.blockedRuns task

/-! ## 2. Small changes -/

/-- Changes one pool. -/
def modifyPool (s : System α) (pool : Nat) (f : Pool α → Pool α) : System α :=
  { s with pools := s.pools.modify pool f }

/-- Changes one task. -/
def modifyTask (s : System α) (task : Nat) (f : Task α → Task α) : System α :=
  { s with tasks := s.tasks.modify task f }

/-- Moves one join to a state. -/
def setJoin (s : System α) (joiner : Nat) (state : JoinState α) : System α :=
  { s with joiners := s.joiners.modify joiner fun j => { j with state } }

/-- Notes `n`. -/
def note (s : System α) (n : TaskNote) : System α := { s with journal := n :: s.journal }

/-- Adds a pool. -/
def addPool (s : System α) (id : String) (plan : Plan) : System α :=
  { s with pools := s.pools ++ [Pool.create id plan] }

/-- Adds a task that has not run. -/
def addTask (s : System α) (id : String) (body : Body α) : System α :=
  { s with tasks := s.tasks ++ [⟨id, body, 0, [], .live⟩] }

/-- Asks for the shutdown of a pool in use; the error says why it is refused. -/
def shutdown (s : System α) (pool : Nat) : Option Failure × System α :=
  match s.pools[pool]? with
  | none => (none, s)
  | some p =>
    if p.isActive then
      let (refused, p) := p.shutdown
      (refused, s.modifyPool pool fun _ => p)
    else (none, s)

/-- Drops a pool. -/
def dropPool (s : System α) (pool : Nat) : System α := s.modifyPool pool Pool.drop

/-- Opens the gate that run number `run` of a task waits at. -/
def openGate (s : System α) (task run : Nat) : System α :=
  { s with
    pools := s.pools.map fun p =>
      { p with
        workers := p.workers.map fun
          | .executing ticket job (.atGate r) =>
            if job.task = task ∧ r = run then .executing ticket job (.past r)
            else .executing ticket job (.atGate r)
          | phase => phase } }

/-- Time passes; a waiting join whose deadline is over looks again. -/
def elapse (s : System α) (ms : Nat) : System α :=
  let clock := s.clock + ms
  { s with
    clock
    joiners := s.joiners.map fun j => if j.isDue clock then j.wake else j }

end System
end WorkerPool
