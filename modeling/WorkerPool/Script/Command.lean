/-
# Scripts: what can be asked, and how it is answered

A `Script` is a list of commands over pools and tasks that are named by ids.  Each command has an
`Answer`, and a `Report` shows the answer together with what the pools and tasks look like
afterwards, what happened in between, and what was noted.
-/
import WorkerPool.System.Settle

namespace WorkerPool

/-- Something that a script asks for. -/
inductive Command (α : Type) where
  /-- Builds a pool. -/
  | buildPool (id : String) (settings : Settings)
  /-- Builds a pool with so many threads and shuts it down at once. -/
  | tryPool (threads : Nat)
  | describePool (pool : String)
  | shutdown (pool : String)
  | dropPool (pool : String)
  /-- From now on no thread can be started, or threads can be started again. -/
  | denyThreads (on : Bool)
  | createTask (id : String) (body : Body α)
  | submit (pool task : String)
  /-- Submits up to so many times, until the first error. -/
  | submitTimes (pool task : String) (times : Nat)
  /-- Opens the gate of a run that waits there, by default of the first one. -/
  | openGate (task : String) (run : Option Nat)
  /-- The same for the oldest task that is no longer in use. -/
  | openOrphan
  | join (task joiner : String)
  /-- A bounded join.  It needs a name only if it can be left waiting. -/
  | joinWithin (task : String) (patience : Patience) (joiner : Option String)
  /-- Asks for the answer of a join that had to wait. -/
  | collect (joiner : String)
  | release (task : String)
  | detach (task : String)
  | describeTask (task : String)
  /-- A request that makes no sense. -/
  | unknown

/-- Why a command could not be carried out at all. -/
inductive Refusal where
  | badRequest
  | noPool
  | noTask
  | noJoiner
  | notBlocked
  /-- The task has joins that are not collected. -/
  | joinersWaiting
  | duplicatePool
  | duplicateName
  | duplicateTask
  | duplicateJoiner
deriving DecidableEq, Repr

/-- The refusal by its name. -/
def Refusal.label : Refusal → String
  | badRequest => "BadRequest"
  | noPool => "NoPool"
  | noTask => "NoTask"
  | noJoiner => "NoJoiner"
  | notBlocked => "NotBlocked"
  | joinersWaiting => "JoinersWaiting"
  | duplicatePool => "DuplicatePool"
  | duplicateName => "DuplicateName"
  | duplicateTask => "DuplicateTask"
  | duplicateJoiner => "DuplicateJoiner"

/-- The answer to a command. -/
inductive Answer (α : Type) where
  | done
  | refused (why : Refusal)
  | failed (e : Failure)
  /-- A failure that hands back the pool or the task. -/
  | handedBack (e : Failure)
  /-- A pool that was built for a moment. -/
  | built (name : String) (capacity limit threads : Nat)
  /-- A pool.  Its capacity is left out where the machine decided it, and so is its description. -/
  | pool (name : String) (capacity : Option Nat) (limit : Nat) (description : Option String)
  /-- How many submissions were accepted, and the error that ended them. -/
  | accepted (count : Nat) (error : Option Failure)
  | opened (run : Nat)
  | value (v : Value α)
  /-- The join waits. -/
  | pending
  | text (s : String)

/-- What the pools and tasks in use look like. -/
structure View where
  pools : List (String × PoolCounts)
  tasks : List (String × TaskStatus)
deriving DecidableEq, Repr

/-- What happened during a command. -/
inductive Happenings (α : Type) where
  | all (events : List (Event α))
  | count (n : Nat)

/-- A command's answer and the look of things afterwards. -/
structure Report (α : Type) where
  answer : Answer α
  view : Option View
  happenings : Happenings α
  log : Option (List String)

/-- A list of commands, and how much of each is reported. -/
structure Script (α : Type) where
  commands : List (Command α)
  /-- Only the last report shows pools and tasks, and the others only count what happened. -/
  quiet : Bool
  /-- Reports show the journal. -/
  log : Bool

end WorkerPool
