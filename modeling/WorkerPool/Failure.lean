/-
# What pool and task operations can fail with

`Failure` has one constructor for each cause; two of them carry the text that explains them.
`message` is the sentence shown to a user.  `label` is the name of the cause, and `describe` the
form for a log or a debugger: the name, followed by the quoted text if there is one.
-/
import WorkerPool.Text.Quoted

namespace WorkerPool

/-- Why an operation on a pool or on a task failed. -/
inductive Failure where
  /-- A pool was asked for with settings that no pool can have. -/
  | invalidArgument (detail : String)
  /-- A shutdown met records that are not released. -/
  | hasPendingTasks
  /-- A submission met a queue at its limit. -/
  | tooManyTasks
  /-- A join met a task without any submission. -/
  | notSubmitted
  /-- A release met a submission that is not both joined and finished. -/
  | taskStillQueued
  /-- The time of a bounded join ran out. -/
  | timeout
  /-- The body of the joined submission panicked. -/
  | taskPanicked
  /-- The first worker of a pool could not be started. -/
  | spawn (detail : String)
deriving DecidableEq, Repr

namespace Failure

/-- The name of the cause. -/
def label : Failure → String
  | invalidArgument _ => "InvalidArgument"
  | hasPendingTasks => "HasPendingTasks"
  | tooManyTasks => "TooManyTasks"
  | notSubmitted => "NotSubmitted"
  | taskStillQueued => "TaskStillQueued"
  | timeout => "Timeout"
  | taskPanicked => "TaskPanicked"
  | spawn _ => "Spawn"

/-- The text that the error carries, if its cause has one. -/
def detail? : Failure → Option String
  | invalidArgument detail => some detail
  | spawn detail => some detail
  | _ => none

/-- The sentence shown to a user. -/
def message : Failure → String
  | invalidArgument detail => "invalid argument: " ++ detail
  | hasPendingTasks => "pool still has tasks that are not released"
  | tooManyTasks => "pool task queue is full"
  | notSubmitted => "task was never submitted"
  | taskStillQueued => "task has submissions that are not joined yet"
  | timeout => "timed out waiting for the task to finish"
  | taskPanicked => "task panicked during execution"
  | spawn detail => "failed to spawn a worker thread: " ++ detail

/-- Name and quoted text. -/
def describe (e : Failure) : String :=
  match e.detail? with
  | none => e.label
  | some detail => e.label ++ "(" ++ Text.quote detail ++ ")"

/-- The form of a refusal that hands its pool or task back. -/
def describeRefusal (e : Failure) : String :=
  "Refused \x7b error: " ++ e.describe ++ ", .. \x7d"

/-- The cause named `label`; `detail` is its text, and ignored by a cause that carries none. -/
def ofLabel? (label detail : String) : Option Failure :=
  [invalidArgument detail, hasPendingTasks, tooManyTasks, notSubmitted, taskStillQueued, timeout,
    taskPanicked, spawn detail].find? fun e => e.label == label

end Failure
end WorkerPool
