/-
# Joins

A join belongs to the submission that is the most recent one of its task when it is called.  Its
wait is a section of its own (`startWait`), and other threads may act before it begins.  It looks
at the record (`lookAgain`): a finished record is marked joined and the join is answered with what
its body left; otherwise the join waits, and looks again when the record finishes or its deadline
is over.

A join without a deadline marks the record joined before it waits, a join with one only when it
sees the record finished.  So a join that times out leaves no mark.
-/
import WorkerPool.System.Basic

namespace WorkerPool

/-- How long a bounded join may take. -/
inductive Patience where
  | ms (n : Nat)
  /-- Longer than any clock can tell. -/
  | max
deriving DecidableEq, Repr

/-- When a join that begins at time `clock` gives up; `none` if it never does. -/
def Patience.deadline? (clock : Nat) : Patience → Option Nat
  | ms n => some (clock + n)
  | max => none

namespace System

variable {α : Type}

/-- The join looks at its record, and is answered or waits on. -/
def lookAgain (s : System α) (joiner : Nat) : System α :=
  match s.joiners[joiner]? with
  | none => s
  | some j =>
    match s.record? j.submission with
    | none => s.setJoin joiner (.answered (.error .notSubmitted))
    | some r =>
      if r.status = .finished then
        (s.modifyPool j.submission.pool fun p => p.join j.submission.ticket).setJoin joiner
          (.answered (s.outcome j.submission))
      else if j.isDue s.clock then s.setJoin joiner (.answered (.error .timeout))
      else s.setJoin joiner (.waiting false)

/-- The wait begins: a join without a deadline marks its record, and each looks at it. -/
def startWait (s : System α) (joiner : Nat) : System α :=
  match s.joiners[joiner]? with
  | none => s
  | some j =>
    let marked :=
      if j.deadline.isNone then s.modifyPool j.submission.pool fun p => p.join j.submission.ticket
      else s
    marked.lookAgain joiner

/-- A task is joined, for as long as it takes if there is no limit.  The answer is the place of the
join, which is the last of the list.  No time at all is not enough, even for a record that
has finished. -/
def call (s : System α) (task : Nat) (limit : Option Patience) : Except Failure Nat × System α :=
  match (s.submissions task).head? with
  | none => (.error .notSubmitted, s)
  | some x =>
    if limit = some (.ms 0) then (.error .timeout, s)
    else
      (.ok s.joiners.length,
        { s with
          joiners :=
            s.joiners ++ [⟨task, x, limit.bind (·.deadline? s.clock), .called⟩] })

/-- A join is called and its wait begins at once. -/
def joinFor (s : System α) (task : Nat) (limit : Option Patience) :
    Except Failure Nat × System α :=
  match s.call task limit with
  | (.error e, s) => (.error e, s)
  | (.ok joiner, s) => (.ok joiner, s.startWait joiner)

/-- Joins a task for as long as it takes. -/
def join (s : System α) (task : Nat) : Except Failure Nat × System α := s.joinFor task none

/-- Joins a task for a limited time. -/
def joinWithin (s : System α) (task : Nat) (patience : Patience) :
    Except Failure Nat × System α :=
  s.joinFor task (some patience)

/-- Every waiting join of a submission looks again. -/
def wakeJoiners (s : System α) (x : Submission) : System α :=
  { s with joiners := s.joiners.map fun j => if j.submission = x then j.wake else j }

end System
end WorkerPool
