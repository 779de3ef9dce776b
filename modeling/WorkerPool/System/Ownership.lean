/-
# Who owns a record

A submission links a record to a pool and puts it on the list of its task, in one go: the task owns
the record from then on.  It gives the record back in one of two ways.  A release takes all
records of the task out of their pools; it is refused unless each of them is joined and
finished.  Detaching a task leaves each record to its pool, which drops it when it has finished.
-/
import WorkerPool.System.Basic

namespace WorkerPool
namespace System

variable {α : Type}

/-- Submits a task to a pool, if both are in use. -/
def submit (s : System α) (pool task : Nat) : SubmitReply × System α :=
  match s.pools[pool]?, s.tasks[task]? with
  | some p, some t =>
    if !p.isActive then (.noPool, s)
    else if !t.isLive then (.noTask, s)
    else
      let (reply, p) := p.submit s.refusal ⟨task⟩
      let s := s.modifyPool pool fun _ => p
      match reply with
      | .error e => (.failed e, s)
      | .ok ticket =>
        (.accepted,
          s.modifyTask task fun t => { t with submissions := ⟨pool, ticket⟩ :: t.submissions })
  | none, _ => (.noPool, s)
  | _, none => (.noTask, s)

/-- Submits a task to a pool, both found by their ids at this moment. -/
def submitById (s : System α) (pool task : String) : SubmitReply × System α :=
  match s.findPool? pool, s.findTask? task with
  | some p, some t => s.submit p t
  | none, _ => (.noPool, s)
  | _, none => (.noTask, s)

/-- Whether a release of the task would succeed. -/
def canRelease (s : System α) (task : Nat) : Bool := (s.submissions task).all s.isSpent

/-- Takes the records of some submissions out of their pools. -/
def unlinkAll (s : System α) (xs : List Submission) : System α :=
  xs.foldl (fun s x => s.modifyPool x.pool fun p => p.unlink x.ticket) s

/-- Leaves the records of some submissions to their pools. -/
def detachAll (s : System α) (xs : List Submission) : System α :=
  xs.foldl (fun s x => s.modifyPool x.pool fun p => p.detach x.ticket) s

/-- Releases a task, its oldest submission first; the error says why it is refused. -/
def release (s : System α) (task : Nat) : Option Failure × System α :=
  if s.canRelease task then
    (none, (s.unlinkAll (s.submissions task).reverse).modifyTask task fun t => t.retire .released)
  else
    (some .taskStillQueued, s.note (.releaseRefused (s.submissions task).length))

/-- Detaches a task, its oldest submission first. -/
def detach (s : System α) (task : Nat) : System α :=
  let xs := s.submissions task
  let noted := if xs.isEmpty then s else s.note (.detaching xs.length)
  (noted.detachAll xs.reverse).modifyTask task fun t => t.retire .detached

end System
end WorkerPool
