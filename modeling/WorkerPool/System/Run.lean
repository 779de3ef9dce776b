/-
# Running bodies

What a worker does between the claim of a record and its finish, in three steps: the body begins
(`enterBody`), and ends (`endBody`) once its gate is behind it, both outside the lock of the pool;
then the record is finished and the worker looks for work (`finishBody`).

A body that panics leaves no result, and calls the handler of the pool if there is one.  The
handler may panic in turn (`callHandler`); that panic is caught, so all that is left of the call is
what the handler did before (`reportPanic_eq`).  Any other body leaves its value as the result.
-/
import WorkerPool.System.Ownership
import WorkerPool.System.Join

namespace WorkerPool

/-- What is seen of a panic in the pool: the call of its handler. -/
def Pool.panicEvents {α : Type} (p : Pool α) (payload : α) : List (Event α) :=
  if p.plan.handler.isSome then [.panicked p.id payload] else []

namespace System

variable {α : Type}

/-- The body of a claimed record begins: it gets the next run number of its task. -/
def enterBody (s : System α) (pool worker : Nat) (ticket : Ticket) (job : Job) : System α :=
  match s.pools[pool]?, s.tasks[job.task]? with
  | some p, some t =>
    let run := t.runs + 1
    let stage := if t.body.gate.has run then Stage.atGate run else Stage.past run
    let begun := (s.modifyTask job.task fun t => { t with runs := run }).modifyPool pool
      fun p => p.setPhase worker (.executing ticket job stage)
    { begun with events := .started p.id t.id ticket.number run :: begun.events }
  | _, _ => s

/-- What a body sees of a pool, found by its id. -/
def observePool (s : System α) (id : String) : Option PoolCounts := do
  let pool ← s.findPool? id
  let p ← s.pools[pool]?
  return p.counts

/-- What a body sees of a task, found by its id. -/
def observeTask (s : System α) (id : String) : Option TaskStatus := do
  let task ← s.findTask? id
  let t ← s.tasks[task]?
  return s.taskStatus t

/-- The value that run number `run` of task `t` gives, on a worker of pool `p`. -/
def evaluate (s : System α) (p : Pool α) (worker : Nat) (t : Task α) (run : Nat) :
    Value α × System α :=
  match t.body.kind with
  | .const value => (.given value, s)
  | .count => (.int run, s)
  | .affine arg mul add => (.int (arg * mul + add).toInt, s)
  | .workerName => (.workerName (p.workerName worker), s)
  | .observe pool task => (.seen (s.observePool pool) (s.observeTask (task.getD t.id)), s)
  | .submit on pool task =>
    if on.has run then
      let (reply, s) := s.submitById pool task
      (.submitted reply, s)
    else (.nothing, s)

/-- A handler is called with the payload of a panic: the call is seen, and the handler returns or
panics itself. -/
def callHandler (s : System α) (pool : String) (payload : α) (handler : Handler) :
    Except α Unit × System α :=
  let called := { s with events := .panicked pool payload :: s.events }
  match handler with
  | .reports => (.ok (), called)
  | .reportsThenPanics => (.error payload, called)

/-- The panic of a body is handed to the handler of the pool, if there is one.  A panic of that
handler is caught, and the worker goes on either way. -/
def reportPanic (s : System α) (p : Pool α) (payload : α) : System α :=
  match p.plan.handler with
  | none => s
  | some handler =>
    match s.callHandler p.id payload handler with
    | (.ok (), s) => s
    | (.error _, s) => s

/-- Whichever handler the pool has, the call is all that is seen of it. -/
theorem reportPanic_eq (s : System α) (p : Pool α) (payload : α) :
    s.reportPanic p payload = { s with events := p.panicEvents payload ++ s.events } := by
  unfold reportPanic Pool.panicEvents
  cases p.plan.handler with
  | none => rfl
  | some handler => cases handler <;> rfl

/-- The body ends: it panics, or leaves a value. -/
def endBody (s : System α) (pool worker : Nat) (ticket : Ticket) (job : Job) (run : Nat) :
    System α :=
  match s.pools[pool]?, s.tasks[job.task]? with
  | some p, some t =>
    if t.body.panics.has run then
      let ended := s.modifyPool pool fun p =>
        (p.note (.panicked worker ticket.number)).setPhase worker (.executing ticket job .over)
      ended.reportPanic p t.body.payload
    else
      let (v, s) := s.evaluate p worker t run
      s.modifyPool pool fun p =>
        (p.putResult ticket v).setPhase worker (.executing ticket job .over)
  | _, _ => s

/-- The worker finishes the record of the body that has ended and looks for work; joins of the
record look again. -/
def finishBody (s : System α) (pool worker : Nat) (ticket : Ticket) : System α :=
  (s.modifyPool pool fun p => p.finish worker ticket).wakeJoiners ⟨pool, ticket⟩

end System
end WorkerPool
