/-
# Submitting to a pool

A submission is one section under the lock of the pool.  A full queue refuses it before anything
else happens.  If every worker that has not left is busy and the pool may have more, one worker is
started first; it takes part as a busy worker from then on.  When the system refuses the
thread, the submission goes on if some worker exists, which will come to it in time, and fails if
none does.  Then the record is linked and every parked worker is told.
-/
import WorkerPool.Pool.Basic

namespace WorkerPool
namespace Pool

variable {α : Type}

/-- Whether a submission starts a worker first. -/
def wantsWorker (p : Pool α) : Bool :=
  p.busy == p.threads && p.threads < p.plan.capacity

/-- Starts a worker, with the next index. -/
def startWorker (p : Pool α) : Pool α :=
  let grown : Pool α :=
    { p with
      threads := p.threads + 1
      busy := p.busy + 1
      workers := p.workers ++ [.starting] }
  grown.note (.spawnedWorker p.workers.length grown.threads)

/-- Starts a worker if one is wanted.  With a `refusal` the system starts none; the answer then
tells whether the submission has to fail. -/
def grow (p : Pool α) (refusal : Option String) : Option Failure × Pool α :=
  if p.wantsWorker then
    match refusal with
    | none => (none, p.startWorker)
    | some cause =>
      if 0 < p.threads then (none, p.note (.extraWorkerRefused cause))
      else (some (.spawn cause), p.note (.firstWorkerRefused cause))
  else (none, p)

/-- Accepts a job, or says why not. -/
def submit (p : Pool α) (refusal : Option String) (job : Job) :
    Except Failure Ticket × Pool α :=
  if p.queue.isFull then
    (.error .tooManyTasks, p.note (.queueFull p.queue.limit))
  else
    match p.grow refusal with
    | (some e, p) => (.error e, p)
    | (none, p) =>
      match p.queue.push job with
      | (.error f, q) => (.error .tooManyTasks, { p with queue := q }.fault (.queue f))
      | (.ok ticket, q) =>
        (.ok ticket, ({ p with queue := q }.notifyWorkers).note (.submitted ticket.number))

end Pool
end WorkerPool
