/-
# The sections of a worker

A worker holds the lock of its pool except while it runs a body or waits for work.  Its loop is
cut by that into three sections, each of which ends with the worker looking for work (`advance`):
the first one after its start, the one after it was told to look again, and the one after a body
has ended.

`advance` claims the newest waiting record if there is one, whatever the standing of the pool.  Only
when there is none does the standing matter: the worker of an active pool parks, any other leaves.
-/
import WorkerPool.Pool.Basic

namespace WorkerPool
namespace Pool

variable {α : Type}

/-- The worker claims a record. -/
def claimed (p : Pool α) (worker : Nat) (ticket : Ticket) (job : Job) : Pool α :=
  (p.setPhase worker (.executing ticket job .entering)).note (.claimed worker ticket.number)

/-- The worker waits for work. -/
def park (p : Pool α) (worker : Nat) : Pool α :=
  { p with busy := p.busy - 1 }.setPhase worker (.parked false)

/-- The worker leaves its loop, and a shutdown that waits is told. -/
def leave (p : Pool α) (worker : Nat) : Pool α :=
  let left : Pool α :=
    { p with
      busy := p.busy - 1
      threads := p.threads - 1
      standing := p.standing.notify }
  (left.setPhase worker .exited).note (.workerExited worker)

/-- The worker looks for work: it claims, parks or leaves. -/
def advance (p : Pool α) (worker : Nat) : Pool α :=
  match p.queue.claim with
  | (.error f, q) => ({ p with queue := q }.fault (.queue f)).setPhase worker .exited
  | (.ok (some (ticket, job)), q) => { p with queue := q }.claimed worker ticket job
  | (.ok none, q) =>
    if p.isActive then { p with queue := q }.park worker else { p with queue := q }.leave worker

/-- The worker was told to look again: it is busy again and looks for work. -/
def wake (p : Pool α) (worker : Nat) : Pool α :=
  { p with busy := p.busy + 1 }.advance worker

/-- The body has ended: the record is finished and the worker looks for work. -/
def finish (p : Pool α) (worker : Nat) (ticket : Ticket) : Pool α :=
  match p.queue.finish ticket with
  | (.error f, q) => ({ p with queue := q }.fault (.queue f)).setPhase worker .exited
  | (.ok unlinked, q) =>
    ({ p with queue := q }.note (.finished worker ticket.number unlinked)).advance worker

end Pool
end WorkerPool
