/-
# Ending a pool

A shutdown is refused while any record is linked.  Otherwise the pool stops being active, every
parked worker is told, and the shutdown waits until no worker is left, looking again each time
that one leaves.  Dropping a pool only stops it being open and waits for nobody: its workers run
what is still queued and leave afterwards.
-/
import WorkerPool.Pool.Basic

namespace WorkerPool
namespace Pool

variable {α : Type}

/-- The waiting shutdown looks: it is done when no worker is left. -/
def awaitWorkers (p : Pool α) : Pool α :=
  if p.threads = 0 then { p with standing := .stopped }.note .shutDown
  else { p with standing := .stopping false }

/-- Asks for a shutdown; the error says why it is refused. -/
def shutdown (p : Pool α) : Option Failure × Pool α :=
  if p.queue.isEmpty then
    (none, ({ p with standing := .stopping false }.notifyWorkers).awaitWorkers)
  else (some .hasPendingTasks, p.note (.shutdownRefused p.queue.size))

/-- The owner drops the pool. -/
def drop (p : Pool α) : Pool α :=
  if p.isActive then
    ({ p with standing := .dropped }.notifyWorkers).note (.closed p.queue.size)
  else p

end Pool
end WorkerPool
