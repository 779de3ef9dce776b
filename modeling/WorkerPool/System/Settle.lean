/-
# Moves, and settling

Apart from its callers, three kinds of thread act on a system: workers, joins and shutdowns.  A
`Move` names the one that acts next, and `perform` is what it does until it gives way.  Any order
of the moves that are `ready` can happen.  A `Schedule` picks the next one, and `settle` lets the
system move as a schedule says until nothing is ready.

How soon a worker looks that was told to is up to the machine.  In `looksFirst` it is the next to
act, in `bodiesFirst` it waits until no body is under way, and `inTurns` has both.  Among workers
that are alike, the one with the lowest index in the first pool that has one goes first.
-/
import WorkerPool.System.Run

namespace WorkerPool

/-- The thread that acts next. -/
inductive Move where
  | worker (pool worker : Nat)
  | joiner (joiner : Nat)
  /-- The shutdown that waits for the workers of a pool. -/
  | shutdown (pool : Nat)
deriving DecidableEq, Repr

/-- A choice of the next move, which may depend on all that has happened; `none` if nothing
is ready. -/
abbrev Schedule (α : Type) := System α → Option Move

/-- Whether a waiting shutdown was told to look again. -/
def Standing.isWoken : Standing → Bool
  | stopping notified => notified
  | _ => false

namespace System

variable {α : Type}

/-- The phase of a worker. -/
def phase? (s : System α) (pool worker : Nat) : Option Phase := do
  let p ← s.pools[pool]?
  p.workers[worker]?

/-- Whether the thread can act now. -/
def ready (s : System α) : Move → Bool
  | .worker pool worker => (s.phase? pool worker).any fun ph => ph.isUnderWay || ph.isLooking
  | .joiner joiner => s.joiners[joiner]?.any (·.isWoken)
  | .shutdown pool => s.pools[pool]?.any (·.standing.isWoken)

/-- What the thread does; nothing, if it is not ready. -/
def perform (s : System α) : Move → System α
  | .worker pool worker =>
    match s.phase? pool worker with
    | some .starting => s.modifyPool pool fun p => p.advance worker
    | some (.parked true) => s.modifyPool pool fun p => p.wake worker
    | some (.executing ticket job .entering) => s.enterBody pool worker ticket job
    | some (.executing ticket job (.past run)) => s.endBody pool worker ticket job run
    | some (.executing ticket _ .over) => s.finishBody pool worker ticket
    | _ => s
  | .joiner joiner =>
    match s.joinState? joiner with
    | some .called => s.startWait joiner
    | some (.waiting true) => s.lookAgain joiner
    | _ => s
  | .shutdown pool =>
    s.modifyPool pool fun p => if p.standing.isWoken then p.awaitWorkers else p

/-- The first worker in such a phase. -/
def findWorker? (s : System α) (wanted : Phase → Bool) : Option Move := do
  let pool ← s.pools.findIdx? fun p => p.workers.any wanted
  let p ← s.pools[pool]?
  let worker ← p.workers.findIdx? wanted
  return .worker pool worker

/-- The schedule in which workers of the phases `first` go first, then those of `second`, then the
joins and the shutdowns that were told to look. -/
def byPhase (first second : Phase → Bool) (s : System α) : Option Move :=
  s.findWorker? first <|>
  s.findWorker? second <|>
  (s.joiners.findIdx? (·.isWoken)).map .joiner <|>
  (s.pools.findIdx? (·.standing.isWoken)).map .shutdown

/-- A body under way goes first: a worker that is told to look is late. -/
def bodiesFirst : System α → Option Move := byPhase Phase.isUnderWay Phase.isLooking

/-- A worker that is about to look goes first: it is prompt. -/
def looksFirst : System α → Option Move := byPhase Phase.isLooking Phase.isUnderWay

/-- The runs of all tasks. -/
def runsBegun (s : System α) : Nat := (s.tasks.map (·.runs)).foldr (· + ·) 0

/-- Workers are prompt and late in turns, for eight bodies each. -/
def inTurns (s : System α) : Option Move :=
  if s.runsBegun / 8 % 2 = 0 then s.looksFirst else s.bodiesFirst

/-- More moves than a pool can bring about from now on.  Every record that is linked, or that may
still be accepted from a body, costs a few moves and tells each worker once; every worker and
the shutdown take a few more. -/
def poolBudget (p : Pool α) : Nat :=
  (p.queue.limit + p.queue.size) * (p.plan.capacity + 8) + 8 * (p.workers.length + 1)

/-- More moves than the system can make before it settles. -/
def budget (s : System α) : Nat :=
  s.pools.foldr (fun p n => poolBudget p + n) 0 + 2 * s.joiners.length

/-- At most `fuel` moves. -/
def settleWithin (schedule : Schedule α) : Nat → System α → System α
  | 0, s => s
  | fuel + 1, s =>
    match schedule s with
    | none => s
    | some move => settleWithin schedule fuel (s.perform move)

/-- Lets the system move until nothing is ready. -/
def settle (s : System α) (schedule : Schedule α) : System α :=
  settleWithin schedule s.budget s

end System
end WorkerPool
