/-
# Ready-made workloads

Two ways to put a pool under load and to see that nothing is lost.  A `burst` submits one task for
each value at once, then joins and releases them all.  A `storm` has several clients, each of
which submits, joins and releases its tasks one after the other; the clients take turns, and what
each of them sees does not depend on the others.
-/
import WorkerPool.System.Settle

namespace WorkerPool

/-- A body without a gate. -/
def Body.plain {α : Type} (kind : Kind α) (panics : RunSet) (payload : α) : Body α :=
  ⟨kind, .never, panics, payload⟩

/-- What a burst saw. -/
structure BurstReport (α : Type) where
  /-- For each value, the answer to its submission. -/
  submits : List SubmitReply
  /-- Linked records after the submissions. -/
  queued : Nat
  /-- For each value, the answer of its join. -/
  joins : List (Except Failure (Value α))
  /-- Tasks that had finished after the joins. -/
  finished : Nat
  withinCapacity : Bool
  /-- Releases that succeeded. -/
  released : Nat
  /-- Linked records after the releases. -/
  left : Nat
  /-- Why the shutdown was refused, if it was. -/
  shutdown : Option Failure

/-- What a storm saw. -/
structure StormReport (α : Type) where
  /-- For each client, the answers of its joins. -/
  results : List (List (Except Failure (Value α)))
  withinCapacity : Bool
  left : Nat
  shutdown : Option Failure

namespace Workload

variable {α : Type}

/-- The number of linked records of a pool. -/
def queuedCount (s : System α) (pool : Nat) : Nat :=
  match s.pools[pool]? with
  | some p => p.queue.size
  | none => 0

/-- Whether a pool has no more workers than it may have. -/
def withinCapacity (s : System α) (pool : Nat) : Bool :=
  s.pools[pool]?.all fun p => p.threads ≤ p.plan.capacity

/-- Applies `f` to each item in turn and collects the answers. -/
def forEach {β γ : Type} (f : System α → β → γ × System α) :
    System α → List β → List γ × System α
  | s, [] => ([], s)
  | s, b :: rest =>
    let (answer, s) := f s b
    let (answers, s) := forEach f s rest
    (answer :: answers, s)

/-- Joins a task and waits for the answer. -/
def joinNow (s : System α) (task : Nat) : Except Failure (Value α) × System α :=
  match s.join task with
  | (.error e, s) => (.error e, s)
  | (.ok joiner, s) =>
    let s := s.settle System.inTurns
    ((s.answer? joiner).getD (.error .timeout), s)

/-- Whether the most recent submission of a task has finished. -/
def isFinished (s : System α) (task : Nat) : Bool :=
  s.tasks[task]?.any fun t => (s.taskStatus t).isFinished

/-- Runs the bodies as one burst.  The pool and the tasks are all that there is. -/
def burst (plan : Plan) (bodies : List (Body α)) (backwards : Bool) : BurstReport α :=
  let s : System α := System.start 1
  let s := s.addPool plan.name plan
  let s := bodies.foldl (fun s body => s.addTask "" body) s
  let tasks := List.range bodies.length
  let (submits, s) := forEach (fun s task => s.submit 0 task) s tasks
  let queued := queuedCount s 0
  let s := s.settle System.inTurns
  let (joins, s) := forEach joinNow s (if backwards then tasks.reverse else tasks)
  let finished := tasks.countP (isFinished s)
  let (releases, s) := forEach (fun s task => s.release task) s tasks
  let left := queuedCount s 0
  let within := withinCapacity s 0
  { submits
    queued
    joins := if backwards then joins.reverse else joins
    finished
    withinCapacity := within
    released := releases.countP (·.isNone)
    left
    shutdown := (s.shutdown 0).1 }

/-- Submits, joins and releases a task that gives `value`. -/
def oneTask (s : System α) (body : Body α) : Except Failure (Value α) × System α :=
  let task := s.tasks.length
  let s := s.addTask "" body
  match s.submit 0 task with
  | (.failed e, s) => (.error e, s)
  | (.noPool, s) | (.noTask, s) => (.error .notSubmitted, s)
  | (.accepted, s) =>
    let (answer, s) := joinNow (s.settle System.inTurns) task
    (answer, (s.release task).2)

/-- Runs a storm: in each round every client has one of its tasks done.  `body c i` is the body of
the task number `i` of client `c`. -/
def storm (plan : Plan) (clients perClient : Nat) (body : Nat → Nat → Body α) :
    StormReport α :=
  let s : System α := System.start 1
  let s := s.addPool plan.name plan
  let (rounds, s) := forEach
    (fun s i => forEach (fun s c => oneTask s (body c i)) s (List.range clients))
    s (List.range perClient)
  { results := (List.range clients).map fun c => rounds.filterMap (·[c]?)
    withinCapacity := withinCapacity s 0
    left := queuedCount s 0
    shutdown := (s.shutdown 0).1 }

end Workload
end WorkerPool
