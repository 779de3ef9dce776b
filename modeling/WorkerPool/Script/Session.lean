/-
# Running a script

A `Session` is a system in the middle of a script.  `execute` carries out one command; the system
settles, as a schedule says, before the next one.  Two things take time on the clock of the
system: collecting a join that still waits, and a bounded join so short that it is not left
waiting.

Which refusal wins where several apply: a name that is taken comes before a thing that is
missing, a missing pool before a missing task, and joins that are not collected before a missing
task.  A bounded join too short to be left waiting takes no name, so a taken one does not stop it.
-/
import WorkerPool.Script.Command

namespace WorkerPool

/-- Why the machine starts no thread after `denyThreads`. -/
def threadsDenied : String := "Resource temporarily unavailable (os error 11)"

/-- The longest bounded join that is not left waiting, in milliseconds. -/
def shortPatience : Nat := 100

/-- The milliseconds of a patience that is short. -/
def Patience.short? : Patience → Option Nat
  | ms n => if n ≤ shortPatience then some n else none
  | max => none

/-- How long a command waits for a join to collect, in milliseconds. -/
def collectPatience : Nat := 200

/-- A join that was left waiting, and is not collected. -/
structure PendingJoin where
  name : String
  task : String
  joiner : Nat
deriving DecidableEq, Repr

/-- A system in the middle of a script. -/
structure Session (α : Type) where
  system : System α
  /-- The joins left waiting. -/
  pending : List PendingJoin
  /-- The ids of the pools whose capacity the machine decided. -/
  unsized : List String
  /-- Pools that one command built and ended, newest first. -/
  passing : List (Pool α)

namespace Session

variable {α : Type}

/-- The session before the first command, on a machine with `processors` processors. -/
def start (processors : Nat) : Session α := ⟨.start processors, [], [], []⟩

/-- The session with its system settled. -/
def settle (s : Session α) (schedule : Schedule α) : Session α :=
  { s with system := s.system.settle schedule }

/-! ## 1. Pools -/

/-- Builds a pool.  A pool whose name is taken is built and dropped again. -/
def buildPool (s : Session α) (id : String) (settings : Settings) : Answer α × Session α :=
  if s.system.pools.any fun p => p.id == id then (.refused .duplicatePool, s)
  else
    match settings.plan s.system.processors with
    | .error fault => (.failed fault.toFailure, s)
    | .ok plan =>
      if s.system.pools.any fun p => p.plan.name == plan.name then
        (.refused .duplicateName, { s with passing := (Pool.create id plan).drop :: s.passing })
      else
        (.done,
          { s with
            system := s.system.addPool id plan
            unsized := if settings.threads.isNone then id :: s.unsized else s.unsized })

/-- Builds a pool that nobody will use, and shuts it down. -/
def tryPool (s : Session α) (threads : Nat) : Answer α × Session α :=
  match Settings.plan { threads := some threads } s.system.processors with
  | .error fault => (.failed fault.toFailure, s)
  | .ok plan =>
    let p : Pool α := Pool.create plan.name plan
    (.built p.plan.name p.plan.capacity p.queue.limit p.threads,
      { s with passing := p.shutdown.2 :: s.passing })

/-- Carries out a command on a pool in use. -/
def onPool (s : Session α) (id : String) (f : Nat → Answer α × Session α) :
    Answer α × Session α :=
  match s.system.findPool? id with
  | none => (.refused .noPool, s)
  | some pool => f pool

/-- Tells about a pool. -/
def describePool (s : Session α) (id : String) (pool : Nat) : Answer α :=
  match s.system.pools[pool]? with
  | none => .refused .noPool
  | some p =>
    if s.unsized.contains id then .pool p.plan.name none p.queue.limit none
    else .pool p.plan.name (some p.plan.capacity) p.queue.limit (some p.describe)

/-- Shuts a pool down. -/
def shutdown (s : Session α) (pool : Nat) : Answer α × Session α :=
  let (refused, system) := s.system.shutdown pool
  match refused with
  | none => (.done, { s with system })
  | some e => (.handedBack e, { s with system })

/-! ## 2. Tasks -/

/-- Carries out a command on a task in use. -/
def onTask (s : Session α) (id : String) (f : Nat → Answer α × Session α) :
    Answer α × Session α :=
  match s.system.findTask? id with
  | none => (.refused .noTask, s)
  | some task => f task

/-- The answer to a submission. -/
def submitAnswer : SubmitReply → Answer α
  | .accepted => .done
  | .failed e => .failed e
  | .noPool => .refused .noPool
  | .noTask => .refused .noTask

/-- Submits a task up to `times` times, letting the system settle after each, until the first
error.  `accepted` counts the submissions before these. -/
def submitTimes (schedule : Schedule α) (pool task : Nat) :
    (times accepted : Nat) → System α → Answer α × System α
  | 0, accepted, system => (.accepted accepted none, system)
  | times + 1, accepted, system =>
    match system.submit pool task with
    | (.accepted, system) =>
      submitTimes schedule pool task times (accepted + 1) (system.settle schedule)
    | (.failed e, system) => (.accepted accepted (some e), system)
    | (reply, system) => (submitAnswer reply, system)

/-- Opens the gate of run number `run` of a task. -/
def openRun (s : Session α) (task run : Nat) : Answer α × Session α :=
  (.opened run, { s with system := s.system.openGate task run })

/-- Opens the gate of one run of a task: the run asked for, or the first that waits. -/
def openGate (s : Session α) (task : Nat) (run : Option Nat) : Answer α × Session α :=
  let blocked := s.system.blockedRuns task
  let chosen := match run with
    | some run => if blocked.contains run then some run else none
    | none => blocked.min?
  match chosen with
  | none => (.refused .notBlocked, s)
  | some run => s.openRun task run

/-- The oldest task no longer in use that has a run waiting at its gate, and its first such
run. -/
def findOrphan? (system : System α) : Option (Nat × Nat) :=
  system.tasks.zipIdx.findSome? fun (t, task) =>
    if t.isLive then none else (system.blockedRuns task).min?.map fun run => (task, run)

/-- Ends the use of a task, unless a join of it is not collected. -/
def endTask (s : Session α) (id : String) (f : Nat → Answer α × Session α) :
    Answer α × Session α :=
  if s.pending.any fun j => j.task == id then (.refused .joinersWaiting, s)
  else s.onTask id f

/-- Releases a task. -/
def release (s : Session α) (task : Nat) : Answer α × Session α :=
  let (refused, system) := s.system.release task
  match refused with
  | none => (.done, { s with system })
  | some e => (.handedBack e, { s with system })

/-- Tells about a task. -/
def describeTask (s : Session α) (task : Nat) : Answer α :=
  .text ("Task \x7b submissions: " ++ toString (s.system.submissions task).length ++ ", .. \x7d")

/-! ## 3. Joins -/

/-- The answer of a join. -/
def joinAnswer : Except Failure (Value α) → Answer α
  | .ok v => .value v
  | .error e => .failed e

/-- Waits `patience` milliseconds for a join, but not beyond its deadline. -/
def awaitJoin (schedule : Schedule α) (system : System α) (joiner patience : Nat) :
    System α :=
  let left := match system.joiners[joiner]? with
    | some j => match j.deadline with
      | some deadline => min (deadline - system.clock) patience
      | none => patience
    | none => 0
  (system.elapse left).settle schedule

/-- Begins a join of a task in use, and goes on with its joiner if it has one. -/
def beginJoin (schedule : Schedule α) (s : Session α) (task : String)
    (join : Nat → Except Failure Nat × System α)
    (next : Nat → Session α → Answer α × Session α) : Answer α × Session α :=
  s.onTask task fun t =>
    let (begun, system) := join t
    match begun with
    | .error e => (.failed e, { s with system })
    | .ok joiner => next joiner (settle { s with system } schedule)

/-- Carries out a join that is left waiting under its name unless it is answered at once.  The name
has to be free. -/
def namedJoin (schedule : Schedule α) (s : Session α) (name task : String)
    (join : Nat → Except Failure Nat × System α) : Answer α × Session α :=
  if s.pending.any fun j => j.name == name then (.refused .duplicateJoiner, s)
  else
    beginJoin schedule s task join fun joiner s =>
      match s.system.answer? joiner with
      | some answer => (joinAnswer answer, s)
      | none => (.pending, { s with pending := ⟨name, task, joiner⟩ :: s.pending })

/-- The answer of a join, for which the session waits `patience` milliseconds if it has to. -/
def waitFor (schedule : Schedule α) (s : Session α) (joiner patience : Nat) :
    Option (Except Failure (Value α)) × Session α :=
  match s.system.answer? joiner with
  | some answer => (some answer, s)
  | none =>
    let system := awaitJoin schedule s.system joiner patience
    (system.answer? joiner, { s with system })

/-- Carries out a bounded join to its end.  It is never left waiting, so its name does not
matter. -/
def shortJoin (schedule : Schedule α) (s : Session α) (task : String) (patience : Nat) :
    Answer α × Session α :=
  beginJoin schedule s task (fun t => s.system.joinWithin t (.ms patience)) fun joiner s =>
    let (answer, s) := waitFor schedule s joiner patience
    (answer.elim .pending joinAnswer, s)

/-- Carries out a bounded join.  A short one needs no name. -/
def boundedJoin (schedule : Schedule α) (s : Session α) (task : String) (patience : Patience)
    (name : Option String) : Answer α × Session α :=
  match patience.short?, name with
  | some n, _ => shortJoin schedule s task n
  | none, some name => namedJoin schedule s name task fun t => s.system.joinWithin t patience
  | none, none => (.refused .badRequest, s)

/-- Asks for the answer of a join left waiting; an answered join is forgotten. -/
def collect (schedule : Schedule α) (s : Session α) (name : String) : Answer α × Session α :=
  match s.pending.find? fun j => j.name == name with
  | none => (.refused .noJoiner, s)
  | some j =>
    match waitFor schedule s j.joiner collectPatience with
    | (some answer, s) => (joinAnswer answer, { s with pending := s.pending.erase j })
    | (none, s) => (.pending, s)

/-! ## 4. Commands -/

/-- Carries out one command. -/
def execute (schedule : Schedule α) (s : Session α) : Command α → Answer α × Session α
  | .buildPool id settings => s.buildPool id settings
  | .tryPool threads => s.tryPool threads
  | .describePool id => s.onPool id fun pool => (s.describePool id pool, s)
  | .shutdown id => s.onPool id s.shutdown
  | .dropPool id => s.onPool id fun pool => (.done, { s with system := s.system.dropPool pool })
  | .denyThreads on =>
    (.done,
      { s with system := { s.system with refusal := if on then some threadsDenied else none } })
  | .createTask id body =>
    match s.system.findTask? id with
    | some _ => (.refused .duplicateTask, s)
    | none => (.done, { s with system := s.system.addTask id body })
  | .submit pool task =>
    let (reply, system) := s.system.submitById pool task
    (submitAnswer reply, { s with system })
  | .submitTimes pool task times =>
    s.onPool pool fun p => s.onTask task fun t =>
      let (answer, system) := submitTimes schedule p t times 0 s.system
      (answer, { s with system })
  | .openGate task run => s.onTask task fun t => s.openGate t run
  | .openOrphan =>
    match findOrphan? s.system with
    | none => (.refused .notBlocked, s)
    | some (task, run) => s.openRun task run
  | .join task name => namedJoin schedule s name task fun t => s.system.join t
  | .joinWithin task patience name => boundedJoin schedule s task patience name
  | .collect name => collect schedule s name
  | .release id => s.endTask id s.release
  | .detach id =>
    s.endTask id fun task => (.done, { s with system := s.system.detach task })
  | .describeTask id => s.onTask id fun task => (s.describeTask task, s)
  | .unknown => (.refused .badRequest, s)

/-- Carries out one command and lets the system settle. -/
def step (schedule : Schedule α) (s : Session α) (c : Command α) : Answer α × Session α :=
  let (answer, s) := execute schedule s c
  (answer, s.settle schedule)

end Session
end WorkerPool
