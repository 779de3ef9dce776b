/-
# What a script reports

A report compares the session after a command with the one before it: events, notes and passing
pools are only ever added, at the front of their lists, so what is new is the front of the longer
list (`newest`).  The lines of a log are sorted by code point, because notes of different threads
have no order of their own.
-/
import WorkerPool.Script.Session

namespace WorkerPool

/-- What was put in front of `before` to make `after`, newest first. -/
def newest {β : Type} (before after : List β) : List β :=
  after.take (after.length - before.length)

namespace Session

variable {α : Type}

/-- The pools and tasks in use. -/
def view (s : Session α) : View where
  pools := (s.system.pools.filter (·.isActive)).map fun p => (p.id, p.counts)
  tasks := (s.system.tasks.filter (·.isLive)).map fun t => (t.id, s.system.taskStatus t)

/-- The journal of the pool at a place of the list; empty before there is one. -/
def poolJournal (s : Session α) (pool : Nat) : List PoolNote :=
  match s.system.pools[pool]? with
  | some p => p.journal
  | none => []

/-- The lines noted between two points of a session, sorted. -/
def logSince (before after : Session α) : List String :=
  let ofPools := after.system.pools.zipIdx.flatMap fun (p, pool) =>
    (newest (before.poolJournal pool) p.journal).map fun n => n.render p.plan.name
  let ofPassing := (newest before.passing after.passing).flatMap fun p =>
    p.journal.map fun n => n.render p.plan.name
  let ofTasks := (newest before.system.journal after.system.journal).map (·.render)
  (ofPools ++ ofPassing ++ ofTasks).mergeSort fun a b => decide (a ≤ b)

/-- What happened between two points of a session, oldest first. -/
def eventsSince (before after : Session α) : List (Event α) :=
  (newest before.system.events after.system.events).reverse

/-- The report on a command; a brief one only counts what happened. -/
def report (brief log : Bool) (answer : Answer α) (before after : Session α) : Report α where
  answer
  view := if brief then none else some after.view
  happenings :=
    if brief then .count (before.eventsSince after).length else .all (before.eventsSince after)
  log := if log then some (before.logSince after) else none

/-- The reports on a list of commands. -/
def reports (schedule : Schedule α) (quiet log : Bool) (s : Session α) :
    List (Command α) → List (Report α)
  | [] => []
  | c :: rest =>
    let (answer, s') := step schedule s c
    report (quiet && !rest.isEmpty) log answer s s' :: reports schedule quiet log s' rest

end Session

/-- The reports of a script on a machine with `processors` processors, under a schedule. -/
def Script.runBy {α : Type} (processors : Nat) (schedule : Schedule α) (script : Script α) :
    List (Report α) :=
  (Session.start processors).reports schedule script.quiet script.log script.commands

/-- The processors of the machine that scripts are run on. -/
def scriptProcessors : Nat := 4

/-- The reports of a script. -/
def Script.run {α : Type} (script : Script α) : List (Report α) :=
  script.runBy scriptProcessors System.inTurns

end WorkerPool
