/-
# What the invariants of a program read, and the ticks that change it

The invariants of a program do not care in which cell a record lies, who is parked or what was
noted.  They read a `Ledger`: for each submission its record and its result, for each worker the
body that it runs, for each task what it holds, for each join how far it has come.  A `Tick` is
the smallest change of a ledger, and there are as many kinds of tick as there are things that can
happen to a submission, a task or a join.  Each carries what is known when it happens.

An invariant is proved once for each kind of tick and then holds of every program, because
every permitted action is a sequence of ticks (`ticks_act`).
-/
import Mathlib.Logic.Function.Basic
import Mathlib.Logic.Relation
import WorkerPool.Proofs.SystemSound

namespace WorkerPool

/-! ## 1. The ledger -/

/-- What a worker runs. -/
def Phase.run? : Phase → Option (Ticket × Job × Stage)
  | executing ticket job stage => some (ticket, job, stage)
  | _ => none

/-- What a worker runs, after the gate of run number `run` of a task was opened. -/
def openRun (task run : Nat) : Ticket × Job × Stage → Ticket × Job × Stage
  | (ticket, job, stage) => (ticket, job, stage.opened job task run)

/-- Where the result of a submission lies: its pool and its number. -/
def Submission.place (x : Submission) : Nat × Nat := (x.pool, x.ticket.number)

/-- What has become of a task, and the submissions that were accepted from it, newest first. -/
structure Holding where
  fate : Fate
  submissions : List Submission
deriving DecidableEq, Repr

/-- A program as its invariants read it. -/
@[ext]
structure Ledger (α : Type) where
  record : Submission → Option (Record Job)
  /-- Results by pool and submission number. -/
  result : Nat × Nat → Option (Value α)
  /-- Bodies by pool and worker. -/
  running : Nat × Nat → Option (Ticket × Job × Stage)
  /-- The next submission number of each pool. -/
  next : Nat → Option Nat
  faults : Nat → List Fault
  holding : Nat → Option Holding
  /-- The runs begun of each task. -/
  runs : Nat → Option Nat
  joiner : Nat → Option (Joiner α)
  clock : Nat
  leaving : List Leaving
  history : List (Happening α)

/-- The ledger of a program. -/
def Program.ledger {α : Type} (p : Program α) : Ledger α where
  record x := p.system.record? x
  result at' := p.system.pools[at'.1]?.bind fun pool => pool.results[at'.2]?
  running at' := (p.system.phase? at'.1 at'.2).bind Phase.run?
  next i := p.system.pools[i]?.map fun pool => pool.queue.next
  faults i := (p.system.pools[i]?.map fun pool => pool.faults).getD []
  holding a := p.system.tasks[a]?.map fun t => ⟨t.fate, t.submissions⟩
  runs a := p.system.tasks[a]?.map fun t => t.runs
  joiner n := p.system.joiners[n]?
  clock := p.system.clock
  leaving := p.leaving
  history := p.history

namespace Ledger

variable {α : Type}

/-- What a finished submission answers. -/
def outcome (g : Ledger α) (x : Submission) : Except Failure (Value α) :=
  match g.result x.place with
  | some value => .ok value
  | none => .error .taskPanicked

/-- Worker `w` is the one that runs the running record of `x`. -/
structure Executes (g : Ledger α) (x : Submission) (w : Nat) (job : Job) (stage : Stage) :
    Prop where
  running : g.running (x.pool, w) = some (x.ticket, job, stage)
  only : ∀ w' job' stage', g.running (x.pool, w') = some (x.ticket, job', stage') → w' = w
  status : ∃ r, g.record x = some r ∧ r.status = .running

/-- The record of `x` is there and has finished. -/
def IsFinished (g : Ledger α) (x : Submission) : Prop :=
  ∃ r, g.record x = some r ∧ r.status = .finished

/-- What a join that looks at its record comes to. -/
inductive Sees (g : Ledger α) (j : Joiner α) : JoinState α → Prop where
  | gone (h : g.record j.submission = none) : Sees g j (.answered (.error .notSubmitted))
  | finished {r : Record Job} (h : g.record j.submission = some r) (hs : r.status = .finished)
      (hm : r.joined = true) : Sees g j (.answered (g.outcome j.submission))
  | timeout {r : Record Job} (h : g.record j.submission = some r) (hs : r.status ≠ .finished)
      (hd : j.isDue g.clock = true) : Sees g j (.answered (.error .timeout))
  | waits {r : Record Job} (h : g.record j.submission = some r) (hs : r.status ≠ .finished)
      (hd : j.isDue g.clock = false) : Sees g j (.waiting false)

/-! ## 2. Changes -/

open Function (update)

/-- There is one more task. -/
def addTask (g : Ledger α) (a : Nat) : Ledger α :=
  { g with
    holding := update g.holding a (some ⟨.live, []⟩)
    runs := update g.runs a (some 0) }

/-- A submission of task `a` is accepted. -/
def accept (g : Ledger α) (x : Submission) (a : Nat) (held : Holding) : Ledger α :=
  { g with
    record := update g.record x (some ⟨x.ticket.number, .queued, false, false, some ⟨a⟩⟩)
    next := update g.next x.pool (some (x.ticket.number + 1))
    holding := update g.holding a (some { held with submissions := x :: held.submissions }) }

/-- A worker takes a record. -/
def claim (g : Ledger α) (x : Submission) (w : Nat) (r : Record Job) (job : Job) : Ledger α :=
  { g with
    record := update g.record x (some { r with status := .running, job := none })
    running := update g.running (x.pool, w) (some (x.ticket, job, .entering))
    history := .claimed x w :: g.history }

/-- A body begins as run number `run` of its task. -/
def beginBody (g : Ledger α) (x : Submission) (w run : Nat) (job : Job) (stage : Stage) :
    Ledger α :=
  { g with
    running := update g.running (x.pool, w) (some (x.ticket, job, stage))
    runs := update g.runs job.task (some run)
    history := .begun x job.task run :: g.history }

/-- A body ends. -/
def endBody (g : Ledger α) (x : Submission) (w : Nat) (job : Job) (e : Ending α)
    (result : Nat × Nat → Option (Value α)) (faults : Nat → List Fault) : Ledger α :=
  { g with
    running := update g.running (x.pool, w) (some (x.ticket, job, .over))
    result := result
    faults := faults
    history := .ended x e :: g.history }

/-- A record is finished, and every join of it is told. -/
def finish (g : Ledger α) (x : Submission) (w : Nat) (r : Record Job) : Ledger α :=
  { g with
    record := update g.record x
      (if r.detached then none else some { r with status := .finished })
    running := update g.running (x.pool, w) none
    joiner := fun n => (g.joiner n).map fun j => if j.submission = x then j.wake else j
    history := .finished x w :: g.history }

/-- The use of a task ends, and its submissions are on their way back. -/
def retire (g : Ledger α) (a : Nat) (held : Holding) (fate : Fate) : Ledger α :=
  { g with
    holding := update g.holding a (some { held with fate })
    leaving := g.leaving ++ held.submissions.reverse.map fun x => ⟨a, x, fate⟩ }

end Ledger

/-! ## 3. Ticks -/

open Function (update)

/-- The smallest changes of a ledger. -/
inductive Tick {α : Type} : Ledger α → Ledger α → Prop where
  | addPool {g : Ledger α} {i : Nat} (hi : g.next i = none) :
      Tick g { g with next := update g.next i (some 0) }
  | addTask {g : Ledger α} {a : Nat} (ha : g.holding a = none) : Tick g (g.addTask a)
  | elapse {g : Ledger α} (ms : Nat) :
      Tick g { g with
        clock := g.clock + ms
        joiner := fun n => (g.joiner n).map fun j =>
          if j.isDue (g.clock + ms) then j.wake else j }
  /-- A submission of a task in use is accepted. -/
  | accept {g : Ledger α} {x : Submission} {a : Nat} {h : Holding}
      (hnext : g.next x.pool = some x.ticket.number) (hrecord : g.record x = none)
      (hh : g.holding a = some h) (hlive : h.fate = .live) : Tick g (g.accept x a h)
  /-- A join in progress marks its record joined. -/
  | mark {g : Ledger α} (x : Submission) {n : Nat} {j : Joiner α} (hj : g.joiner n = some j)
      (hp : j.answer? = none) (hx : j.submission = x)
      (hdone : j.deadline = none ∨ g.IsFinished x) :
      Tick g { g with
        record := update g.record x ((g.record x).map fun r => { r with joined := true }) }
  | claim {g : Ledger α} {x : Submission} {w : Nat} {r : Record Job} {job : Job}
      (hr : g.record x = some r) (hs : r.status = .queued) (hj : r.job = some job)
      (hw : g.running (x.pool, w) = none) : Tick g (g.claim x w r job)
  | beginBody {g : Ledger α} {x : Submission} {w n : Nat} {job : Job} {stage : Stage}
      (hx : g.Executes x w job .entering) (hn : g.runs job.task = some n)
      (hs : stage = .atGate (n + 1) ∨ stage = .past (n + 1)) :
      Tick g (g.beginBody x w (n + 1) job stage)
  | openGate {g : Ledger α} (task run : Nat) :
      Tick g { g with running := fun at' => (g.running at').map (openRun task run) }
  /-- A body ends; its result has room if there was none before. -/
  | endBody {g : Ledger α} {x : Submission} {w run : Nat} {job : Job} {e : Ending α}
      {result : Nat × Nat → Option (Value α)} {faults : Nat → List Fault}
      (hx : g.Executes x w job (.past run))
      (hroom : g.result x.place = none →
        result = update g.result x.place e.result? ∧ faults = g.faults) :
      Tick g (g.endBody x w job e result faults)
  | finish {g : Ledger α} {x : Submission} {w : Nat} {job : Job} {r : Record Job}
      (hx : g.Executes x w job .over) (hr : g.record x = some r) : Tick g (g.finish x w r)
  /-- A task in use is joined; the join belongs to its most recent submission. -/
  | call {g : Ledger α} {a n : Nat} {h : Holding} {x : Submission} (deadline : Option Nat)
      (hh : g.holding a = some h) (hlive : h.fate = .live) (hx : h.submissions.head? = some x)
      (hn : g.joiner n = none) :
      Tick g { g with joiner := update g.joiner n (some ⟨a, x, deadline, .called⟩) }
  /-- A join in progress looks at its record. -/
  | look {g : Ledger α} {n : Nat} {j : Joiner α} {state : JoinState α}
      (hj : g.joiner n = some j) (hp : j.answer? = none) (hs : g.Sees j state) :
      Tick g { g with joiner := update g.joiner n (some { j with state }) }
  /-- The use of a task without a join in progress ends. -/
  | retire {g : Ledger α} {a : Nat} {h : Holding} {fate : Fate} (hh : g.holding a = some h)
      (hlive : h.fate = .live) (hfate : fate ≠ .live)
      (hfree : ∀ n j, g.joiner n = some j → j.task = a → j.answer? ≠ none)
      (hspent : fate = .released → ∀ x ∈ h.submissions, ∀ r, g.record x = some r →
        r.joined = true ∧ r.status = .finished) : Tick g (g.retire a h fate)
  /-- A finished record of a released task is taken out. -/
  | takeOut {g : Ledger α} {l : Leaving} {r : Record Job} (hl : l ∈ g.leaving)
      (hfate : l.fate = .released) (hr : g.record l.submission = some r)
      (hs : r.status = .finished) :
      Tick g { g with
        record := update g.record l.submission none
        leaving := g.leaving.erase l }
  /-- A record of a detached task is left to its pool. -/
  | leave {g : Ledger α} {l : Leaving} (hl : l ∈ g.leaving) (hfate : l.fate = .detached) :
      Tick g { g with
        record := update g.record l.submission ((g.record l.submission).bind fun r =>
          if r.status = .finished then none else some { r with detached := true })
        leaving := g.leaving.erase l }
  /-- Something else is given back; this never happens. -/
  | misfit {g : Ledger α} {l : Leaving} {faults : Nat → List Fault} (hl : l ∈ g.leaving)
      (hfate : l.fate ≠ .detached)
      (hr : l.fate = .released → ∀ r, g.record l.submission = some r → r.status ≠ .finished) :
      Tick g { g with faults := faults, leaving := g.leaving.erase l }

/-- Any number of ticks. -/
abbrev Ticks {α : Type} : Ledger α → Ledger α → Prop := Relation.ReflTransGen Tick

end WorkerPool
