/-
# Programs, and all that they can do

A `System` says what pools, tasks and joins are like at one moment.  A `Program` is a system in the
hands of any number of threads: callers act on it at any time and in any order (`Action`), and
every ready worker, join or shutdown may be the next to move.  An action is one section under
one lock, so that everything that other threads can do between two sections is an order of actions:

* a join is called, which finds its submission, and begins to wait later (`Move.joiner`);
* a task that is released or detached is taken out of use at once, and its records are given back
  one by one (`giveBack`).

A program also keeps the `history` of the bodies: what each move of a worker did to a submission.
It records and decides nothing.  The only thing that a caller may not do is to end the use of a task
while a join of it is in progress (`Permits`): the join borrows the task.
-/
import WorkerPool.System.Settle

namespace WorkerPool

/-! ## 1. What happens to a submission -/

/-- How a body ends. -/
inductive Ending (α : Type) where
  | returned (v : Value α)
  | panicked
deriving DecidableEq, Repr

/-- The result that a body leaves. -/
def Ending.result? {α : Type} : Ending α → Option (Value α)
  | returned v => some v
  | panicked => none

/-- The answer of a join to a submission whose body ended so. -/
def Ending.outcome {α : Type} : Ending α → Except Failure (Value α)
  | returned v => .ok v
  | panicked => .error .taskPanicked

/-- What a worker does to a submission. -/
inductive Happening (α : Type) where
  /-- The worker takes its record. -/
  | claimed (x : Submission) (worker : Nat)
  /-- Its body begins, as run number `run` of the task. -/
  | begun (x : Submission) (task run : Nat)
  /-- Its body ends. -/
  | ended (x : Submission) (ending : Ending α)
  /-- The worker marks its record finished. -/
  | finished (x : Submission) (worker : Nat)
deriving DecidableEq, Repr

/-- The submission that it happens to. -/
def Happening.submission {α : Type} : Happening α → Submission
  | claimed x _ => x
  | begun x _ _ => x
  | ended x _ => x
  | finished x _ => x

namespace System

variable {α : Type}

/-- The claim at the end of a section of a worker, seen from where the worker is after it. -/
def claimBy (s : System α) (pool worker : Nat) : List (Happening α) :=
  match s.phase? pool worker with
  | some (.executing ticket _ .entering) => [.claimed ⟨pool, ticket⟩ worker]
  | _ => []

/-- The end of run number `run` of a task, on a worker of a pool. -/
def ending (s : System α) (p : Pool α) (worker : Nat) (t : Task α) (run : Nat) : Ending α :=
  if t.body.panics.has run then .panicked else .returned (s.evaluate p worker t run).1

/-- What a move does to submissions, newest first. -/
def happenings (s : System α) (m : Move) : List (Happening α) :=
  match m with
  | .worker pool worker =>
    match s.phase? pool worker with
    | some .starting => (s.perform m).claimBy pool worker
    | some (.parked true) => (s.perform m).claimBy pool worker
    | some (.executing ticket job .entering) =>
      match s.tasks[job.task]? with
      | some t => [.begun ⟨pool, ticket⟩ job.task (t.runs + 1)]
      | none => []
    | some (.executing ticket job (.past run)) =>
      match s.pools[pool]?, s.tasks[job.task]? with
      | some p, some t => [.ended ⟨pool, ticket⟩ (s.ending p worker t run)]
      | _, _ => []
    | some (.executing ticket _ .over) =>
      (s.perform m).claimBy pool worker ++ [.finished ⟨pool, ticket⟩ worker]
    | _ => []
  | _ => []

end System

/-! ## 2. Programs and their actions -/

/-- A submission of a task that is no longer in use, on its way back to its pool. -/
structure Leaving where
  task : Nat
  submission : Submission
  /-- What becomes of the task; it says whether the record is taken out or left to its pool. -/
  fate : Fate
deriving DecidableEq, Repr

/-- Gives a record back: a released task takes it out, a detached one leaves it to the pool. -/
def Leaving.giveBack {α : Type} (l : Leaving) (p : Pool α) : Pool α :=
  match l.fate with
  | .released => p.unlink l.submission.ticket
  | .detached => p.detach l.submission.ticket
  | .live => p

/-- A system in the hands of its threads. -/
structure Program (α : Type) where
  system : System α
  /-- The submissions that a release or a detachment has still to give back. -/
  leaving : List Leaving
  /-- What workers did to submissions, newest first. -/
  history : List (Happening α)

/-- One section of one thread. -/
inductive Action (α : Type) where
  | addPool (id : String) (plan : Plan)
  | addTask (id : String) (body : Body α)
  | submit (pool task : Nat)
  /-- A join is called, for as long as it takes if there is no limit. -/
  | join (task : Nat) (limit : Option Patience)
  | release (task : Nat)
  | detach (task : Nat)
  /-- A submission on its way back arrives. -/
  | giveBack (l : Leaving)
  | shutdown (pool : Nat)
  | dropPool (pool : Nat)
  /-- Threads can be started from now on, or cannot for some cause. -/
  | refuseThreads (cause : Option String)
  | openGate (task run : Nat)
  | elapse (ms : Nat)
  /-- A worker, a join or a shutdown moves. -/
  | move (m : Move)

namespace Program

variable {α : Type}

/-- Nothing but a machine with `processors` processors. -/
def start (processors : Nat) : Program α := ⟨.start processors, [], []⟩

/-- Changes the system. -/
def onSystem (p : Program α) (f : System α → System α) : Program α :=
  { p with system := f p.system }

/-- Takes a task out of use.  Its submissions, oldest first, are given back from now on. -/
def retire (p : Program α) (task : Nat) (fate : Fate) : Program α :=
  { p with
    system := p.system.modifyTask task fun t => t.retire fate
    leaving :=
      p.leaving ++ (p.system.submissions task).reverse.map fun x => ⟨task, x, fate⟩ }

/-- What an action does. -/
def act (p : Program α) : Action α → Program α
  | .addPool id plan => p.onSystem (·.addPool id plan)
  | .addTask id body => p.onSystem (·.addTask id body)
  | .submit pool task => p.onSystem fun s => (s.submit pool task).2
  | .join task limit => p.onSystem fun s => (s.call task limit).2
  | .release task =>
    if p.system.canRelease task then p.retire task .released
    else p.onSystem (·.note (.releaseRefused (p.system.submissions task).length))
  | .detach task =>
    let xs := p.system.submissions task
    (if xs.isEmpty then p else p.onSystem (·.note (.detaching xs.length))).retire task .detached
  | .giveBack l =>
    if l ∈ p.leaving then
      { p with
        system := p.system.modifyPool l.submission.pool l.giveBack
        leaving := p.leaving.erase l }
    else p
  | .shutdown pool => p.onSystem fun s => (s.shutdown pool).2
  | .dropPool pool => p.onSystem (·.dropPool pool)
  | .refuseThreads cause => p.onSystem ({ · with refusal := cause })
  | .openGate task run => p.onSystem (·.openGate task run)
  | .elapse ms => p.onSystem (·.elapse ms)
  | .move m =>
    { p with
      system := p.system.perform m
      history := p.system.happenings m ++ p.history }

/-- Whether no join of a task is in progress. -/
def IsFree (p : Program α) (task : Nat) : Prop :=
  ∀ j ∈ p.system.joiners, j.task = task → j.answer?.isSome

/-- What a caller may do: the use of a task ends only when no join of it is in progress. -/
def Permits (p : Program α) : Action α → Prop
  | .release task => p.IsFree task
  | .detach task => p.IsFree task
  | _ => True

instance (p : Program α) (task : Nat) : Decidable (p.IsFree task) :=
  inferInstanceAs (Decidable (∀ j ∈ p.system.joiners, j.task = task → j.answer?.isSome))

instance (p : Program α) : ∀ a : Action α, Decidable (p.Permits a)
  | .release task => inferInstanceAs (Decidable (p.IsFree task))
  | .detach task => inferInstanceAs (Decidable (p.IsFree task))
  | .addPool .. | .addTask .. | .submit .. | .join .. | .giveBack _ | .shutdown _ | .dropPool _
  | .refuseThreads _ | .openGate .. | .elapse _ | .move _ => isTrue trivial

/-! ## 3. Runs -/

/-- `Leads p q`: some permitted actions, in this order, take `p` to `q`. -/
inductive Leads (p : Program α) : Program α → Prop where
  | refl : Leads p p
  | step {q : Program α} (a : Action α) (h : Leads p q) (ha : q.Permits a) : Leads p (q.act a)

/-- A program that some run from the start reaches. -/
def Reachable (p : Program α) : Prop := ∃ processors, Leads (start processors) p

theorem Leads.trans {p q r : Program α} (h : Leads p q) (h' : Leads q r) : Leads p r := by
  induction h' with
  | refl => exact h
  | step a _ ha ih => exact ih.step a ha

theorem Reachable.leads {p q : Program α} (h : p.Reachable) (h' : Leads p q) : q.Reachable := by
  obtain ⟨processors, h⟩ := h
  exact ⟨processors, h.trans h'⟩

/-- The program after a list of actions. -/
def run (p : Program α) : List (Action α) → Program α
  | [] => p
  | a :: rest => (p.act a).run rest

/-- Whether each action of a list is permitted when its turn comes. -/
def Allows (p : Program α) : List (Action α) → Prop
  | [] => True
  | a :: rest => p.Permits a ∧ (p.act a).Allows rest

instance decidableAllows (p : Program α) : ∀ as : List (Action α), Decidable (p.Allows as)
  | [] => isTrue trivial
  | a :: rest =>
    have := decidableAllows (p.act a) rest
    inferInstanceAs (Decidable (p.Permits a ∧ (p.act a).Allows rest))

theorem leads_run : ∀ (as : List (Action α)) (p : Program α), p.Allows as → Leads p (p.run as)
  | [], _, _ => .refl
  | a :: rest, p, h => (Leads.refl.step a h.1).trans (leads_run rest (p.act a) h.2)

theorem run_append (p : Program α) (as bs : List (Action α)) :
    p.run (as ++ bs) = (p.run as).run bs := by
  induction as generalizing p with
  | nil => rfl
  | cons a rest ih => exact ih (p.act a)

theorem allows_append (p : Program α) (as bs : List (Action α)) :
    p.Allows (as ++ bs) ↔ p.Allows as ∧ (p.run as).Allows bs := by
  induction as generalizing p with
  | nil => simp [Allows, run]
  | cons a rest ih => simp only [List.cons_append, Allows, run, ih (p.act a), and_assoc]

/-- Only moves make history. -/
theorem history_act (p : Program α) (a : Action α) :
    (p.act a).history = p.history ∨
      ∃ m, a = .move m ∧ (p.act a).history = p.system.happenings m ++ p.history := by
  cases a with
  | move m => exact Or.inr ⟨m, rfl, rfl⟩
  | release task =>
    simp only [act]
    split <;> exact Or.inl rfl
  | detach task =>
    simp only [act]
    split <;> exact Or.inl rfl
  | giveBack l =>
    simp only [act]
    split <;> exact Or.inl rfl
  | _ => exact Or.inl rfl

/-- History is never rewritten. -/
theorem history_suffix_act (p : Program α) (a : Action α) : p.history <:+ (p.act a).history := by
  rcases p.history_act a with he | ⟨m, -, he⟩
  · exact he ▸ List.suffix_rfl
  · exact he ▸ List.suffix_append _ _

theorem Leads.history_suffix {p q : Program α} (h : Leads p q) : p.history <:+ q.history := by
  induction h with
  | refl => exact List.suffix_rfl
  | step a _ _ ih => exact ih.trans (history_suffix_act _ a)

/-! ## 4. A small program -/

/-- One pool with one worker, and one task that gives the number of its run. -/
def counting : Program Nat :=
  (start 1).run
    [.addPool "pool" ⟨"pool", 1, 4, none, by decide, by decide, by decide, by decide⟩,
      .addTask "task" ⟨.count, .never, .never, 0⟩]

theorem counting_reachable {as : List (Action Nat)} (h : counting.Allows as) :
    (counting.run as).Reachable :=
  ⟨1, (leads_run _ _ (by decide)).trans (leads_run as counting h)⟩

end Program
end WorkerPool
