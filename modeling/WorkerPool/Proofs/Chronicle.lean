/-
# What happens to a submission happens once

The life of a submission has five stations: it waits, is claimed by a worker, its body begins, ends,
and the record is finished by the worker that claimed it.  `Ledger.Lives` ties a life to
everything that can be seen of it: the history so far, the status of the record, the result and
the worker that runs the body.  `Ledger.Chronicled` says that every accepted submission has such a
life and that no other is in the history.  So nothing happens twice or out of order.

Runs are counted per task: the bodies of a task began as its runs 1, 2, 3, ..., each once.
-/
import WorkerPool.Proofs.Ownership

namespace WorkerPool

open Function (update)

/-! ## 1. Lives -/

/-- How far a submission has come. -/
inductive Life (α : Type) where
  | waiting
  | claimed (worker : Nat)
  | begun (worker run : Nat)
  | ended (worker run : Nat) (ending : Ending α)
  | finished (worker run : Nat) (ending : Ending α)

namespace Life

variable {α : Type}

/-- All that has happened to a submission of task `a` until then, newest first. -/
def story (x : Submission) (a : Nat) : Life α → List (Happening α)
  | waiting => []
  | claimed w => [.claimed x w]
  | begun w run => [.begun x a run, .claimed x w]
  | ended w run e => [.ended x e, .begun x a run, .claimed x w]
  | finished w run e => [.finished x w, .ended x e, .begun x a run, .claimed x w]

def status : Life α → Status
  | waiting => .queued
  | claimed _ => .running
  | begun .. => .running
  | ended .. => .running
  | finished .. => .finished

/-- The result that the body has left. -/
def result? : Life α → Option (Value α)
  | ended _ _ e => e.result?
  | finished _ _ e => e.result?
  | _ => none

/-- Whether worker `w` is at this stage of the body. -/
def IsAt (w : Nat) (stage : Stage) : Life α → Prop
  | waiting => False
  | claimed w' => w = w' ∧ stage = .entering
  | begun w' run => w = w' ∧ (stage = .atGate run ∨ stage = .past run)
  | ended w' _ _ => w = w' ∧ stage = .over
  | finished .. => False

theorem IsAt.opened {w : Nat} {stage : Stage} {life : Life α} (h : life.IsAt w stage) (job : Job)
    (task run : Nat) : life.IsAt w (stage.opened job task run) := by
  cases life with
  | begun w' n =>
    obtain ⟨rfl, rfl | rfl⟩ := h
    · refine ⟨rfl, ?_⟩
      unfold Stage.opened
      dsimp only
      split
      · exact Or.inr rfl
      · exact Or.inl rfl
    · exact ⟨rfl, Or.inr rfl⟩
  | claimed w' =>
    obtain ⟨rfl, rfl⟩ := h
    exact ⟨rfl, rfl⟩
  | ended w' n e =>
    obtain ⟨rfl, rfl⟩ := h
    exact ⟨rfl, rfl⟩
  | waiting => exact h
  | finished w' n e => exact h

end Life

/-- The status of a record; one that is gone had finished. -/
def Record.lastStatus {J : Type} : Option (Record J) → Status
  | some r => r.status
  | none => .finished

/-- The number of a run of task `a`, if that is what has begun. -/
def Happening.runOf? {α : Type} (a : Nat) : Happening α → Option Nat
  | begun _ b run => if b = a then some run else none
  | _ => none

namespace Ledger

variable {α : Type} {g g' : Ledger α}

/-- What has happened to a submission, newest first. -/
def story (g : Ledger α) (x : Submission) : List (Happening α) :=
  g.history.filter fun e => e.submission = x

/-- The runs of a task that have begun, newest first. -/
def runsOf (g : Ledger α) (a : Nat) : List Nat := g.history.filterMap (·.runOf? a)

/-- The status of the record of an accepted submission. -/
def statusOf (g : Ledger α) (x : Submission) : Status := Record.lastStatus (g.record x)

/-- The life of a submission of task `a`, as everybody can see it. -/
structure Lives (g : Ledger α) (x : Submission) (a : Nat) (life : Life α) : Prop where
  story : g.story x = life.story x a
  status : g.statusOf x = life.status
  result : g.result x.place = life.result?
  body : life.status = .running →
    ∃ w stage, life.IsAt w stage ∧ g.running (x.pool, w) = some (x.ticket, ⟨a⟩, stage)

/-- Every accepted submission has a life, and nothing else happens. -/
structure Chronicled (g : Ledger α) : Prop where
  lives : ∀ a, ∀ x ∈ g.submissions a, ∃ life, g.Lives x a life
  told : ∀ e ∈ g.history, ∃ a, e.submission ∈ g.submissions a
  result_lt : ∀ i n, g.result (i, n) ≠ none → ∃ m, g.next i = some m ∧ n < m
  runs : ∀ a n, g.runs a = some n → g.runsOf a = (List.range' 1 n).reverse
  /-- No internal check has failed. -/
  sane : ∀ i, g.faults i = []

theorem Chronicled.start (processors : Nat) :
    (Program.start processors : Program α).ledger.Chronicled := by
  constructor <;> simp [Program.start, Program.ledger, System.start, submissions]

theorem mem_story {x : Submission} {e : Happening α} :
    e ∈ g.story x ↔ e ∈ g.history ∧ e.submission = x := by
  simp [story]

theorem story_cons_self {e : Happening α} (hh : g'.history = e :: g.history) {x : Submission}
    (he : e.submission = x) : g'.story x = e :: g.story x := by
  simp [story, hh, he]

theorem story_cons_of_ne {e : Happening α} (hh : g'.history = e :: g.history) {y : Submission}
    (he : e.submission ≠ y) : g'.story y = g.story y := by
  simp [story, hh, he]

theorem statusOf_of_record {x : Submission} {r : Record Job} (hr : g.record x = some r) :
    g.statusOf x = r.status := by
  rw [statusOf, hr]
  rfl

theorem statusOf_update_self {x : Submission} {r : Option (Record Job)}
    (hr : g'.record = update g.record x r) : g'.statusOf x = Record.lastStatus r := by
  rw [statusOf, hr, Function.update_self]

theorem statusOf_update_of_ne {x y : Submission} {r : Option (Record Job)}
    (hr : g'.record = update g.record x r) (hy : y ≠ x) : g'.statusOf y = g.statusOf y := by
  rw [statusOf, hr, Function.update_of_ne hy]
  rfl

/-- What has not finished has not finished after a change of the record of `x`, if that does not
finish it. -/
theorem unfinished_update {x y : Submission} {r : Option (Record Job)}
    (hr : g'.record = update g.record x r)
    (hx : y = x → g.statusOf x ≠ .finished → Record.lastStatus r ≠ .finished)
    (hy : g.statusOf y ≠ .finished) : g'.statusOf y ≠ .finished := by
  by_cases he : y = x
  · subst he
    rw [statusOf_update_self hr]
    exact hx rfl hy
  · rwa [statusOf_update_of_ne hr he]

/-- A change elsewhere. -/
theorem Lives.frame {x : Submission} {a : Nat} {life : Life α} (h : g.Lives x a life)
    (hstory : g'.story x = g.story x) (hstatus : g'.statusOf x = g.statusOf x)
    (hresult : g'.result x.place = g.result x.place)
    (hrunning : ∀ w job stage, g.running (x.pool, w) = some (x.ticket, job, stage) →
      g'.running (x.pool, w) = some (x.ticket, job, stage)) : g'.Lives x a life where
  story := hstory.trans h.story
  status := hstatus.trans h.status
  result := hresult.trans h.result
  body := fun hs => by
    obtain ⟨w, stage, hat, hrun⟩ := h.body hs
    exact ⟨w, stage, hat, hrunning w _ _ hrun⟩

/-- One thing more has happened to it. -/
theorem Lives.advance {x : Submission} {a : Nat} {life : Life α} {e : Happening α}
    (h : g.Lives x a life) (life' : Life α) (hh : g'.history = e :: g.history)
    (he : e.submission = x) (hstory : life'.story x a = e :: life.story x a)
    (hstatus : g'.statusOf x = life'.status)
    (hresult : g'.result x.place = life'.result?)
    (hbody : life'.status = .running →
      ∃ w stage, life'.IsAt w stage ∧ g'.running (x.pool, w) = some (x.ticket, ⟨a⟩, stage)) :
    g'.Lives x a life' where
  story := by rw [story_cons_self hh he, h.story, hstory]
  status := hstatus
  result := hresult
  body := hbody

/-- The worker that runs a body is the one that its life tells of. -/
theorem Lives.isAt {x : Submission} {a w : Nat} {life : Life α} {job : Job} {stage : Stage}
    (h : g.Lives x a life) (hx : g.Executes x w job stage) : life.IsAt w stage := by
  obtain ⟨r, hr, hs⟩ := hx.status
  have hstatus : life.status = .running := by
    rw [← h.status, statusOf_of_record hr, hs]
  obtain ⟨w', stage', hat, hrun⟩ := h.body hstatus
  obtain rfl := hx.only w' _ _ hrun
  obtain ⟨-, rfl⟩ : job = ⟨a⟩ ∧ stage = stage' := by
    simpa using hx.running.symm.trans hrun
  exact hat

/-! ## 2. Every tick keeps it -/

/-- A tick that happens to no submission: each keeps its status, result and body. -/
theorem Chronicled.frame (h : g.Chronicled) (hsubs : ∀ a, g'.submissions a = g.submissions a)
    (hhistory : g'.history = g.history) (hstatus : ∀ x, g'.statusOf x = g.statusOf x)
    (hresult : g'.result = g.result)
    (hrunning : ∀ i w k job stage, g.running (i, w) = some (k, job, stage) →
      g'.running (i, w) = some (k, job, stage))
    (hnext : ∀ i n, g.next i = some n → g'.next i = some n)
    (hruns : ∀ a n, g'.runs a = some n → g'.runsOf a = (List.range' 1 n).reverse)
    (hfaults : g'.faults = g.faults) : g'.Chronicled where
  lives := by
    intro a x hx
    obtain ⟨life, hlife⟩ := h.lives a x (hsubs a ▸ hx)
    exact ⟨life, hlife.frame (by simp only [story, hhistory]) (hstatus x) (by rw [hresult])
      fun w job stage hw => hrunning x.pool w x.ticket job stage hw⟩
  told := by
    intro e he
    obtain ⟨a, ha⟩ := h.told e (hhistory ▸ he)
    exact ⟨a, (hsubs a).symm ▸ ha⟩
  result_lt := by
    intro i n hn
    obtain ⟨m, hm, hlt⟩ := h.result_lt i n (hresult ▸ hn)
    exact ⟨m, hnext i m hm, hlt⟩
  runs := hruns
  sane := fun i => by rw [hfaults]; exact h.sane i

/-- A record changes, and its status does not. -/
theorem Chronicled.setRecord (h : g.Chronicled) {x : Submission} {r : Option (Record Job)}
    {leaving : List Leaving} (hg' : g' = { g with record := update g.record x r, leaving })
    (hr : Record.lastStatus r = Record.lastStatus (g.record x)) : g'.Chronicled := by
  subst hg'
  refine h.frame (fun _ => rfl) rfl (fun y => ?_) rfl (fun _ _ _ _ _ hw => hw) (fun _ _ hn => hn)
    h.runs rfl
  by_cases hy : y = x
  · subst hy
    exact (statusOf_update_self rfl).trans hr
  · exact statusOf_update_of_ne rfl hy

/-- A tick that happens to `x` alone, which then has the life `life'`. -/
theorem Chronicled.step (h : g.Chronicled) (ho : g.Owned) {x : Submission} {a w : Nat}
    {e : Happening α} {life' : Life α} (hx : x ∈ g.submissions a)
    (hsubs : ∀ b, g'.submissions b = g.submissions b) (he : e.submission = x)
    (hhistory : g'.history = e :: g.history)
    (hstatus : ∀ y, y ≠ x → g'.statusOf y = g.statusOf y)
    (hresult : ∀ at', at' ≠ x.place → g'.result at' = g.result at')
    (hfree : ∀ k job stage, g.running (x.pool, w) = some (k, job, stage) → k = x.ticket)
    (hrunning : ∀ at', at' ≠ (x.pool, w) → g'.running at' = g.running at')
    (hnext : g'.next = g.next) (hlife : g'.Lives x a life')
    (hruns : ∀ b n, g'.runs b = some n → g'.runsOf b = (List.range' 1 n).reverse)
    (hfaults : g'.faults = g.faults) : g'.Chronicled where
  lives := by
    intro b y hy
    rw [hsubs] at hy
    by_cases hyx : y = x
    · subst hyx
      obtain rfl := ho.owner_unique hy hx
      exact ⟨life', hlife⟩
    · obtain ⟨life, hy'⟩ := h.lives b y hy
      refine ⟨life, hy'.frame ?_ (hstatus y hyx) (hresult _ ?_) fun w' job stage hw => ?_⟩
      · exact story_cons_of_ne hhistory (he ▸ Ne.symm hyx)
      · exact fun hplace => hyx (ho.unique b a y hy x hx hplace).2
      · rw [hrunning]
        · exact hw
        · -- the body of another submission runs elsewhere
          intro hat
          obtain ⟨hpool, rfl⟩ := Prod.mk.inj hat
          rw [hpool] at hw
          have hk := hfree _ _ _ hw
          apply hyx
          cases x; cases y
          simp_all
  told := by
    intro e' he'
    rw [hhistory] at he'
    rcases List.mem_cons.mp he' with rfl | he'
    · exact ⟨a, (hsubs a).symm ▸ he ▸ hx⟩
    · obtain ⟨b, hb⟩ := h.told e' he'
      exact ⟨b, (hsubs b).symm ▸ hb⟩
  result_lt := by
    intro i n hn
    rw [hnext]
    by_cases hplace : (i, n) = x.place
    · obtain ⟨m, hm, hlt⟩ := ho.number_lt a x hx
      obtain ⟨rfl, rfl⟩ := Prod.mk.inj hplace
      exact ⟨m, hm, hlt⟩
    · exact h.result_lt i n (hresult _ hplace ▸ hn)
  runs := hruns
  sane := fun i => by rw [hfaults]; exact h.sane i

theorem runsOf_cons {e : Happening α} (hh : g'.history = e :: g.history) (a : Nat) :
    g'.runsOf a = (e.runOf? a).toList ++ g.runsOf a := by
  simp only [runsOf, hh, List.filterMap_cons]
  cases e.runOf? a <;> rfl

/-- What happens other than that a body begins does not change the runs. -/
theorem Chronicled.runs_of_cons (h : g.Chronicled) {e : Happening α}
    (hh : g'.history = e :: g.history) (he : ∀ a, e.runOf? a = none) (hruns : g'.runs = g.runs)
    (a n : Nat) (hn : g'.runs a = some n) : g'.runsOf a = (List.range' 1 n).reverse := by
  rw [runsOf_cons hh, he]
  exact h.runs a n (hruns ▸ hn)

theorem Chronicled.claim (h : g.Chronicled) (ho : g.Owned) {x : Submission} {w : Nat}
    {r : Record Job} {job : Job} (hr : g.record x = some r) (hs : r.status = .queued)
    (hj : r.job = some job) (hw : g.running (x.pool, w) = none) :
    (g.claim x w r job).Chronicled := by
  obtain ⟨a, -, -, hx, hjob, -⟩ := ho.linked x r hr
  have hja : job = ⟨a⟩ := by cases job; exact congrArg Job.mk (hjob _ hj)
  obtain ⟨life, hlife⟩ := h.lives a x hx
  have hqueued : life.status = .queued := by
    rw [← hlife.status, statusOf_of_record hr, hs]
  obtain rfl : life = .waiting := by cases life <;> simp [Life.status] at hqueued ⊢
  have hbody : update g.running (x.pool, w) (some (x.ticket, job, .entering)) (x.pool, w) =
      some (x.ticket, ⟨a⟩, .entering) := by
    rw [Function.update_self, hja]
  refine h.step ho hx (fun _ => rfl) rfl rfl (fun y hy => statusOf_update_of_ne rfl hy)
    (fun _ _ => rfl) (fun k job' stage hk => absurd (hk.symm.trans hw) (by simp))
    (fun at' hat => Function.update_of_ne hat _ _) rfl
    (hlife.advance (.claimed w) rfl rfl rfl ((statusOf_update_self rfl).trans rfl)
      hlife.result fun _ => ⟨w, .entering, ⟨rfl, rfl⟩, hbody⟩)
    (h.runs_of_cons rfl (fun _ => rfl) rfl) rfl

/-- The submission that a worker executes, and its life. -/
theorem Chronicled.executed (h : g.Chronicled) (ho : g.Owned) {x : Submission} {w : Nat} {job : Job}
    {stage : Stage} (hx : g.Executes x w job stage) :
    x ∈ g.submissions job.task ∧ ∃ life, g.Lives x job.task life ∧ life.IsAt w stage := by
  have hmem : x ∈ g.submissions job.task := ho.running _ _ _ _ _ hx.running
  obtain ⟨life, hlife⟩ := h.lives job.task x hmem
  exact ⟨hmem, life, hlife, hlife.isAt hx⟩

/-- Nothing else is where a worker executes a submission. -/
theorem Executes.ticket_eq {x : Submission} {w : Nat} {job : Job} {stage : Stage}
    (hx : g.Executes x w job stage) (k : Ticket) (job' : Job) (stage' : Stage)
    (hk : g.running (x.pool, w) = some (k, job', stage')) : k = x.ticket :=
  (Prod.mk.inj (Option.some.inj (hk.symm.trans hx.running))).1

theorem Chronicled.beginBody (h : g.Chronicled) (ho : g.Owned) {x : Submission} {w n : Nat}
    {job : Job} {stage : Stage} (hx : g.Executes x w job .entering)
    (hn : g.runs job.task = some n) (hs : stage = .atGate (n + 1) ∨ stage = .past (n + 1)) :
    (g.beginBody x w (n + 1) job stage).Chronicled := by
  obtain ⟨hmem, life, hlife, hat⟩ := h.executed ho hx
  obtain rfl : life = .claimed w := by
    cases life <;> simp [Life.IsAt] at hat
    rw [hat]
  refine h.step ho hmem (fun _ => rfl) rfl rfl (fun _ _ => rfl) (fun _ _ => rfl) hx.ticket_eq
    (fun at' hat => Function.update_of_ne hat _ _) rfl
    (hlife.advance (.begun w (n + 1)) rfl rfl rfl hlife.status hlife.result fun _ =>
      ⟨w, stage, ⟨rfl, hs⟩, Function.update_self ..⟩) (fun b m hm => ?_) rfl
  rw [runsOf_cons rfl]
  replace hm : update g.runs job.task (some (n + 1)) b = some m := hm
  by_cases hb : b = job.task
  · subst hb
    rw [Function.update_self] at hm
    obtain rfl := Option.some.inj hm
    simp [Happening.runOf?, h.runs _ n hn, List.range'_concat, Nat.add_comm]
  · rw [Function.update_of_ne hb] at hm
    have hne : ¬ job.task = b := fun he => hb he.symm
    simpa [Happening.runOf?, hne] using h.runs b m hm

theorem Chronicled.endBody (h : g.Chronicled) (ho : g.Owned) {x : Submission} {w run : Nat}
    {job : Job} {e : Ending α} {result : Nat × Nat → Option (Value α)} {faults : Nat → List Fault}
    (hx : g.Executes x w job (.past run))
    (hroom : g.result x.place = none →
      result = update g.result x.place e.result? ∧ faults = g.faults) :
    (g.endBody x w job e result faults).Chronicled := by
  obtain ⟨hmem, life, hlife, hat⟩ := h.executed ho hx
  obtain rfl : life = .begun w run := by
    cases life <;> simp [Life.IsAt] at hat
    rw [hat.1, hat.2]
  -- the body has left nothing before
  obtain ⟨rfl, rfl⟩ := hroom hlife.result
  exact h.step ho hmem (fun _ => rfl) rfl rfl (fun _ _ => rfl)
    (fun at' hat => Function.update_of_ne hat _ _) hx.ticket_eq
    (fun at' hat => Function.update_of_ne hat _ _) rfl
    (hlife.advance (.ended w run e) rfl rfl rfl hlife.status (Function.update_self ..) fun _ =>
      ⟨w, .over, ⟨rfl, rfl⟩, Function.update_self ..⟩) (h.runs_of_cons rfl (fun _ => rfl) rfl) rfl

theorem Chronicled.finish (h : g.Chronicled) (ho : g.Owned) {x : Submission} {w : Nat} {job : Job}
    {r : Record Job} (hx : g.Executes x w job .over) : (g.finish x w r).Chronicled := by
  obtain ⟨hmem, life, hlife, hat⟩ := h.executed ho hx
  obtain ⟨run, e, rfl⟩ : ∃ run e, life = .ended w run e := by
    cases life <;> simp [Life.IsAt] at hat
    exact ⟨_, _, by rw [hat]⟩
  have hfinished :
      Record.lastStatus (if r.detached then none else some { r with status := .finished }) =
        .finished := by split <;> rfl
  exact h.step ho hmem (fun _ => rfl) rfl rfl (fun y hy => statusOf_update_of_ne rfl hy)
    (fun _ _ => rfl) hx.ticket_eq (fun at' hat => Function.update_of_ne hat _ _) rfl
    (hlife.advance (.finished w run e) rfl rfl rfl ((statusOf_update_self rfl).trans hfinished)
      hlife.result fun hs => absurd hs (by simp [Life.status]))
    (h.runs_of_cons rfl (fun _ => rfl) rfl) rfl

/-- An accepted submission waits; nothing has happened to it before. -/
theorem Chronicled.accept (h : g.Chronicled) (ho : g.Owned) {x : Submission} {a : Nat}
    {held : Holding} (hnext : g.next x.pool = some x.ticket.number)
    (hh : g.holding a = some held) : (g.accept x a held).Chronicled := by
  have hrecord : (g.accept x a held).record = update g.record x (some _) := rfl
  have hold {b : Nat} {y : Submission} (hy : y ∈ g.submissions b) :
      y ∈ (g.accept x a held).submissions b := (mem_submissions_accept hh).mpr (Or.inl hy)
  have hnew : g.story x = [] := by
    refine List.filter_eq_nil_iff.mpr fun e he hx => ?_
    obtain ⟨b, hb⟩ := h.told e he
    exact ho.place_ne_next hnext hb (by rw [of_decide_eq_true hx])
  have hnone : g.result x.place = none := by
    by_contra hne
    obtain ⟨m, hm, hlt⟩ := h.result_lt _ _ hne
    obtain rfl := Option.some.inj (hnext.symm.trans hm)
    exact Nat.lt_irrefl _ hlt
  refine ⟨fun b y hy => ?_, fun e he => ?_, fun i n hn => ?_, h.runs, h.sane⟩
  · rcases (mem_submissions_accept hh).mp hy with hy | ⟨rfl, rfl⟩
    · obtain ⟨life, hlife⟩ := h.lives b y hy
      have hyx : y ≠ x := fun he => ho.place_ne_next hnext hy (he ▸ rfl)
      exact ⟨life, hlife.frame rfl (statusOf_update_of_ne hrecord hyx) rfl fun _ _ _ hw => hw⟩
    · exact ⟨.waiting, hnew, statusOf_update_self hrecord, hnone,
        fun hs => absurd hs (by simp [Life.status])⟩
  · obtain ⟨b, hb⟩ := h.told e he
    exact ⟨b, hold hb⟩
  · obtain ⟨m, hm, hlt⟩ := h.result_lt i n hn
    by_cases hi : i = x.pool
    · subst hi
      obtain rfl := Option.some.inj (hnext.symm.trans hm)
      exact ⟨_, Function.update_self .., Nat.lt_succ_of_lt hlt⟩
    · exact ⟨m, (Function.update_of_ne hi _ _).trans hm, hlt⟩

/-- A run that began belongs to the task of its submission. -/
theorem Chronicled.mem_of_begun (h : g.Chronicled) {x : Submission} {a run : Nat}
    (hx : .begun x a run ∈ g.history) : x ∈ g.submissions a := by
  obtain ⟨b, hb⟩ := h.told _ hx
  obtain ⟨life, hlife⟩ := h.lives b x hb
  have hmem : .begun x a run ∈ g.story x := mem_story.mpr ⟨hx, rfl⟩
  rw [hlife.story] at hmem
  obtain rfl : a = b := by
    cases life <;> simp [Life.story] at hmem <;> exact hmem.1
  exact hb

/-- Opening a gate lets a body go on, and that is all. -/
theorem Chronicled.openGate (h : g.Chronicled) (task run : Nat) :
    { g with running := fun at' => (g.running at').map (openRun task run) }.Chronicled where
  lives := by
    intro a x hx
    obtain ⟨life, hlife⟩ := h.lives a x hx
    refine ⟨life, hlife.story, hlife.status, hlife.result, fun hs => ?_⟩
    obtain ⟨w, stage, hat, hw⟩ := hlife.body hs
    exact ⟨w, stage.opened ⟨a⟩ task run, hat.opened _ _ _, by simp [hw, openRun]⟩
  told := h.told
  result_lt := h.result_lt
  runs := h.runs
  sane := h.sane

theorem Chronicled.tick (h : g.Chronicled) (ho : g.Owned) (ht : Tick g g') : g'.Chronicled := by
  cases ht with
  | @addPool i hi =>
    refine h.frame (fun _ => rfl) rfl (fun _ => rfl) rfl (fun _ _ _ _ _ hw => hw) (fun j n hn => ?_)
      h.runs rfl
    refine (Function.update_of_ne ?_ _ _).trans hn
    rintro rfl
    exact absurd (hn.symm.trans hi) (by simp)
  | @addTask a ha =>
    refine h.frame (submissions_addTask ha) rfl (fun _ => rfl) rfl (fun _ _ _ _ _ hw => hw)
      (fun _ _ hn => hn) (fun b n hn => ?_) rfl
    replace hn : update g.runs a (some 0) b = some n := hn
    rw [Function.update_apply] at hn
    split at hn
    · next hb =>
      -- no run of a task is known before the task
      obtain rfl := Option.some.inj hn
      refine List.filterMap_eq_nil_iff.mpr fun e he => ?_
      cases e with
      | begun x c run =>
        have hc : c ≠ b := by
          rintro rfl
          simpa [submissions, hb, ha] using h.mem_of_begun he
        simp [Happening.runOf?, hc]
      | _ => rfl
    · exact h.runs b n hn
  | accept hnext hrecord hh hlive => exact h.accept ho hnext hh
  | claim hr hs hj hw => exact h.claim ho hr hs hj hw
  | beginBody hx hn hs => exact h.beginBody ho hx hn hs
  | openGate task run => exact h.openGate task run
  | endBody hx hroom => exact h.endBody ho hx hroom
  | finish hx hr => exact h.finish ho hx
  | elapse ms =>
    exact h.frame (fun _ => rfl) rfl (fun _ => rfl) rfl (fun _ _ _ _ _ hw => hw) (fun _ _ hn => hn)
      h.runs rfl
  | call deadline hh hlive hx hn =>
    exact h.frame (fun _ => rfl) rfl (fun _ => rfl) rfl (fun _ _ _ _ _ hw => hw) (fun _ _ hn => hn)
      h.runs rfl
  | look hj hp hs =>
    exact h.frame (fun _ => rfl) rfl (fun _ => rfl) rfl (fun _ _ _ _ _ hw => hw) (fun _ _ hn => hn)
      h.runs rfl
  | mark x =>
    refine h.setRecord (x := x) rfl ?_
    cases hr : g.record x <;> simp [Record.lastStatus]
  | @takeOut l r hl hfate hr hs =>
    refine h.setRecord (x := l.submission) rfl ?_
    rw [hr]
    exact hs.symm
  | @leave l hl hfate =>
    refine h.setRecord (x := l.submission) rfl ?_
    cases hr : g.record l.submission with
    | none => rfl
    | some r =>
      by_cases hs : r.status = .finished <;> simp [Record.lastStatus, hs]
  | @retire a held fate hh hlive hfate hfree hspent =>
    exact h.frame (submissions_retire hh fate) rfl (fun _ => rfl) rfl (fun _ _ _ _ _ hw => hw)
      (fun _ _ hn => hn) h.runs rfl
  | misfit hl hfate hr => exact (ho.no_misfit hl hfate hr).elim

end Ledger

/-! ## 3. Lives that are over -/

/-- How far a record with this status has come. -/
def Status.rank : Status → Nat
  | queued => 0
  | running => 1
  | finished => 2

/-- A life goes on: its record goes forward, and a result that is there stays. -/
theorem Life.forward {α : Type} {x : Submission} {a : Nat} {life life' : Life α}
    (h : life.story x a <:+ life'.story x a) :
    life.status.rank ≤ life'.status.rank ∧
      ∀ v, life.result? = some v → life'.result? = some v := by
  have hlen := h.length_le
  cases life <;> cases life' <;>
    simp_all [story, status, Status.rank, result?, List.suffix_cons_iff]

theorem Life.eq_of_suffix {α : Type} {x : Submission} {a w run : Nat} {e : Ending α} {life : Life α}
    (h : (finished w run e).story x a <:+ life.story x a) : life = finished w run e := by
  have hlen : 4 ≤ (life.story x a).length := h.length_le
  cases life with
  | finished w' run' e' =>
    have he := h.eq_of_length rfl
    simp only [story, List.cons.injEq, Happening.finished.injEq, Happening.ended.injEq,
      Happening.begun.injEq] at he
    obtain ⟨⟨-, rfl⟩, ⟨-, rfl⟩, ⟨-, -, rfl⟩, -⟩ := he
    rfl
  | _ => exact absurd hlen (by simp [story])

namespace Ledger

variable {α : Type} {g g' : Ledger α}

theorem tick_history_suffix (ht : Tick g g') : g.history <:+ g'.history := by
  cases ht <;> first | exact List.suffix_rfl | exact List.suffix_cons _ _

theorem mem_submissions_tick (ht : Tick g g') {a : Nat} {x : Submission}
    (hx : x ∈ g.submissions a) : x ∈ g'.submissions a := by
  cases ht with
  | accept hnext hrecord hh hlive => exact (mem_submissions_accept hh).mpr (Or.inl hx)
  | addTask hb => rwa [submissions_addTask hb]
  | retire hh hlive hfate hfree hspent => rwa [submissions_retire hh]
  | _ => exact hx

theorem mem_submissions_ticks (ht : Ticks g g') {a : Nat} {x : Submission}
    (hx : x ∈ g.submissions a) : x ∈ g'.submissions a := by
  induction ht with
  | refl => exact hx
  | tail _ ht ih => exact mem_submissions_tick ht ih

/-- A life that is over stays as it was. -/
theorem Lives.over (h' : g'.Chronicled) (hs : g.history <:+ g'.history) {x : Submission}
    {a w run : Nat} {e : Ending α} (hx : x ∈ g'.submissions a)
    (h : g.Lives x a (.finished w run e)) : g'.Lives x a (.finished w run e) := by
  obtain ⟨life, hlife⟩ := h'.lives a x hx
  have hsuffix : g.story x <:+ g'.story x := hs.filter _
  rw [h.story, hlife.story] at hsuffix
  rwa [Life.eq_of_suffix hsuffix] at hlife

/-- What a finished submission answers is what its body left. -/
theorem Lives.outcome {x : Submission} {a w run : Nat} {e : Ending α}
    (h : g.Lives x a (.finished w run e)) : g.outcome x = e.outcome := by
  have hr : g.result x.place = e.result? := h.result
  unfold Ledger.outcome
  rw [hr]
  cases e <;> rfl

theorem Chronicled.finished (h : g.Chronicled) {x : Submission} {a : Nat}
    (hx : x ∈ g.submissions a) (hs : g.statusOf x = .finished) :
    ∃ w run e, g.Lives x a (.finished w run e) := by
  obtain ⟨life, hlife⟩ := h.lives a x hx
  rw [hlife.status] at hs
  cases life with
  | finished w run e => exact ⟨w, run, e, hlife⟩
  | _ => exact absurd hs (by simp [Life.status])

end Ledger

/-- What has happened to a submission, newest first. -/
def Program.story {α : Type} (p : Program α) (x : Submission) : List (Happening α) :=
  p.history.filter fun e => e.submission = x

theorem Program.Reachable.chronicled {α : Type} {p : Program α} (h : p.Reachable) :
    p.ledger.Chronicled := by
  refine (h.of_ticks (P := fun g => g.Owned ∧ g.Chronicled) ⟨.start 0, .start 0⟩ ?_).2
  exact fun g g' hg ht => ⟨hg.1.tick ht, hg.2.tick hg.1 ht⟩

end WorkerPool
