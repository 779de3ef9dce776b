/-
# Joins answer for their submission

A join finds its submission when it is called and never looks at another one.  While it is in
progress its task is in use, so the record is there; it is not left asleep once the record has
finished; and when it is answered, the life of the submission is over and the answer is what its
body left, unless the time of the join ran out (`Ledger.Stands`).  A life that is over does not
change, so it does not matter when the answer is collected.
-/
import WorkerPool.Proofs.Chronicle

namespace WorkerPool

open Function (update)

/-! ## 1. The invariant -/

namespace Joiner

variable {α : Type}

@[simp] theorem task_wake (j : Joiner α) : j.wake.task = j.task := by
  unfold wake
  split <;> rfl

@[simp] theorem submission_wake (j : Joiner α) : j.wake.submission = j.submission := by
  unfold wake
  split <;> rfl

@[simp] theorem deadline_wake (j : Joiner α) : j.wake.deadline = j.deadline := by
  unfold wake
  split <;> rfl

@[simp] theorem answer?_wake (j : Joiner α) : j.wake.answer? = j.answer? := by
  obtain ⟨_, _, _, state⟩ := j
  cases state <;> rfl

theorem state_wake_ne (j : Joiner α) : j.wake.state ≠ .waiting false := by
  unfold wake
  split
  · simp
  · next h => exact h false

end Joiner

namespace Ledger

variable {α : Type} {g g' : Ledger α}

/-- What a join may answer: what the body of its submission left, or that its time ran out. -/
def Answers (g : Ledger α) (j : Joiner α) (answer : Except Failure (Value α)) : Prop :=
  (∃ w run e, g.Lives j.submission j.task (.finished w run e) ∧ answer = e.outcome) ∨
    answer = .error .timeout ∧ j.isDue g.clock = true

/-- Where a join stands. -/
structure Stands (g : Ledger α) (j : Joiner α) : Prop where
  mem : j.submission ∈ g.submissions j.task
  /-- The task of a join in progress is in use. -/
  live : j.answer? = none → g.fate? j.task = some .live
  alert : j.state = .waiting false → g.statusOf j.submission ≠ .finished
  answered : ∀ answer, j.answer? = some answer → g.Answers j answer

/-- Every join stands well. -/
def Joined (g : Ledger α) : Prop := ∀ n j, g.joiner n = some j → g.Stands j

theorem Joined.start (processors : Nat) : (Program.start processors : Program α).ledger.Joined := by
  intro n j hj
  simp [Program.start, Program.ledger, System.start] at hj

/-- The record of a join in progress is there. -/
theorem Stands.record (ho : g.Owned) {j : Joiner α} (h : g.Stands j) (hj : j.answer? = none) :
    ∃ r, g.record j.submission = some r ∧ r.detached = false :=
  ho.held j.task (h.live hj) j.submission h.mem

theorem Stands.wake {j : Joiner α} (h : g.Stands j) : g.Stands j.wake where
  mem := by simpa using h.mem
  live := by simpa using h.live
  alert := fun hs => absurd hs j.state_wake_ne
  answered := by
    intro answer ha
    rw [Joiner.answer?_wake] at ha
    simpa only [Answers, Joiner.submission_wake, Joiner.task_wake, Joiner.isDue,
      Joiner.deadline_wake] using h.answered answer ha

/-- The same join later. -/
theorem Stands.frame {j : Joiner α} (h : g.Stands j) (h' : g'.Chronicled) (ht : Tick g g')
    (hclock : g.clock ≤ g'.clock)
    (hlive : j.answer? = none → g.fate? j.task = some .live → g'.fate? j.task = some .live)
    (halert : j.state = .waiting false → g.statusOf j.submission ≠ .finished →
      g'.statusOf j.submission ≠ .finished) : g'.Stands j where
  mem := mem_submissions_tick ht h.mem
  live := fun hj => hlive hj (h.live hj)
  alert := fun hj => halert hj (h.alert hj)
  answered := by
    intro answer ha
    rcases h.answered answer ha with ⟨w, run, e, hlife, he⟩ | ⟨he, hdue⟩
    · exact Or.inl ⟨w, run, e,
        hlife.over h' (tick_history_suffix ht) (mem_submissions_tick ht h.mem), he⟩
    · refine Or.inr ⟨he, ?_⟩
      unfold Joiner.isDue at hdue ⊢
      split at hdue
      · simp only [decide_eq_true_eq] at hdue ⊢
        exact Nat.le_trans hdue hclock
      · exact absurd hdue (by simp)

/-- A join that looks at its record is answered by it, or goes to sleep on a record that has not
finished. -/
theorem Stands.look (ho : g.Owned) (h : g.Chronicled) {j : Joiner α} (hj : g.Stands j)
    (hp : j.answer? = none) {state : JoinState α} (hs : g.Sees j state) :
    g.Stands { j with state } := by
  refine ⟨hj.mem, fun _ => hj.live hp, fun hw => ?_, fun answer ha => ?_⟩
  · cases hs with
    | waits hr hs hd =>
      exact (statusOf_of_record hr).trans_ne hs
    | _ => exact absurd hw (by simp)
  · cases hs with
    | gone hr =>
      -- the record of a join in progress is there
      obtain ⟨r, hr', -⟩ := hj.record ho hp
      exact absurd (hr.symm.trans hr') (by simp)
    | finished hr hs hm =>
      obtain rfl : g.outcome j.submission = answer := Option.some.inj ha
      have hstatus : g.statusOf j.submission = .finished := (statusOf_of_record hr).trans hs
      obtain ⟨w, run, e, hlife⟩ := h.finished hj.mem hstatus
      exact Or.inl ⟨w, run, e, hlife, hlife.outcome⟩
    | timeout hr hs hd =>
      obtain rfl : .error .timeout = answer := Option.some.inj ha
      exact Or.inr ⟨rfl, hd⟩
    | waits hr hs hd => exact absurd ha (by simp [Joiner.answer?])

/-- A record that is not the one of a live task may go. -/
theorem Stands.submission_ne_leaving (ho : g.Owned) {j : Joiner α} (hj : g.Stands j)
    (hp : j.answer? = none) {l : Leaving} (hl : l ∈ g.leaving) : j.submission ≠ l.submission := by
  intro he
  obtain ⟨hfate, htask, hmem, -⟩ := ho.leaving l hl
  have ht : j.task = l.task := ho.owner_unique hj.mem (he ▸ hmem)
  rw [← ht] at htask
  exact hfate (Option.some.inj (htask.symm.trans (hj.live hp)))

theorem Joined.tick (h : g.Joined) (ho : g.Owned) (hc : g.Chronicled) (hc' : g'.Chronicled)
    (ht : Tick g g') : g'.Joined := by
  have ht' := ht
  -- a join sleeps only while it is in progress
  have hasleep {j : Joiner α} (hs : j.state = .waiting false) : j.answer? = none := by
    simp [Joiner.answer?, hs]
  intro n j hj
  cases ht with
  | @addTask a ha =>
    refine (h n j hj).frame hc' ht' (Nat.le_refl _) (fun _ hlive => ?_) fun _ => id
    rw [fate?_addTask]
    split
    · rfl
    · exact hlive
  | elapse ms =>
    obtain ⟨old, hold, rfl⟩ := Option.map_eq_some_iff.mp hj
    have hold' := (h n old hold).frame hc' ht' (Nat.le_add_right _ _) (fun _ => id) fun _ => id
    split
    · exact hold'.wake
    · exact hold'
  | @accept x a held hnext hrecord hh hlive =>
    refine (h n j hj).frame hc' ht' (Nat.le_refl _) (fun _ hl => ?_)
      fun _ => unfinished_update rfl fun _ _ => ?_
    · rwa [fate?_accept hh]
    · simp [Record.lastStatus]
  | mark x =>
    refine (h n j hj).frame hc' ht' (Nat.le_refl _) (fun _ => id)
      fun _ => unfinished_update rfl fun _ hs => ?_
    rw [statusOf] at hs
    cases hr : g.record x with
    | none => simp [Record.lastStatus, hr] at hs
    | some r => simpa [Record.lastStatus, hr] using hs
  | @claim x w r job hr hs hj' hw =>
    refine (h n j hj).frame hc' ht' (Nat.le_refl _) (fun _ => id)
      fun _ => unfinished_update rfl fun _ _ => ?_
    simp [Record.lastStatus]
  | @finish x w job r hx hr =>
    obtain ⟨old, hold, rfl⟩ := Option.map_eq_some_iff.mp hj
    by_cases hne : old.submission = x
    · -- every join of the record is told, so none of them is asleep
      rw [if_pos hne]
      exact (h n old hold).wake.frame hc' ht' (Nat.le_refl _) (fun _ => id)
        fun hs => absurd hs old.state_wake_ne
    · rw [if_neg hne]
      exact (h n old hold).frame hc' ht' (Nat.le_refl _) (fun _ => id)
        fun _ => unfinished_update rfl fun hx => absurd hx hne
  | @call a m held x deadline hh hlive hx hm =>
    replace hj : update g.joiner m (some ⟨a, x, deadline, .called⟩) n = some j := hj
    rw [Function.update_apply] at hj
    split at hj
    · obtain rfl := Option.some.inj hj
      refine ⟨?_, fun _ => ?_, fun hs => absurd hs (by simp), fun answer ha => ?_⟩
      · show x ∈ g.submissions a
        rw [submissions_of_holding hh]
        exact List.mem_of_mem_head? hx
      · exact (fate?_of_holding hh).trans (congrArg some hlive)
      · exact absurd ha (by simp [Joiner.answer?])
    · exact (h n j hj).frame hc' ht' (Nat.le_refl _) (fun _ => id) fun _ => id
  | @look m old state hj' hp hs =>
    replace hj : update g.joiner m (some { old with state }) n = some j := hj
    rw [Function.update_apply] at hj
    split at hj
    · obtain rfl := Option.some.inj hj
      exact ((h m old hj').look ho hc hp hs).frame hc' ht' (Nat.le_refl _) (fun _ => id) fun _ => id
    · exact (h n j hj).frame hc' ht' (Nat.le_refl _) (fun _ => id) fun _ => id
  | @retire a held fate hh hlive hfate hfree hspent =>
    refine (h n j hj).frame hc' ht' (Nat.le_refl _) (fun hp hl => ?_) fun _ => id
    rw [fate?_retire]
    split
    · next ha => exact absurd hp (hfree n j hj ha)
    · exact hl
  | @takeOut l r hl hfate hr hs =>
    exact (h n j hj).frame hc' ht' (Nat.le_refl _) (fun _ => id) fun hsleep =>
      unfinished_update rfl fun hx =>
        absurd hx ((h n j hj).submission_ne_leaving ho (hasleep hsleep) hl)
  | @leave l hl hfate =>
    exact (h n j hj).frame hc' ht' (Nat.le_refl _) (fun _ => id) fun hsleep =>
      unfinished_update rfl fun hx =>
        absurd hx ((h n j hj).submission_ne_leaving ho (hasleep hsleep) hl)
  | misfit hl hfate hr => exact (ho.no_misfit hl hfate hr).elim
  | _ => exact (h n j hj).frame hc' ht' (Nat.le_refl _) (fun _ => id) fun _ => id

end Ledger

/-! ## 2. A join that looks at a finished record -/

namespace System

variable {α : Type} {s : System α} {n : Nat} {j : Joiner α} {r : Record Job}

theorem outcome_ne_timeout (s : System α) (x : Submission) : s.outcome x ≠ .error .timeout := by
  unfold outcome Pool.outcome
  split
  · split <;> simp
  · simp

theorem answer?_lookAgain (hj : s.joiners[n]? = some j) (hr : s.record? j.submission = some r)
    (hs : r.status = .finished) :
    (s.lookAgain n).answer? n = some (s.outcome j.submission) := by
  have hj' : (s.modifyPool j.submission.pool (·.join j.submission.ticket)).joiners[n]? = some j :=
    hj
  simp only [lookAgain, hj, hr, hs, if_true]
  simp [answer?, joiners_setJoin, hj', Joiner.answer?]

theorem answer?_startWait (hj : s.joiners[n]? = some j) (hr : s.record? j.submission = some r)
    (hs : r.status = .finished) :
    ∃ answer, (s.startWait n).answer? n = some answer ∧ answer ≠ .error .timeout := by
  unfold startWait
  simp only [hj]
  split
  · have hmarked : (s.modifyPool j.submission.pool (·.join j.submission.ticket)).record?
        j.submission = some { r with joined := true } := by
      obtain ⟨pool, hi, hget⟩ := Option.bind_eq_some_iff.mp hr
      simp [record?, pools_modifyPool, hi, Pool.join, Queue.get?_join, hget]
    exact ⟨_, answer?_lookAgain hj hmarked hs, outcome_ne_timeout _ _⟩
  · exact ⟨_, answer?_lookAgain hj hr hs, outcome_ne_timeout _ _⟩

end System

namespace Program

variable {α : Type} {p q : Program α}

theorem Reachable.joined (h : p.Reachable) : p.ledger.Joined := by
  refine (h.of_ticks (P := fun g => g.Owned ∧ g.Chronicled ∧ g.Joined)
    ⟨.start 0, .start 0, .start 0⟩ ?_).2.2
  intro g g' ⟨ho, hc, hj⟩ ht
  have hc' := hc.tick ho ht
  exact ⟨ho.tick ht, hc', hj.tick ho hc hc' ht⟩

/-- The next move of a join in progress answers it, if its record has finished. -/
theorem Reachable.answer?_move (h : p.Reachable) {n : Nat} {j : Joiner α} {r : Record Job}
    (hj : p.system.joiners[n]? = some j) (hp : j.answer? = none)
    (hr : p.system.record? j.submission = some r) (hs : r.status = .finished) :
    ∃ answer, (p.act (.move (.joiner n))).system.answer? n = some answer ∧
      answer ≠ .error .timeout := by
  show ∃ answer, (p.system.perform (.joiner n)).answer? n = some answer ∧ _
  match hstate : j.state with
  | .called =>
    have hmove : p.system.perform (.joiner n) = p.system.startWait n := by
      simp [System.perform, System.joinState?, hj, hstate]
    rw [hmove]
    exact System.answer?_startWait hj hr hs
  | .waiting true =>
    have hmove : p.system.perform (.joiner n) = p.system.lookAgain n := by
      simp [System.perform, System.joinState?, hj, hstate]
    rw [hmove]
    exact ⟨_, System.answer?_lookAgain hj hr hs, System.outcome_ne_timeout _ _⟩
  | .waiting false =>
    -- it would have been told
    exact absurd ((Ledger.statusOf_of_record hr).trans hs) ((h.joined n j hj).alert hstate)
  | .answered answer => exact absurd hp (by simp [Joiner.answer?, hstate])

/-! ## 3. What a join answers -/

/-- A join keeps its place, its task, its submission and its deadline. -/
theorem Leads.joiner (hp : p.Reachable) (h : Leads p q) {n : Nat} {j : Joiner α}
    (hj : p.system.joiners[n]? = some j) :
    ∃ j', q.system.joiners[n]? = some j' ∧ j'.task = j.task ∧ j'.submission = j.submission ∧
      j'.deadline = j.deadline := by
  have hticks := h.ticks hp
  have hj : p.ledger.joiner n = some j := hj
  show ∃ j', q.ledger.joiner n = some j' ∧ _
  generalize q.ledger = g at hticks
  induction hticks with
  | refl => exact ⟨j, hj, rfl, rfl, rfl⟩
  | @tail g g' _ ht ih =>
    obtain ⟨j', hj', hx⟩ := ih
    cases ht with
    | elapse ms =>
      refine ⟨_, Option.map_eq_some_iff.mpr ⟨j', hj', rfl⟩, ?_⟩
      split <;> simpa
    | finish _ _ =>
      refine ⟨_, Option.map_eq_some_iff.mpr ⟨j', hj', rfl⟩, ?_⟩
      split <;> simpa
    | @call a m held x deadline hh hlive hx' hm =>
      have hne : n ≠ m := by
        rintro rfl
        exact absurd (hj'.symm.trans hm) (by simp)
      exact ⟨j', (Function.update_of_ne hne _ _).trans hj', hx⟩
    | @look m old state hold hp hs =>
      by_cases hne : n = m
      · subst hne
        obtain rfl := Option.some.inj (hj'.symm.trans hold)
        exact ⟨_, Function.update_self .., hx⟩
      · exact ⟨j', (Function.update_of_ne hne _ _).trans hj', hx⟩
    | _ => exact ⟨j', hj', hx⟩

/-- Submission `x` of task `a` has run, and `answer` is what its body left. -/
structure Settles (q : Program α) (a : Nat) (x : Submission)
    (answer : Except Failure (Value α)) : Prop where
  /-- It has finished, after one run of the body. -/
  story : ∃ w run e, q.story x = [.finished x w, .ended x e, .begun x a run, .claimed x w]
  /-- Its record says so, for as long as the task is in use. -/
  record : x ∈ q.system.submissions a → ∃ r, q.system.record? x = some r ∧ r.status = .finished
  ok_iff : ∀ v, answer = .ok v ↔ .ended x (.returned v) ∈ q.history
  panicked_iff : answer = .error .taskPanicked ↔ .ended x .panicked ∈ q.history

theorem Settles.of_answer (h : q.Reachable) {a w run : Nat} {x : Submission} {e : Ending α}
    (hx : x ∈ q.ledger.submissions a) (hlife : q.ledger.Lives x a (.finished w run e)) :
    q.Settles a x e.outcome := by
  have hended (e' : Ending α) : .ended x e' ∈ q.history ↔ e' = e := by
    have hmem : .ended x e' ∈ q.ledger.story x ↔ .ended x e' ∈ q.history :=
      Ledger.mem_story.trans (and_iff_left rfl)
    rw [← hmem, hlife.story]
    simp [Life.story]
  refine ⟨⟨w, run, e, hlife.story⟩, fun hown => ?_, fun v => ?_, ?_⟩
  · rw [submissions_eq] at hown
    split at hown
    · next hlive =>
      obtain ⟨r, hr, -⟩ := h.owned.held a hlive x hx
      exact ⟨r, hr, (Ledger.statusOf_of_record hr).symm.trans hlife.status⟩
    · exact absurd hown List.not_mem_nil
  · rw [hended]
    cases e <;> simp [Ending.outcome, eq_comm]
  · rw [hended]
    cases e <;> simp [Ending.outcome]

/-- **A join answers for the submission that was the most recent one when it was called.**  After
whatever else happens, its next move answers it if that submission has finished; and the answer,
once there is one, is what the one run of the body left for that submission, or says that the time
of the join ran out.  All joins of the submission that were answered in time have the same
answer. -/
theorem join_answers_for_its_submission (h : p.Reachable) {a : Nat} {limit : Option Patience}
    {x : Submission} (hx : (p.system.submissions a).head? = some x) (hlimit : limit ≠ some (.ms 0))
    (hq : Leads (p.act (.join a limit)) q) :
    ∃ j, q.system.joiners[p.system.joiners.length]? = some j ∧ j.submission = x ∧
      j.deadline = limit.bind (·.deadline? p.system.clock) ∧
      (j.answer? = none → ∀ r, q.system.record? x = some r → r.status = .finished →
        ∃ answer, (q.act (.move (.joiner p.system.joiners.length))).system.answer?
          p.system.joiners.length = some answer ∧ answer ≠ .error .timeout) ∧
      ∀ answer, j.answer? = some answer →
        (q.Settles a x answer ∨ answer = .error .timeout ∧ j.isDue q.system.clock = true) ∧
        answer ≠ .error .notSubmitted ∧
        ∀ (n : Nat) (j' : Joiner α) answer', q.system.joiners[n]? = some j' → j'.submission = x →
          j'.answer? = some answer' → answer ≠ .error .timeout → answer' ≠ .error .timeout →
          answer' = answer := by
  have hp' : (p.act (.join a limit)).Reachable := h.leads (.step (.join a limit) .refl trivial)
  have hcalled : (p.act (.join a limit)).system.joiners[p.system.joiners.length]? =
      some ⟨a, x, limit.bind (·.deadline? p.system.clock), .called⟩ := by
    show (p.system.call a limit).2.joiners[_]? = _
    simp [System.call, hx, hlimit]
  obtain ⟨j, hj, rfl, rfl, hjd⟩ := hq.joiner hp' hcalled
  have hreach := hp'.leads hq
  have hstands := hreach.joined _ j hj
  refine ⟨j, hj, rfl, hjd, fun hp r hr hs => hreach.answer?_move hj hp hr hs, ?_⟩
  intro answer ha
  have hanswers := hstands.answered answer ha
  refine ⟨?_, ?_, ?_⟩
  · rcases hanswers with ⟨w, run, e, hlife, rfl⟩ | htimeout
    · exact Or.inl (.of_answer hreach hstands.mem hlife)
    · exact Or.inr htimeout
  · rcases hanswers with ⟨w, run, e, hlife, rfl⟩ | ⟨rfl, -⟩
    · cases e <;> simp [Ending.outcome]
    · simp
  · intro n j' answer' hj' hjx ha' hne hne'
    have hstands' := hreach.joined n j' hj'
    obtain ⟨w, run, e, hlife, rfl⟩ := hanswers.resolve_right fun ht => hne ht.1
    obtain ⟨w', run', e', hlife', rfl⟩ :=
      (hstands'.answered answer' ha').resolve_right fun ht => hne' ht.1
    -- both tell the whole story of the one submission
    have htask : j'.task = j.task := by
      have hmem := hstands'.mem
      rw [hjx] at hmem
      exact hreach.owned.owner_unique hmem hstands.mem
    rw [hjx, htask] at hlife'
    have hstory := hlife.story.symm.trans hlife'.story
    have hsame : Life.finished w' run' e' = .finished w run e :=
      Life.eq_of_suffix ⟨[], hstory⟩
    rw [(Life.finished.inj hsame).2.2]

/-- A join of the older of two submissions of a task; the newer one is run first, as run 1. -/
theorem counting_joins_older :
    let p := counting.run [.submit 0 0]
    let q := (p.act (.join 0 none)).run [.submit 0 0, .move (.joiner 0), .move (.worker 0 0),
      .move (.worker 0 0), .move (.worker 0 0), .move (.worker 0 0), .move (.worker 0 0),
      .move (.worker 0 0), .move (.worker 0 0), .move (.joiner 0)]
    (p.system.submissions 0).head? = some ⟨0, ⟨0, 0⟩⟩ ∧
      ∃ j, q.system.joiners[0]? = some j ∧ j.submission = ⟨0, ⟨0, 0⟩⟩ ∧
        j.answer? = some (.ok (.int 2)) ∧ q.Settles 0 ⟨0, ⟨0, 0⟩⟩ (.ok (.int 2)) := by
  intro p q
  have hp : p.Reachable := counting_reachable (by decide)
  have hx : (p.system.submissions 0).head? = some ⟨0, ⟨0, 0⟩⟩ := by decide
  have hq : Leads (p.act (.join 0 none)) q := leads_run _ _ (by decide)
  have hplace : p.system.joiners.length = 0 := by decide
  have hanswer : q.system.joiners[0]?.bind (·.answer?) = some (.ok (.int 2)) := by decide
  clear_value q p
  obtain ⟨j, hj, hjx, -, -, hall⟩ := join_answers_for_its_submission hp hx (by simp) hq
  rw [hplace] at hj
  rw [hj, Option.bind_some] at hanswer
  exact ⟨hx, j, hj, hjx, hanswer, (hall _ hanswer).1.resolve_right (by simp)⟩

end Program
end WorkerPool
