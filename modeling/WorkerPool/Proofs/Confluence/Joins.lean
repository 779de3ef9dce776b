/-
# What becomes of joins, whoever looks first

After the action of a caller, joins in progress wait, and their time is not over
(`System.Patient`).  When threads move on from there, such a join looks because its record has
finished, and is answered; nothing else is marked (`Moves.since`).  So when nobody can move any
more, it can be told of each join how far it has come, without knowing who moved when
(`Moves.joiners_eq`): in two systems that match, the joins and the marks are the same
(`Matches.joiners_eq`, `Matches.queue_eq`).
-/
import WorkerPool.Proofs.Confluence.Moves

namespace WorkerPool

/-! ## 1. A join later -/

namespace Joiner

variable {α : Type} {j j' j'' : Joiner α}

/-- The same join, later: it may have come further, unless it had been answered. -/
structure Later (j j' : Joiner α) : Prop where
  task : j'.task = j.task
  submission : j'.submission = j.submission
  deadline : j'.deadline = j.deadline
  answered : ∀ answer, j.answer? = some answer → j' = j

theorem Later.refl (j : Joiner α) : Later j j := ⟨rfl, rfl, rfl, fun _ _ => rfl⟩

theorem Later.trans (h : Later j j') (h' : Later j' j'') : Later j j'' where
  task := h'.task.trans h.task
  submission := h'.submission.trans h.submission
  deadline := h'.deadline.trans h.deadline
  answered := by
    intro answer ha
    have hsame := h.answered answer ha
    exact (h'.answered answer (hsame ▸ ha)).trans hsame

theorem later_wake (j : Joiner α) : Later j j.wake where
  task := j.task_wake
  submission := j.submission_wake
  deadline := j.deadline_wake
  answered := by
    obtain ⟨task, x, deadline, state⟩ := j
    intro answer ha
    cases state <;> first | rfl | cases ha

theorem Later.isDue_eq (h : Later j j') (clock : Nat) : j'.isDue clock = j.isDue clock := by
  rw [isDue, isDue, h.deadline]

/-- A join of which it is known what its record has come to, and that has seen it. -/
def seen (u : System α) (j : Joiner α) : Joiner α :=
  match j.answer? with
  | some _ => j
  | none =>
    if Record.lastStatus (u.record? j.submission) = .finished then
      { j with state := .answered (u.outcome j.submission) }
    else { j with state := .waiting false }

end Joiner

/-! ## 2. Marks that stay -/

namespace Pool

variable {α : Type} {p p' : Pool α}

/-- No record is new, and none is marked. -/
def KeepsMarks (p p' : Pool α) : Prop :=
  ∀ k r', p'.queue.get? k = some r' → ∃ r, p.queue.get? k = some r ∧ r.joined = r'.joined

theorem KeepsMarks.of_queue (h : p'.queue = p.queue) : p.KeepsMarks p' :=
  fun _ r' hr => ⟨r', h ▸ hr, rfl⟩

theorem keepsMarks_advance (hp : p.queue.Sound) (w : Nat) : p.KeepsMarks (p.advance w) := by
  rcases advance_cases hp w with ⟨k, rest, r, job, -, -, -, -, he⟩ | ⟨-, ⟨-, he⟩ | ⟨-, he⟩⟩ <;>
    rw [he]
  · intro k' r' hr'
    replace hr' : (p.queue.started k rest).get? k' = some r' := hr'
    rw [Queue.get?_started] at hr'
    split at hr'
    · obtain ⟨old, hold, rfl⟩ := Option.map_eq_some_iff.mp hr'
      exact ⟨old, hold, rfl⟩
    · exact ⟨r', hr', rfl⟩
  · exact .of_queue rfl
  · exact .of_queue rfl

theorem Sound.keepsMarks_goOn (h : p.Sound) {w : Nat} {phase : Phase}
    (hw : p.workers[w]? = some phase) (hlooks : phase.looksNext = true) :
    p.KeepsMarks (p.goOn w phase) := by
  rcases phase with _ | notified | ⟨k, job, stage⟩ | _
  · exact keepsMarks_advance h.queue w
  · obtain rfl : notified = true := hlooks
    exact keepsMarks_advance (p := { p with busy := p.busy + 1 }) h.queue w
  · cases stage with
    | «over» =>
      obtain ⟨r, hr, -, he⟩ := h.finish_eq hw
      show p.KeepsMarks (p.finish w k)
      rw [he]
      intro k' r' hr'
      obtain ⟨old, hold, hsame⟩ := keepsMarks_advance (h.ended hw r.detached).queue w k' r' hr'
      replace hold : (p.queue.finished k).get? k' = some old := hold
      rw [Queue.get?_finished hr] at hold
      split at hold
      · next hk =>
        split at hold
        · cases hold
        · obtain rfl := Option.some.inj hold
          exact ⟨r, hk ▸ hr, hsame⟩
      · exact ⟨old, hold, hsame⟩
    | _ => exact absurd hlooks (by simp [Phase.looksNext, Phase.isLooking])
  · exact absurd hlooks (by simp [Phase.looksNext, Phase.isLooking])

theorem queue_endRun (p : Pool α) (w : Nat) (k : Ticket) (job : Job) (e : Ending α) :
    (p.endRun w k job e).queue = p.queue := by
  cases e with
  | returned v => exact queue_putResult p k v
  | panicked => rfl

theorem queue_awaitWorkers (p : Pool α) : p.awaitWorkers.queue = p.queue := by
  unfold awaitWorkers
  split <;> rfl

end Pool

namespace System

variable {α : Type} {s s' s'' t u v : System α} {i w n : Nat} {m : Move} {ms ns : List Move}

/-- A move that marks no record, answers no join, and takes no time. -/
structure KeepsMarks (s s' : System α) : Prop where
  records : ∀ x r', s'.record? x = some r' → ∃ r, s.record? x = some r ∧ r.joined = r'.joined
  joins : ∀ n : Nat, s'.joiners[n]? = s.joiners[n]? ∨
    s'.joiners[n]? = s.joiners[n]?.map Joiner.wake
  clock : s'.clock = s.clock

theorem KeepsMarks.refl (s : System α) : s.KeepsMarks s :=
  ⟨fun _ r' hr => ⟨r', hr, rfl⟩, fun _ => Or.inl rfl, rfl⟩

theorem keepsMarks_modifyPool (s : System α) (i : Nat) {f : Pool α → Pool α}
    (hf : ∀ p, s.pools[i]? = some p → p.KeepsMarks (f p)) : s.KeepsMarks (s.modifyPool i f) where
  records := by
    intro x r' hr'
    obtain ⟨q, hq, hr'⟩ := Option.bind_eq_some_iff.mp hr'
    rw [pools_modifyPool] at hq
    split at hq
    · next hx =>
      obtain ⟨p, hp, rfl⟩ := Option.map_eq_some_iff.mp hq
      obtain ⟨r, hr, hsame⟩ := hf p (hx ▸ hp) x.ticket r' hr'
      exact ⟨r, Option.bind_eq_some_iff.mpr ⟨p, hp, hr⟩, hsame⟩
    · exact ⟨r', Option.bind_eq_some_iff.mpr ⟨q, hq, hr'⟩, rfl⟩
  joins _ := Or.inl rfl
  clock := rfl

theorem KeepsMarks.wakeJoiners (h : s.KeepsMarks s') (hjoiners : s'.joiners = s.joiners)
    (x : Submission) : s.KeepsMarks (s'.wakeJoiners x) where
  records := h.records
  joins := by
    intro n
    show (s'.joiners.map _)[n]? = _ ∨ (s'.joiners.map _)[n]? = _
    rw [hjoiners, List.getElem?_map]
    cases s.joiners[n]? with
    | none => exact Or.inl rfl
    | some j =>
      rw [Option.map_some, Option.map_some]
      split
      · exact Or.inr rfl
      · exact Or.inl rfl
  clock := h.clock

/-- Workers mark nothing. -/
theorem Works.keepsMarks (h : s.Works i w s') (hs : s.PoolsSound)
    (hlocal : s.EndsLocally (.worker i w)) : s.KeepsMarks s' := by
  have hlook {phase : Phase} (hphase : s.phase? i w = some phase)
      (hlooks : phase.looksNext = true) : s.KeepsMarks (s.modifyPool i (·.goOn w phase)) := by
    obtain ⟨p, hi, hw⟩ := phase?_eq_some.mp hphase
    refine s.keepsMarks_modifyPool i fun q hq => ?_
    obtain rfl := Option.some.inj (hq.symm.trans hi)
    exact (hs i q hi).keepsMarks_goOn hw hlooks
  cases h with
  | idle => exact .refl s
  | look hw hlooks => exact hlook hw hlooks
  | @enter k job hphase =>
    unfold enterBody
    split
    · next p b _ _ =>
      have hkeeps := s.keepsMarks_modifyPool i (f := fun p => p.setPhase w (.executing k job
        (if b.body.gate.has (b.runs + 1) then .atGate (b.runs + 1) else .past (b.runs + 1))))
        fun _ _ => .of_queue rfl
      exact ⟨hkeeps.records, hkeeps.joins, rfl⟩
    · exact .refl s
  | @leave k job run hphase =>
    obtain ⟨p, hi, -⟩ := phase?_eq_some.mp hphase
    cases hb : s.tasks[job.task]? with
    | none =>
      unfold endBody
      rw [hi, hb]
      exact .refl s
    | some b =>
      rw [endBody_of_isLocal hi hb (hlocal i w k job run b rfl hphase hb)]
      have hkeeps := s.keepsMarks_modifyPool i (f := (·.endRun w k job (s.ending p w b run)))
        fun q _ => .of_queue (q.queue_endRun w k job _)
      exact ⟨hkeeps.records, hkeeps.joins, rfl⟩
  | @finish k _ hw => exact (hlook hw rfl).wakeJoiners rfl ⟨i, k⟩

theorem keepsMarks_shutdown (s : System α) (i : Nat) :
    s.KeepsMarks (s.perform (.shutdown i)) := by
  refine s.keepsMarks_modifyPool i fun p _ => ?_
  split
  · exact .of_queue p.queue_awaitWorkers
  · exact .of_queue rfl

/-! ## 3. Joins that wait -/

/-- Every join in progress waits, and its time is not over. -/
def Patient (s : System α) : Prop :=
  ∀ (n : Nat) (j : Joiner α), s.joiners[n]? = some j → j.answer? = none →
    (∃ told, j.state = .waiting told) ∧ j.isDue s.clock = false

/-- So it is where nobody can move. -/
theorem Still.patient (h : s.Still) : s.Patient := by
  intro n j hj hp
  obtain ⟨hstate, hdue, -⟩ := h.occurs.waits h.rests hj hp
  exact ⟨⟨false, hstate⟩, hdue⟩

theorem Patient.of_joiners (h : s.Patient) (hjoiners : s'.joiners = s.joiners)
    (hclock : s'.clock = s.clock) : s'.Patient := by
  rw [Patient, hjoiners, hclock]
  exact h

theorem Patient.keepsMarks (h : s.Patient) (hkeeps : s.KeepsMarks s') : s'.Patient := by
  intro n j' hj' hp
  rw [hkeeps.clock]
  rcases hkeeps.joins n with he | he <;> rw [he] at hj'
  · exact h n j' hj' hp
  · obtain ⟨j, hj, rfl⟩ := Option.map_eq_some_iff.mp hj'
    rw [Joiner.answer?_wake] at hp
    obtain ⟨⟨told, hstate⟩, hdue⟩ := h n j hj hp
    refine ⟨⟨true, by simp [Joiner.wake, hstate]⟩, ?_⟩
    rw [(Joiner.later_wake j).isDue_eq]
    exact hdue

/-- **A join that looks is answered**, and marks its record. -/
theorem Patient.perform_joiner (h : s.Patient) (hs : s.Occurs) (n : Nat) :
    s.perform (.joiner n) = s ∨
      ∃ j, s.joiners[n]? = some j ∧ j.answer? = none ∧
        s.perform (.joiner n) = (s.modifyPool j.submission.pool
          (·.join j.submission.ticket)).setJoin n (.answered (s.outcome j.submission)) := by
  cases hj : s.joiners[n]? with
  | none =>
    refine Or.inl ?_
    simp [perform, joinState?, hj]
  | some j =>
    cases hstate : j.state with
    | answered answer =>
      refine Or.inl ?_
      simp [perform, joinState?, hj, hstate]
    | called =>
      obtain ⟨⟨told, hwaits⟩, -⟩ := h n j hj (by simp [Joiner.answer?, hstate])
      exact absurd (hstate.symm.trans hwaits) (by simp)
    | waiting told =>
      cases told with
      | false =>
        refine Or.inl ?_
        simp [perform, joinState?, hj, hstate]
      | true =>
        have hp : j.answer? = none := by simp [Joiner.answer?, hstate]
        obtain ⟨program, hreach, -, rfl⟩ := hs
        obtain ⟨r, hr, hreason⟩ := hreach.reason hj hstate
        have hfinished : r.status = .finished := by
          refine hreason.resolve_right fun hdue => ?_
          exact absurd ((h n j hj hp).2.symm.trans hdue) (by simp)
        have hlooks : program.system.perform (.joiner n) = program.system.lookAgain n := by
          simp [perform, joinState?, hj, hstate]
        refine Or.inr ⟨j, rfl, hp, hlooks.trans ?_⟩
        simp only [lookAgain, hj, hr, hfinished, if_true]

/-! ## 4. Since then -/

/-- A join of this submission was in progress in `s`, and has been answered. -/
def AnsweredSince (s s' : System α) (x : Submission) : Prop :=
  ∃ (n : Nat) (j j' : Joiner α), s.joiners[n]? = some j ∧ j.submission = x ∧ j.answer? = none ∧
    s'.joiners[n]? = some j' ∧ j'.answer? ≠ none

/-- What has become of joins and marks since `s`. -/
structure Since (s s' : System α) : Prop where
  clock : s'.clock = s.clock
  joins : ∀ n : Nat, Option.Rel Joiner.Later s.joiners[n]? s'.joiners[n]?
  marks : ∀ x r', s'.record? x = some r' →
    ∃ r, s.record? x = some r ∧ (r'.joined = true ↔ r.joined = true ∨ s.AnsweredSince s' x)

namespace Since

theorem refl (s : System α) : s.Since s where
  clock := rfl
  joins n := by
    cases s.joiners[n]? with
    | none => exact .none
    | some j => exact .some (.refl j)
  marks := by
    refine fun x r hr => ⟨r, hr, ⟨Or.inl, fun h => h.resolve_right ?_⟩⟩
    rintro ⟨n, j, j', hj, -, hp, hj', ha⟩
    obtain rfl := Option.some.inj (hj.symm.trans hj')
    exact ha hp

theorem joiner (h : s.Since s') {j' : Joiner α} (hj' : s'.joiners[n]? = some j') :
    ∃ j, s.joiners[n]? = some j ∧ j.Later j' := by
  rcases rel_cases (h.joins n) with ⟨-, hnone⟩ | ⟨j, j'', hj, hj'', hlater⟩
  · exact absurd (hj'.symm.trans hnone) (by simp)
  · obtain rfl := Option.some.inj (hj'.symm.trans hj'')
    exact ⟨j, hj, hlater⟩

theorem keepsMarks (h : s.Since s') (hkeeps : s'.KeepsMarks s'') : s.Since s'' where
  clock := hkeeps.clock.trans h.clock
  joins n := by
    rcases hkeeps.joins n with he | he <;> rw [he]
    · exact h.joins n
    · rcases rel_cases (h.joins n) with ⟨hj, hj'⟩ | ⟨j, j', hj, hj', hlater⟩ <;> rw [hj, hj']
      · exact .none
      · exact .some (hlater.trans j'.later_wake)
  marks := by
    intro x r'' hr''
    obtain ⟨r', hr', hsame⟩ := hkeeps.records x r'' hr''
    obtain ⟨r, hr, hiff⟩ := h.marks x r' hr'
    -- the same joins have been answered
    have hanswered : s.AnsweredSince s'' x ↔ s.AnsweredSince s' x := by
      constructor
      · rintro ⟨n, j, j'', hj, hx, hp, hj'', ha⟩
        rcases hkeeps.joins n with he | he <;> rw [he] at hj''
        · exact ⟨n, j, j'', hj, hx, hp, hj'', ha⟩
        · obtain ⟨j', hj', rfl⟩ := Option.map_eq_some_iff.mp hj''
          exact ⟨n, j, j', hj, hx, hp, hj', j'.answer?_wake ▸ ha⟩
      · rintro ⟨n, j, j', hj, hx, hp, hj', ha⟩
        rcases hkeeps.joins n with he | he
        · exact ⟨n, j, j', hj, hx, hp, he.trans hj', ha⟩
        · refine ⟨n, j, j'.wake, hj, hx, hp, he.trans (congrArg _ hj'), ?_⟩
          rwa [Joiner.answer?_wake]
    refine ⟨r, hr, ?_⟩
    rw [← hsame, hanswered]
    exact hiff

/-- A join in progress has been answered, and marks its record. -/
theorem answer (h : s.Since s') {j' : Joiner α} (hj' : s'.joiners[n]? = some j')
    (hp' : j'.answer? = none) (answer : Except Failure (Value α)) :
    s.Since ((s'.modifyPool j'.submission.pool (·.join j'.submission.ticket)).setJoin n
      (.answered answer)) where
  clock := h.clock
  joins m := by
    rw [joiners_setJoin]
    show Option.Rel _ _ (if m = n then s'.joiners[m]?.map _ else s'.joiners[m]?)
    split
    · next hm =>
      subst hm
      obtain ⟨j, hj, hlater⟩ := h.joiner hj'
      rw [hj, hj']
      refine .some ⟨hlater.task, hlater.submission, hlater.deadline, fun a ha => ?_⟩
      have hsame := hlater.answered a ha
      rw [hsame, ha] at hp'
      cases hp'
    · exact h.joins m
  marks := by
    intro x r'' hr''
    let marked := s'.modifyPool j'.submission.pool (·.join j'.submission.ticket)
    replace hr'' : marked.record? x = some r'' := hr''
    obtain ⟨j, hj, hlater⟩ := h.joiner hj'
    have hp : j.answer? = none := by
      cases ha : j.answer? with
      | none => rfl
      | some a =>
        rw [hlater.answered a ha, ha] at hp'
        cases hp'
    have hanswered : s.AnsweredSince (marked.setJoin n (.answered answer)) x ↔
        x = j'.submission ∨ s.AnsweredSince s' x := by
      constructor
      · rintro ⟨m, j₁, j₂, hj₁, hx, hp₁, hj₂, ha⟩
        rw [joiners_setJoin] at hj₂
        split at hj₂
        · next hm =>
          subst hm
          obtain rfl := Option.some.inj (hj.symm.trans hj₁)
          exact Or.inl (hx.symm.trans hlater.submission.symm)
        · exact Or.inr ⟨m, j₁, j₂, hj₁, hx, hp₁, hj₂, ha⟩
      · rintro (rfl | ⟨m, j₁, j₂, hj₁, hx, hp₁, hj₂, ha⟩)
        · refine ⟨n, j, { j' with state := .answered answer }, hj, hlater.submission.symm, hp, ?_,
            by simp [Joiner.answer?]⟩
          rw [joiners_setJoin, if_pos rfl]
          exact congrArg _ hj'
        · refine ⟨m, j₁, j₂, hj₁, hx, hp₁, ?_, ha⟩
          rw [joiners_setJoin, if_neg]
          · exact hj₂
          · rintro rfl
            rw [Option.some.inj (hj'.symm.trans hj₂)] at hp'
            exact ha hp'
    obtain ⟨q, hq, hr''⟩ := Option.bind_eq_some_iff.mp hr''
    replace hq : (s'.modifyPool j'.submission.pool _).pools[x.pool]? = some q := hq
    rw [pools_modifyPool] at hq
    have hrecord {p : Pool α} (hp : s'.pools[x.pool]? = some p) {r' : Record Job}
        (hr' : p.queue.get? x.ticket = some r') : s'.record? x = some r' :=
      Option.bind_eq_some_iff.mpr ⟨p, hp, hr'⟩
    by_cases hx : x = j'.submission
    · subst hx
      rw [if_pos rfl] at hq
      obtain ⟨p, hp, rfl⟩ := Option.map_eq_some_iff.mp hq
      replace hr'' : (p.queue.join _).get? _ = some r'' := hr''
      rw [Queue.get?_join, if_pos rfl] at hr''
      obtain ⟨r', hr', rfl⟩ := Option.map_eq_some_iff.mp hr''
      obtain ⟨r, hr, -⟩ := h.marks _ r' (hrecord hp hr')
      exact ⟨r, hr, fun _ => Or.inr (hanswered.mpr (Or.inl rfl)), fun _ => rfl⟩
    · have hr' : s'.record? x = some r'' := by
        split at hq
        · next hpool =>
          obtain ⟨p, hp, rfl⟩ := Option.map_eq_some_iff.mp hq
          replace hr'' : (p.queue.join _).get? _ = some r'' := hr''
          rw [Queue.get?_join, if_neg] at hr''
          · exact hrecord hp hr''
          · intro hticket
            exact hx (congrArg₂ Submission.mk hpool hticket)
        · exact hrecord hq hr''
      obtain ⟨r, hr, hiff⟩ := h.marks x r'' hr'
      refine ⟨r, hr, hiff.trans (or_congr_right ?_)⟩
      rw [hanswered, or_iff_right hx]

end Since

/-- **One move of any thread.** -/
theorem Since.perform (h : s.Since s') (hs : s'.Occurs) (hpatient : s'.Patient)
    (hlocal : s'.EndsLocally m) : s.Since (s'.perform m) ∧ (s'.perform m).Patient := by
  cases m with
  | worker i w =>
    have hkeeps := (s'.works_worker i w).keepsMarks hs.poolsSound hlocal
    exact ⟨h.keepsMarks hkeeps, hpatient.keepsMarks hkeeps⟩
  | shutdown i =>
    have hkeeps := s'.keepsMarks_shutdown i
    exact ⟨h.keepsMarks hkeeps, hpatient.keepsMarks hkeeps⟩
  | joiner n =>
    rcases hpatient.perform_joiner hs n with he | ⟨j, hj, hp, he⟩ <;> rw [he]
    · exact ⟨h, hpatient⟩
    · refine ⟨h.answer hj hp _, fun m j' hj' hp' => ?_⟩
      rw [joiners_setJoin] at hj'
      split at hj'
      · obtain ⟨old, -, rfl⟩ := Option.map_eq_some_iff.mp hj'
        cases hp'
      · exact hpatient m j' hj' hp'

/-- Any number of moves. -/
theorem Moves.since (h : s.Moves ms u) (hs : s.Occurs) (hpatient : s.Patient) (hu : u.Local) :
    s.Since u := by
  suffices hsince : ∀ {s₀ : System α}, s₀.Since s → s₀.Since u from hsince (.refl s)
  induction h with
  | rest => exact id
  | @move s u m ms _ hrest ih =>
    intro s₀ h
    have hm := hs.brings (s.brings_perform m)
    obtain ⟨hsince, hpatient'⟩ :=
      h.perform hs hpatient ((hu.of_brings hm hrest.brings).endsLocally hs)
    exact ih hm hpatient' hu hsince

/-! ## 5. When nobody can move any more -/

/-- **What each join has come to.** -/
theorem Since.joiners_eq (h : s.Since u) (hu : u.Still) (hpatient : s.Patient) :
    u.joiners = s.joiners.map (·.seen u) := by
  refine List.ext_getElem? fun n => ?_
  rw [List.getElem?_map]
  rcases rel_cases (h.joins n) with ⟨hj, hj'⟩ | ⟨j, j', hj, hj', hlater⟩ <;> rw [hj, hj']
  · rfl
  rw [Option.map_some]
  refine congrArg some ?_
  unfold Joiner.seen
  split
  · next answer ha => exact hlater.answered answer ha
  · next hp =>
    obtain ⟨task, x, deadline, state⟩ := j
    obtain ⟨task', x', deadline', state'⟩ := j'
    obtain ⟨htask, hx, hdeadline, -⟩ := hlater
    obtain rfl : task' = task := htask
    obtain rfl : x' = x := hx
    obtain rfl : deadline' = deadline := hdeadline
    have hdue := (hpatient n _ hj hp).2
    cases ha : (Joiner.mk task' x' deadline' state').answer? with
    | none =>
      obtain ⟨hstate, -, r, hr, hunfinished⟩ := hu.occurs.waits hu.rests hj' ha
      dsimp only
      rw [hr, if_neg (by exact hunfinished)]
      exact congrArg (Joiner.mk task' x' deadline') hstate
    | some answer =>
      obtain ⟨program, hreach, -, rfl⟩ := hu.occurs
      rcases (hreach.joined n _ hj').answered answer ha with ⟨w, run, e, hlife, rfl⟩ | ⟨-, hover⟩
      · have hstatus : Record.lastStatus (program.system.record? x') = .finished := hlife.status
        have houtcome := (program.ledger_outcome x').symm.trans hlife.outcome
        dsimp only
        rw [hstatus, if_pos rfl, houtcome]
        cases state' with
        | answered answer' =>
          obtain rfl : answer' = _ := Option.some.inj ha
          rfl
        | _ => cases ha
      · -- no time has passed
        replace hover : Joiner.isDue _ program.system.clock = true := hover
        rw [h.clock] at hover
        exact absurd (hdue.symm.trans hover) (by simp)

namespace Matches

theorem outcome_eq (h : Matches u v) (x : Submission) : u.outcome x = v.outcome x := by
  unfold outcome
  rcases h.pool_cases x.pool with ⟨hp, hq⟩ | ⟨p, q, hp, hq, hpools⟩ <;> rw [hp, hq]
  show p.outcome x.ticket = q.outcome x.ticket
  unfold Pool.outcome
  rw [hpools.results]

theorem lastStatus_eq (h : Matches u v) (x : Submission) :
    Record.lastStatus (u.record? x) = Record.lastStatus (v.record? x) := by
  rcases map_eq_cases (h.status_eq x) with ⟨hr, hr'⟩ | ⟨r, r', hr, hr', hstatus⟩ <;> rw [hr, hr']
  exact hstatus

/-- **The joins have come to the same.** -/
theorem joiners_eq (h : Matches u v) (hsu : s.Since u) (htv : t.Since v) (hu : u.Still)
    (hv : v.Still) (hs : s.Patient) (ht : t.Patient) (hjoiners : s.joiners = t.joiners) :
    u.joiners = v.joiners := by
  rw [hsu.joiners_eq hu hs, htv.joiners_eq hv ht, hjoiners]
  refine List.map_congr_left fun j _ => ?_
  unfold Joiner.seen
  rw [h.lastStatus_eq, h.outcome_eq]

/-- **The same records are marked.** -/
theorem queue_eq (h : Matches u v) (hsu : s.Since u) (htv : t.Since v)
    (hqueues : ∀ x, s.record? x = t.record? x) (hjoiners : s.joiners = t.joiners)
    (hjoiners' : u.joiners = v.joiners) {p q : Pool α} (hp : u.pools[i]? = some p)
    (hq : v.pools[i]? = some q) : p.queue = q.queue := by
  obtain ⟨q', hq', hpools⟩ := h.pool hp
  obtain rfl := Option.some.inj (hq'.symm.trans hq)
  refine Queue.eq_of_unmarked hpools.queue fun k r r' hr hr' => ?_
  obtain ⟨r₀, hr₀, hiff⟩ := hsu.marks ⟨i, k⟩ r (Option.bind_eq_some_iff.mpr ⟨p, hp, hr⟩)
  obtain ⟨r₀', hr₀', hiff'⟩ := htv.marks ⟨i, k⟩ r' (Option.bind_eq_some_iff.mpr ⟨q', hq, hr'⟩)
  obtain rfl := Option.some.inj (hr₀.symm.trans ((hqueues _).trans hr₀'))
  rw [Bool.eq_iff_iff, hiff, hiff', AnsweredSince, AnsweredSince, hjoiners, hjoiners']

end Matches
end System
end WorkerPool
