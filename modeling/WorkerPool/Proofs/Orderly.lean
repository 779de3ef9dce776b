/-
# Pools that are used in good order

What a caller has who is alone with some pools, submits only bodies that wait at no gate and submit
nothing themselves, and never leaves a join or a task to itself (`System.Orderly`).  Submissions,
moves of threads, joins that are answered and releases keep it so.

When nobody can move in such a system, every record has finished (`Orderly.finished`).  So a join
is answered at once (`Orderly.joinFor_cases`), a task all of whose submissions are joined is
released (`Orderly.release`), and the pool has as many records as the tasks in use hold
(`Orderly.size_eq`).
-/
import WorkerPool.Proofs.Admission
import WorkerPool.Proofs.AtRest
import WorkerPool.Proofs.Releases

namespace WorkerPool

variable {α : Type}

/-- The body waits at no gate and submits nothing, in any run. -/
structure Body.IsPlain (b : Body α) : Prop where
  ungated : b.gate = .never
  alone : ∀ on pool task, b.kind ≠ .submit on pool task

/-- A task without the number of its runs. -/
def Task.uncounted (t : Task α) : Task α := { t with runs := 0 }

/-! ## 1. The pool -/

namespace Pool

variable {plan : Plan} {p p' : Pool α}

/-- The pool is in use, and no gate holds up a worker of it. -/
structure Serving (p : Pool α) : Prop where
  active : p.isActive = true
  unheld : ∀ phase ∈ p.workers, phase.blockedRun? = none

theorem Serving.congr (h : p.Serving) (hstanding : p'.standing = p.standing)
    (hworkers : p'.workers = p.workers) : p'.Serving := by
  constructor
  · rw [isActive, hstanding]
    exact h.active
  · rw [hworkers]
    exact h.unheld

theorem Serving.setPhase (h : p.Serving) (w : Nat) {phase : Phase}
    (hphase : phase.blockedRun? = none) : (p.setPhase w phase).Serving where
  active := h.active
  unheld := by
    intro phase' hmem
    rcases List.mem_or_eq_of_mem_set hmem with hmem | rfl
    · exact h.unheld phase' hmem
    · exact hphase

theorem Serving.note (h : p.Serving) (n : PoolNote) : (p.note n).Serving := ⟨h.active, h.unheld⟩

theorem Serving.putResult (h : p.Serving) (k : Ticket) (v : Value α) :
    (p.putResult k v).Serving := by
  unfold Pool.putResult
  split <;> exact ⟨h.active, h.unheld⟩

theorem Serving.notifyWorkers (h : p.Serving) : p.notifyWorkers.Serving where
  active := h.active
  unheld := by
    intro phase hmem
    obtain ⟨old, hold, rfl⟩ := List.mem_map.mp hmem
    have hnone := h.unheld old hold
    cases old <;> first | rfl | exact hnone

theorem Serving.advance (h : p.Serving) (hq : p.queue.Sound) (w : Nat) :
    (p.advance w).Serving := by
  rcases advance_cases hq w with
    ⟨k, rest, r, job, -, -, -, -, he⟩ | ⟨-, ⟨-, he⟩ | ⟨hended, -⟩⟩
  · rw [he]
    have hqueue : { p with queue := p.queue.started k rest }.Serving := h.congr rfl rfl
    exact (hqueue.setPhase w rfl).note _
  · rw [he]
    have hbusy : { p with busy := p.busy - 1 }.Serving := h.congr rfl rfl
    exact hbusy.setPhase w rfl
  · exact absurd (h.active.symm.trans hended) (by simp)

theorem Serving.goOn (h : p.Serving) (hp : p.Sound) {w : Nat} {phase : Phase}
    (hw : p.workers[w]? = some phase) (hlooks : phase.looksNext = true) :
    (p.goOn w phase).Serving := by
  rcases phase with _ | notified | ⟨k, job, stage⟩ | _
  · exact h.advance hp.queue w
  · have hbusy : { p with busy := p.busy + 1 }.Serving := h.congr rfl rfl
    exact hbusy.advance hp.queue w
  · obtain ⟨r, -, -, he⟩ := hp.finish_eq hw
    have hqueue : { p with queue := p.queue.finished k }.Serving := h.congr rfl rfl
    have hended : (p.ended w k r.detached).Serving := (hqueue.note _).setPhase w rfl
    show (p.finish w k).Serving
    rw [he]
    exact hended.advance (hp.ended hw _).queue w
  · exact absurd hlooks (by simp [Phase.looksNext, Phase.isLooking])

theorem Serving.submit (h : p.Serving) (refusal : Option String) (job : Job) :
    (p.submit refusal job).2.Serving := by
  have hgrow : (p.grow refusal).2.Serving := by
    rcases p.grow_cases refusal with
      ⟨-, he⟩ | ⟨-, -, he⟩ | ⟨cause, -, -, ⟨-, he⟩ | ⟨-, he⟩⟩ <;> rw [he]
    · exact h
    · refine ⟨h.active, fun phase hmem => ?_⟩
      rcases List.mem_append.mp hmem with hmem | hmem
      · exact h.unheld phase hmem
      · rw [List.mem_singleton.mp hmem]
        rfl
    · exact h.note _
    · exact h.note _
  rcases submit_cases p refusal job with ⟨-, he⟩ | ⟨e, -, -, he⟩ | ⟨-, -, he⟩ <;> rw [he]
  · exact h.note _
  · exact hgrow
  · have hqueue : { (p.grow refusal).2 with
        queue := (p.grow refusal).2.queue.pushed job }.Serving := hgrow.congr rfl rfl
    exact hqueue.notifyWorkers.note _

/-- When nobody can move, the workers of a pool that serves wait for work. -/
theorem Serving.idle (h : p.Serving) {phase : Phase} (hmem : phase ∈ p.workers)
    (hready : (phase.isUnderWay || phase.isLooking) = false) :
    phase = .parked false ∨ phase = .exited := by
  by_contra hnot
  obtain ⟨hasleep, hin⟩ := not_or.mp hnot
  obtain ⟨k, job, run, rfl⟩ := Phase.eq_atGate hready hasleep hin
  exact absurd (h.unheld _ hmem) (by simp [Phase.blockedRun?])

end Pool

/-! ## 2. The system -/

namespace System

variable {s s' : System α}

/-- Pools that serve, plain bodies, and nothing that was left to itself. -/
structure Orderly (s : System α) : Prop where
  occurs : s.Occurs
  granted : s.refusal = none
  serving : ∀ p ∈ s.pools, p.Serving
  plain : ∀ t ∈ s.tasks, t.body.IsPlain
  undetached : ∀ t ∈ s.tasks, t.fate ≠ .detached
  answered : ∀ j ∈ s.joiners, j.answer?.isSome

/-- The pools serve if the one that changes does. -/
theorem serving_modifyPool (h : ∀ p ∈ s.pools, p.Serving) {i : Nat} {f : Pool α → Pool α}
    (hf : ∀ p, s.pools[i]? = some p → p.Serving → (f p).Serving) :
    ∀ p ∈ (s.modifyPool i f).pools, p.Serving := by
  intro p hmem
  obtain ⟨j, hj⟩ := List.getElem?_of_mem hmem
  rw [pools_modifyPool] at hj
  split at hj
  · next hji =>
    subst hji
    obtain ⟨q, hq, rfl⟩ := Option.map_eq_some_iff.mp hj
    exact hf q hq (h q (List.mem_of_getElem? hq))
  · exact h p (List.mem_of_getElem? hj)

/-- Whether pools serve is seen from their workers and their standing. -/
theorem serving_of_workers
    (hworkers : (s'.pools.map fun p => (p.workers, p.standing)) =
      s.pools.map fun p => (p.workers, p.standing))
    (h : ∀ p ∈ s.pools, p.Serving) : ∀ p ∈ s'.pools, p.Serving := by
  intro p hp
  have hmem : (p.workers, p.standing) ∈ s'.pools.map fun p => (p.workers, p.standing) :=
    List.mem_map_of_mem hp
  rw [hworkers] at hmem
  obtain ⟨q, hq, he⟩ := List.mem_map.mp hmem
  obtain ⟨hw, hs⟩ := Prod.mk.inj he
  exact (h q hq).congr hs.symm hw.symm

/-- What one task keeps, all keep. -/
theorem forall_mem_modify {β : Type} {P : β → Prop} {f : β → β} (hf : ∀ b, P b → P (f b))
    {l : List β} (h : ∀ b ∈ l, P b) (i : Nat) : ∀ b ∈ l.modify i f, P b := by
  intro b hmem
  obtain ⟨j, hj⟩ := List.getElem?_of_mem hmem
  rw [List.getElem?_modify] at hj
  obtain ⟨c, hc, rfl⟩ := Option.map_eq_some_iff.mp hj
  have hkept := h c (List.mem_of_getElem? hc)
  split
  · exact hf c hkept
  · exact hkept

/-- What is said of tasks and not of their runs holds of equal tasks. -/
theorem forall_mem_of_uncounted {P : Task α → Prop} (hP : ∀ t : Task α, P t.uncounted ↔ P t)
    (htasks : s'.tasks.map Task.uncounted = s.tasks.map Task.uncounted)
    (h : ∀ t ∈ s.tasks, P t) : ∀ t ∈ s'.tasks, P t := by
  intro t ht
  have hmem : t.uncounted ∈ s.tasks.map Task.uncounted := htasks ▸ List.mem_map_of_mem ht
  obtain ⟨t', ht', he⟩ := List.mem_map.mp hmem
  exact (hP t).mp (he ▸ (hP t').mpr (h t' ht'))

/-! ## 3. Moves -/

/-- A plain body does nothing to its system. -/
theorem evaluate_of_isPlain {t : Task α} (h : t.body.IsPlain) (p : Pool α) (w run : Nat) :
    (s.evaluate p w t run).2 = s := by
  unfold evaluate
  cases hkind : t.body.kind with
  | submit on pool task => exact absurd hkind (h.alone on pool task)
  | _ => rfl

/-- A plain body ends without a submission. -/
theorem Orderly.endBody (h : s.Orderly) (i w : Nat) (k : Ticket) (job : Job) (run : Nat) :
    (∀ p ∈ (s.endBody i w k job run).pools, p.Serving) ∧
      (s.endBody i w k job run).tasks = s.tasks := by
  unfold System.endBody
  split
  · next p t hi ht =>
    split
    · rw [reportPanic_eq]
      refine ⟨serving_modifyPool h.serving fun p _ hp => ?_, rfl⟩
      exact (hp.note _).setPhase w rfl
    · dsimp only
      rw [evaluate_of_isPlain (h.plain t (List.mem_of_getElem? ht))]
      refine ⟨serving_modifyPool h.serving fun p _ hp => ?_, rfl⟩
      exact (hp.putResult k _).setPhase w rfl
  · exact ⟨h.serving, rfl⟩

theorem Orderly.enterBody (h : s.Orderly) (i w : Nat) (k : Ticket) (job : Job) :
    (∀ p ∈ (s.enterBody i w k job).pools, p.Serving) ∧
      (s.enterBody i w k job).tasks.map Task.uncounted = s.tasks.map Task.uncounted := by
  unfold System.enterBody
  split
  · next p t hi ht =>
    have hgate : t.body.gate.has (t.runs + 1) = false := by
      rw [(h.plain t (List.mem_of_getElem? ht)).ungated]
      rfl
    dsimp only
    rw [hgate]
    refine ⟨serving_modifyPool (s := s.modifyTask job.task _) h.serving fun p _ hp => ?_, ?_⟩
    · exact hp.setPhase w rfl
    · exact map_modify_of_eq (f := Task.uncounted) (g := ({ · with runs := t.runs + 1 }))
        (fun _ => rfl) s.tasks job.task
  · exact ⟨h.serving, rfl⟩

theorem Orderly.works (h : s.Orderly) {i w : Nat} (hworks : s.Works i w s') :
    (∀ p ∈ s'.pools, p.Serving) ∧
      s'.tasks.map Task.uncounted = s.tasks.map Task.uncounted ∧
      ∀ j ∈ s'.joiners, j.answer?.isSome := by
  -- a section that ends with a look for work
  have hlook {phase : Phase} (hphase : s.phase? i w = some phase)
      (hlooks : phase.looksNext = true) :
      ∀ p ∈ (s.modifyPool i (·.goOn w phase)).pools, p.Serving := by
    obtain ⟨p, hi, hw⟩ := phase?_eq_some.mp hphase
    refine serving_modifyPool h.serving fun q hq hserving => ?_
    obtain rfl : q = p := Option.some.inj (hq.symm.trans hi)
    exact hserving.goOn (h.occurs.poolsSound i q hi) hw hlooks
  cases hworks with
  | idle => exact ⟨h.serving, rfl, h.answered⟩
  | look hphase hlooks => exact ⟨hlook hphase hlooks, rfl, h.answered⟩
  | @enter k job hphase =>
    obtain ⟨hserving, htasks⟩ := h.enterBody i w k job
    refine ⟨hserving, htasks, ?_⟩
    obtain ⟨_, _, _, he⟩ := s.enterBody_frame i w k job
    rw [he]
    exact h.answered
  | @leave k job run hphase =>
    obtain ⟨hserving, htasks⟩ := h.endBody i w k job run
    refine ⟨hserving, by rw [htasks], ?_⟩
    obtain ⟨_, _, _, he⟩ := s.endBody_frame i w k job run
    rw [he]
    exact h.answered
  | finish hphase =>
    refine ⟨hlook hphase rfl, rfl, fun j hj => ?_⟩
    obtain ⟨old, hold, rfl⟩ := List.mem_map.mp hj
    have hanswered := h.answered old hold
    split
    · rw [Joiner.answer?_wake]
      exact hanswered
    · exact hanswered

/-- **One move of any thread.** -/
theorem Orderly.perform (h : s.Orderly) (m : Move) :
    (s.perform m).Orderly ∧
      (s.perform m).tasks.map Task.uncounted = s.tasks.map Task.uncounted := by
  have hmoved : (∀ p ∈ (s.perform m).pools, p.Serving) ∧
      (s.perform m).tasks.map Task.uncounted = s.tasks.map Task.uncounted ∧
      ∀ j ∈ (s.perform m).joiners, j.answer?.isSome := by
    cases m with
    | worker i w => exact h.works (s.works_worker i w)
    | joiner n =>
      -- every join has its answer, and does nothing any more
      have hstays : s.perform (.joiner n) = s := by
        have hanswered (state : JoinState α) (hn : s.joinState? n = some state) :
            ∃ answer, state = .answered answer := by
          obtain ⟨j, hj, hstate⟩ := Option.bind_eq_some_iff.mp hn
          obtain rfl := Option.some.inj hstate
          have hsome := h.answered j (List.mem_of_getElem? hj)
          cases hj' : j.state with
          | answered answer => exact ⟨answer, rfl⟩
          | _ => simp [Joiner.answer?, hj'] at hsome
        unfold System.perform
        dsimp only
        split
        · next hn => exact absurd (hanswered _ hn) (by simp)
        · next hn => exact absurd (hanswered _ hn) (by simp)
        · rfl
      rw [hstays]
      exact ⟨h.serving, rfl, h.answered⟩
    | shutdown i =>
      refine ⟨serving_modifyPool h.serving fun p _ hp => ?_, rfl, h.answered⟩
      have hawake : p.standing.isWoken = false := by
        by_contra hwoken
        have hended := Pool.isActive_of_isWoken (by simpa using hwoken)
        exact absurd (hp.active.symm.trans hended) (by simp)
      rw [hawake, if_neg Bool.false_ne_true]
      exact hp
  obtain ⟨hserving, htasks, hanswered⟩ := hmoved
  refine ⟨?_, htasks⟩
  constructor
  · exact h.occurs.brings (s.brings_perform m)
  · obtain ⟨_, _, _, _, he⟩ := s.perform_frame m
    rw [he]
    exact h.granted
  · exact hserving
  · exact forall_mem_of_uncounted (fun _ => Iff.rfl) htasks h.plain
  · exact forall_mem_of_uncounted (fun _ => Iff.rfl) htasks h.undetached
  · exact hanswered

theorem Orderly.settle (h : s.Orderly) {schedule : Schedule α}
    (hdiligent : Schedule.Diligent schedule) :
    (s.settle schedule).Orderly ∧
      (s.settle schedule).tasks.map Task.uncounted = s.tasks.map Task.uncounted :=
  settle_induct hdiligent
    (P := fun s' => s'.Orderly ∧ s'.tasks.map Task.uncounted = s.tasks.map Task.uncounted)
    (fun _ m hs' _ => ⟨(hs'.1.perform m).1, (hs'.1.perform m).2.trans hs'.2⟩) ⟨h, rfl⟩

/-! ## 4. At rest -/

/-- **When nobody can move, every record has finished.** -/
theorem Orderly.finished (h : s.Orderly) (hrests : s.Rests) {x : Submission} {r : Record Job}
    (hr : s.record? x = some r) : r.status = .finished := by
  obtain ⟨p, hi, hget⟩ := Option.bind_eq_some_iff.mp hr
  have hp := h.occurs.poolsSound x.pool p hi
  have hidle {phase : Phase} (hmem : phase ∈ p.workers) :
      phase = .parked false ∨ phase = .exited := by
    obtain ⟨w, hw⟩ := List.getElem?_of_mem hmem
    have hready := hrests (.worker x.pool w)
    rw [ready, phase?_eq_some.mpr ⟨p, hi, hw⟩, Option.any_some] at hready
    exact (h.serving p (List.mem_of_getElem? hi)).idle hmem hready
  cases hs : r.status with
  | finished => rfl
  | queued =>
    -- somebody would have been told of it
    have hwait := hp.waiting_ne_nil hget hs
    obtain ⟨phase, hmem, hin⟩ := hp.exists_worker (hp.alert.manned hwait)
    rcases hidle hmem with he | he
    · exact absurd he (hp.not_asleep (Or.inl hwait) hmem)
    · exact absurd he hin
  | running =>
    -- somebody would run it
    obtain ⟨w, hw⟩ := hp.staffed.executed x.ticket (Queue.status?_eq_some.mpr ⟨r, hget, hs⟩)
    obtain ⟨phase, hphase, hticket⟩ := Option.bind_eq_some_iff.mp hw
    rcases hidle (List.mem_of_getElem? hphase) with rfl | rfl <;>
      exact absurd hticket (by simp [Phase.ticket?])

/-- A submission is answered with what its body left: a value, or that it panicked. -/
theorem outcome_cases (s : System α) (x : Submission) :
    (∃ v, s.outcome x = .ok v) ∨ s.outcome x = .error .taskPanicked := by
  unfold outcome
  split
  · unfold Pool.outcome
    split
    · exact Or.inl ⟨_, rfl⟩
    · exact Or.inr rfl
  · exact Or.inr rfl

theorem isSpent_iff {x : Submission} :
    s.isSpent x = true ↔
      ∀ r, s.record? x = some r → r.joined = true ∧ r.status = .finished := by
  cases hr : s.record? x with
  | some r => simp [Program.isSpent_of_record hr]
  | none =>
    refine iff_of_true ?_ (by simp)
    unfold isSpent
    cases hi : s.pools[x.pool]? with
    | none => rfl
    | some p =>
      have hget : p.queue.get? x.ticket = none := by simpa [record?, hi] using hr
      simp [Queue.isSpent, hget]

/-- A mark more does not make anybody need a record again. -/
theorem isSpent_join {x : Submission} (h : s.isSpent x = true) (y : Submission) :
    (s.modifyPool y.pool (·.join y.ticket)).isSpent x = true := by
  rw [isSpent_iff] at h ⊢
  intro r hr
  obtain ⟨p', hi', hget⟩ := Option.bind_eq_some_iff.mp hr
  rw [pools_modifyPool] at hi'
  split at hi'
  · obtain ⟨p, hi, rfl⟩ := Option.map_eq_some_iff.mp hi'
    have hget : (p.queue.join y.ticket).get? x.ticket = some r := hget
    rw [Queue.get?_join] at hget
    split at hget
    · obtain ⟨old, hold, rfl⟩ := Option.map_eq_some_iff.mp hget
      exact ⟨rfl, (h old (by simp [record?, hi, hold])).2⟩
    · exact h r (by simp [record?, hi, hget])
  · exact h r (by simp [record?, hi', hget])

/-- **A join at rest is answered at once**: that there is nothing to join, or with what the body
of the most recent submission left, whose record nobody needs any more then. -/
theorem Orderly.joinFor_cases (h : s.Orderly) (hrests : s.Rests) (a : Nat) :
    s.submissions a = [] ∧ s.joinFor a none = (.error .notSubmitted, s) ∨
      ∃ x, (s.submissions a).head? = some x ∧
        s.joinFor a none = (.ok s.joiners.length, s.joinAnswered a x none) ∧
        (s.joinAnswered a x none).Orderly ∧ (s.joinAnswered a x none).isSpent x = true := by
  cases hsubmissions : s.submissions a with
  | nil =>
    refine Or.inl ⟨rfl, ?_⟩
    unfold joinFor call
    rw [hsubmissions]
    rfl
  | cons x rest =>
    refine Or.inr ⟨x, rfl, ?_⟩
    have hcalled : (s.joinFor a none).1 = .ok s.joiners.length := by
      unfold joinFor call
      rw [hsubmissions]
      rfl
    rcases h.occurs.joinFor_cases a none with he | ⟨hzero, -⟩ | ⟨x', r, hx, hr, -, he⟩
    · exact absurd (hcalled.symm.trans (congrArg Prod.fst he)) (by simp)
    · exact absurd hzero (by simp)
    rw [hsubmissions] at hx
    obtain rfl : x = x' := Option.some.inj hx
    have he : s.joinFor a none = (.ok s.joiners.length, s.joinAnswered a x none) :=
      he.trans (congrArg (Prod.mk _) (if_pos (h.finished hrests hr)))
    refine ⟨he, ?_, ?_⟩
    · constructor
      · have hbrings := s.brings_joinFor a none
        rw [he] at hbrings
        exact h.occurs.brings hbrings
      · exact h.granted
      · exact serving_of_workers (workers_join s x) h.serving
      · exact h.plain
      · exact h.undetached
      · intro j hj
        rcases List.mem_append.mp hj with hj | hj
        · exact h.answered j hj
        · rw [List.mem_singleton.mp hj]
          rfl
    · have hmarked := s.record?_join x
      rw [hr] at hmarked
      have hfinished := h.finished hrests hr
      exact (Program.isSpent_of_record (s := s.joinAnswered a x none) hmarked).mpr
        ⟨rfl, hfinished⟩

/-! ## 5. Submissions and releases -/

/-- The records that the tasks in use hold in a pool. -/
def heldIn (s : System α) (i : Nat) : List Submission :=
  s.tasks.flatMap fun t => if t.fate = .live then t.submissions.filter fun x => x.pool = i else []

/-- **A pool has as many records as the tasks in use hold.** -/
theorem Orderly.size_eq (h : s.Orderly) {i : Nat} {p : Pool α} (hi : s.pools[i]? = some p) :
    p.queue.size = (s.heldIn i).length := by
  have hplain := h.undetached
  obtain ⟨q, hq, hnone, rfl⟩ := h.occurs
  have hreturning : q.returning i = [] := by simp [Program.returning, hnone]
  have hleft : q.leftBehind i = [] := by
    have hdetached : q.submissionsOf .detached i = [] := by
      refine List.flatMap_eq_nil_iff.mpr fun t ht => if_neg (hplain t ht)
    simp [Program.leftBehind, hdetached]
  have hcount := (hq.accounted hi).count
  rw [hreturning, hleft] at hcount
  exact hcount

/-- A submission is accepted if the pool has room, and refused otherwise. -/
theorem Orderly.submit (h : s.Orderly) {i a : Nat} {p : Pool α} {t : Task α}
    (hi : s.pools[i]? = some p) (ht : s.tasks[a]? = some t) (hlive : t.fate = .live) :
    (s.submit i a).2.Orderly ∧ ∃ p', (s.submit i a).2.pools[i]? = some p' ∧
      if p.queue.size < p.plan.limit then
        (s.submit i a).1 = .accepted ∧ p'.queue.size = p.queue.size + 1 ∧
          ∃ x, (s.submit i a).2.tasks =
            s.tasks.modify a fun t => { t with submissions := x :: t.submissions }
      else (s.submit i a).1 = .failed .tooManyTasks ∧ p'.queue.size = p.queue.size ∧
        (s.submit i a).2.tasks = s.tasks := by
  have hp : p.Serving := h.serving p (List.mem_of_getElem? hi)
  have hactive : p.isActive = true := hp.active
  have hlimit : p.queue.limit = p.plan.limit := by
    obtain ⟨q, hq, -, rfl⟩ := h.occurs
    exact hq.terms hi
  have hfull : p.queue.isFull = true ↔ ¬p.queue.size < p.plan.limit := by
    rw [Queue.isFull, decide_eq_true_eq, hlimit, Nat.not_lt]
  have hoccurs := h.occurs.brings (s.brings_submit i a)
  have hserving : ∀ q ∈ (s.modifyPool i fun _ => (p.submit s.refusal ⟨a⟩).2).pools, q.Serving :=
    serving_modifyPool h.serving fun _ _ _ => hp.submit s.refusal ⟨a⟩
  have hpool (q : Pool α) : (s.modifyPool i fun _ => q).pools[i]? = some q := by
    rw [pools_modifyPool, if_pos rfl, hi]
    rfl
  rcases p.submit_cases s.refusal ⟨a⟩ with ⟨hfull', he⟩ | ⟨e, -, hgrow, -⟩ | ⟨hroom, -, he⟩
  · rw [he] at hserving
    have hsubmit : s.submit i a =
        (.failed .tooManyTasks, s.modifyPool i fun _ => p.note (.queueFull p.queue.limit)) := by
      simp [System.submit, hi, ht, hactive, Task.isLive, hlive, he]
    rw [hsubmit] at hoccurs ⊢
    refine ⟨⟨hoccurs, h.granted, hserving, h.plain, h.undetached, h.answered⟩,
      p.note (.queueFull p.queue.limit), hpool _, ?_⟩
    rw [if_neg (hfull.mp hfull')]
    exact ⟨rfl, rfl, rfl⟩
  · -- no thread is refused
    rw [h.granted] at hgrow
    unfold Pool.grow at hgrow
    split at hgrow <;> exact absurd hgrow (by simp)
  · rw [he] at hserving
    have hsubmit : s.submit i a =
        (.accepted, (s.modifyPool i fun _ => (p.grow s.refusal).2.linked ⟨a⟩).modifyTask a
          fun t => { t with submissions := ⟨i, p.queue.freshTicket⟩ :: t.submissions }) := by
      simp [System.submit, hi, ht, hactive, Task.isLive, hlive, he]
    have hroom' : p.queue.size < p.plan.limit := by
      by_contra hnot
      exact absurd (hroom.symm.trans (hfull.mpr hnot)) (by simp)
    rw [hsubmit] at hoccurs ⊢
    refine ⟨⟨hoccurs, h.granted, hserving, ?_, ?_, h.answered⟩, (p.grow s.refusal).2.linked ⟨a⟩,
      hpool _, ?_⟩
    · exact forall_mem_modify (P := fun t : Task α => t.body.IsPlain)
        (f := fun t => { t with submissions := ⟨i, p.queue.freshTicket⟩ :: t.submissions })
        (fun _ ht => ht) h.plain a
    · exact forall_mem_modify (P := fun t : Task α => t.fate ≠ .detached)
        (f := fun t => { t with submissions := ⟨i, p.queue.freshTicket⟩ :: t.submissions })
        (fun _ ht => ht) h.undetached a
    · rw [if_pos hroom']
      refine ⟨rfl, ?_, _, rfl⟩
      show ((p.grow s.refusal).2.queue.pushed ⟨a⟩).size = _
      rw [Pool.queue_grow]
      exact Slab.size_insert _ _

/-- Taking out records concerns no worker. -/
theorem workers_unlinkAll (xs : List Submission) (s : System α) :
    ((s.unlinkAll xs).pools.map fun p => (p.workers, p.standing)) =
      s.pools.map fun p => (p.workers, p.standing) := by
  induction xs generalizing s with
  | nil => rfl
  | cons x rest ih =>
    refine (ih _).trans (map_modify_of_eq (fun p => ?_) s.pools x.pool)
    rcases p.unlink_cases x.ticket with he | he | ⟨f, he⟩ <;> rw [he]
    all_goals rfl

/-- **A release is granted** to a task all of whose records nobody needs, and nobody else needs one
of them afterwards. -/
theorem Orderly.release (h : s.Orderly) (hrests : s.Rests) {a : Nat} {t : Task α}
    (ht : s.tasks[a]? = some t) (hlive : t.fate = .live)
    (hspent : ∀ x ∈ t.submissions, s.isSpent x = true) :
    (s.release a).1 = none ∧ (s.release a).2.Orderly ∧ (s.release a).2.Rests ∧
      (s.release a).2.tasks = s.tasks.modify a (·.retire .released) ∧
      ∀ x, s.isSpent x = true → (s.release a).2.isSpent x = true := by
  have hlive' : t.isLive = true := by simp [Task.isLive, hlive]
  have hsubmissions : s.submissions a = t.submissions := by simp [submissions, ht, hlive']
  have hcan : s.canRelease a = true := by
    rw [canRelease, hsubmissions]
    exact List.all_eq_true.mpr hspent
  have hrelease : (s.release a).2 =
      (s.unlinkAll t.submissions.reverse).modifyTask a fun t => t.retire .released := by
    simp [System.release, hcan, hsubmissions]
  obtain ⟨u, hfrees, hu⟩ : ∃ u, s.Frees u t.submissions ∧
      (s.release a).2 = u.modifyTask a fun t => t.retire .released := by
    obtain ⟨q, hq, -, rfl⟩ := h.occurs
    exact hq.frees_release ht hlive' hcan
  have hworkers : ((s.release a).2.pools.map fun p => (p.workers, p.standing)) =
      s.pools.map fun p => (p.workers, p.standing) := by
    rw [hrelease]
    exact workers_unlinkAll t.submissions.reverse s
  have hrest : (s.release a).2 =
      { s with pools := u.pools, tasks := s.tasks.modify a (·.retire .released) } := by
    rw [hu, hfrees.rest]
    rfl
  have hfree : s.IsFree a := fun j hj _ => h.answered j hj
  have htasks : (s.release a).2.tasks = s.tasks.modify a (·.retire .released) := by rw [hrest]
  have hjoiners : (s.release a).2.joiners = s.joiners := by rw [hrest]
  refine ⟨release_eq_none_iff.mpr hcan, ?_, ?_, htasks, ?_⟩
  · constructor
    · exact h.occurs.brings (brings_release hfree)
    · rw [hrest]
      exact h.granted
    · exact serving_of_workers hworkers h.serving
    · rw [htasks]
      refine forall_mem_modify (P := fun t : Task α => t.body.IsPlain) (fun t ht => ?_) h.plain a
      unfold Task.retire
      split <;> exact ht
    · rw [htasks]
      refine forall_mem_modify (P := fun t : Task α => t.fate ≠ .detached) (fun t ht => ?_)
        h.undetached a
      unfold Task.retire
      split
      · simp
      · exact ht
    · rw [hjoiners]
      exact h.answered
  · refine hrests.of_pools hworkers ?_
    rw [hjoiners]
    exact hrests.asleep
  · intro x hx
    rw [isSpent_iff] at hx ⊢
    intro r hr
    have hr : u.record? x = some r := by rwa [hu] at hr
    rw [hfrees.record?_eq] at hr
    split at hr
    · exact absurd hr (by simp)
    · exact hx r hr

/-- A pool without records is shut down. -/
theorem Orderly.shutdown (h : s.Orderly) {i : Nat} {p : Pool α} (hi : s.pools[i]? = some p)
    (hsize : p.queue.size = 0) : (s.shutdown i).1 = none := by
  have hactive := (h.serving p (List.mem_of_getElem? hi)).active
  simp [System.shutdown, Pool.shutdown, hi, hactive, Queue.isEmpty, hsize]

/-- Whatever is done, a pool keeps its plan. -/
theorem Brings.plan_eq (hbrings : s.Brings s') (h : s.Occurs) {i : Nat} {p : Pool α}
    (hi : s.pools[i]? = some p) : ∃ p', s'.pools[i]? = some p' ∧ p'.plan = p.plan := by
  obtain ⟨q, hq, hnone, rfl⟩ := h
  obtain ⟨q', hq', rfl, -⟩ := hbrings q rfl hnone
  obtain ⟨p', hi', hsections⟩ := hq'.sections hi
  refine ⟨p', hi', ?_⟩
  exact hsections.induct (P := fun p' => p'.plan = p.plan) (hq.poolsSound i p hi) rfl
    fun _ _ hsound hplan hs => (congrArg Prod.fst (hs.terms_eq hsound)).trans hplan

/-- A new task concerns nobody. -/
theorem Orderly.addTask (h : s.Orderly) (id : String) {body : Body α} (hbody : body.IsPlain) :
    (s.addTask id body).Orderly where
  occurs := h.occurs.brings (s.brings_addTask id body)
  granted := h.granted
  serving := h.serving
  plain := by
    intro t ht
    rcases List.mem_append.mp ht with ht | ht
    · exact h.plain t ht
    · rw [List.mem_singleton.mp ht]
      exact hbody
  undetached := by
    intro t ht
    rcases List.mem_append.mp ht with ht | ht
    · exact h.undetached t ht
    · rw [List.mem_singleton.mp ht]
      simp
  answered := h.answered

end System
end WorkerPool
