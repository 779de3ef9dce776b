/-
# A system comes to rest

The moves of a program cannot go on for ever: each of them takes some effort (`System.effort`), also
one of a body that submits, and joins and shutdowns only ever move when they were told and there is
something for them to see (`Ledger.Prompt`).  A schedule that picks nobody who is not ready, and
somebody as long as anybody is (`Schedule.Diligent`), therefore lets a system settle until it
rests, and its budget suffices for that (`Reachable.rests_settle`).  A system that rests stays as it
is.
-/
import WorkerPool.Proofs.Effort
import WorkerPool.Proofs.Joins

namespace WorkerPool

/-! ## 1. Joins move for a reason -/

namespace Ledger

open Function (update)

variable {α : Type} {g g' : Ledger α}

/-- A join that was told has something to see, and one whose time is over was told. -/
structure Heeds (g : Ledger α) (j : Joiner α) : Prop where
  told : j.state = .waiting true →
    (∃ w run e, g.Lives j.submission j.task (.finished w run e)) ∨ j.isDue g.clock = true
  patient : j.state = .waiting false → j.isDue g.clock = false

/-- Every join moves for a reason. -/
def Prompt (g : Ledger α) : Prop := ∀ n j, g.joiner n = some j → g.Heeds j

theorem Prompt.start (processors : Nat) : (Program.start processors : Program α).ledger.Prompt := by
  intro n j hj
  simp [Program.start, Program.ledger, System.start] at hj

theorem isDue_mono {j : Joiner α} {clock clock' : Nat} (hle : clock ≤ clock')
    (h : j.isDue clock = true) : j.isDue clock' = true := by
  unfold Joiner.isDue at h ⊢
  split at h
  · simp only [decide_eq_true_eq] at h ⊢
    exact Nat.le_trans h hle
  · exact absurd h (by simp)

/-- The same join later, when it was not told and no time has passed. -/
theorem Heeds.frame {j : Joiner α} (h : g.Heeds j) (h' : g'.Chronicled) (ht : Tick g g')
    (hmem : j.submission ∈ g.submissions j.task) (hclock : g'.clock = g.clock) : g'.Heeds j where
  told := by
    intro hs
    rcases h.told hs with ⟨w, run, e, hlife⟩ | hdue
    · exact Or.inl ⟨w, run, e,
        hlife.over h' (tick_history_suffix ht) (mem_submissions_tick ht hmem)⟩
    · exact Or.inr (hclock ▸ hdue)
  patient := fun hs => hclock ▸ h.patient hs

/-- A join that is told has its reason. -/
theorem Heeds.wake {j : Joiner α}
    (hreason : (∃ w run e, g.Lives j.submission j.task (.finished w run e)) ∨
      j.isDue g.clock = true) : g.Heeds j.wake where
  told := fun _ => by simpa only [Joiner.submission_wake, Joiner.task_wake, Joiner.isDue,
    Joiner.deadline_wake] using hreason
  patient := fun hs => absurd hs j.state_wake_ne

theorem Prompt.tick (h : g.Prompt) (hj : g.Joined) (hc' : g'.Chronicled) (ht : Tick g g') :
    g'.Prompt := by
  have ht' := ht
  -- a join of which the tick does not speak
  have hframe {n : Nat} {j : Joiner α} (hn : g.joiner n = some j) (hclock : g'.clock = g.clock) :
      g'.Heeds j :=
    (h n j hn).frame hc' ht' (hj n j hn).mem hclock
  intro n j hn
  cases ht with
  | elapse ms =>
    obtain ⟨old, hold, rfl⟩ := Option.map_eq_some_iff.mp hn
    by_cases hdue : old.isDue (g.clock + ms) = true
    · rw [if_pos hdue]
      exact Heeds.wake (Or.inr hdue)
    · rw [if_neg hdue]
      refine ⟨fun hs => ?_, fun _ => by simpa using hdue⟩
      rcases (h n old hold).told hs with ⟨w, run, e, hlife⟩ | hbefore
      · exact Or.inl ⟨w, run, e, hlife.over hc' (tick_history_suffix ht')
          (mem_submissions_tick ht' (hj n old hold).mem)⟩
      · exact Or.inr (isDue_mono (Nat.le_add_right _ _) hbefore)
  | @finish x w job r hx hr =>
    obtain ⟨old, hold, rfl⟩ := Option.map_eq_some_iff.mp hn
    by_cases hne : old.submission = x
    · rw [if_pos hne]
      refine Heeds.wake (Or.inl (hc'.finished (mem_submissions_tick ht' (hj n old hold).mem) ?_))
      -- the record has finished, or is gone
      show Record.lastStatus (update g.record x _ old.submission) = .finished
      rw [hne, Function.update_self]
      cases r.detached <;> rfl
    · rw [if_neg hne]
      exact hframe hold rfl
  | @call a m held x deadline hh hlive hx hm =>
    replace hn : update g.joiner m (some ⟨a, x, deadline, .called⟩) n = some j := hn
    rw [Function.update_apply] at hn
    split at hn
    · obtain rfl := Option.some.inj hn
      exact ⟨fun hs => absurd hs (by simp), fun hs => absurd hs (by simp)⟩
    · exact hframe hn rfl
  | @look m old state hold hp hs =>
    replace hn : update g.joiner m (some { old with state }) n = some j := hn
    rw [Function.update_apply] at hn
    split at hn
    · obtain rfl := Option.some.inj hn
      cases hs with
      | waits hr hs hd => exact ⟨fun hw => absurd hw (by simp), fun _ => hd⟩
      | _ => exact ⟨fun hw => absurd hw (by simp), fun hw => absurd hw (by simp)⟩
    · exact hframe hn rfl
  | _ => exact hframe hn rfl

end Ledger

namespace Program

variable {α : Type} {p : Program α}

theorem Reachable.prompt (h : p.Reachable) : p.ledger.Prompt := by
  refine (h.of_ticks (P := fun g => (g.Owned ∧ g.Chronicled ∧ g.Joined) ∧ g.Prompt)
    ⟨⟨.start 0, .start 0, .start 0⟩, .start 0⟩ ?_).2
  intro g g' ⟨⟨ho, hc, hj⟩, hp⟩ ht
  have hc' := hc.tick ho ht
  exact ⟨⟨ho.tick ht, hc', hj.tick ho hc hc' ht⟩, hp.tick hj hc' ht⟩

/-- A join in progress that was told finds its record finished, or its time over. -/
theorem Reachable.reason (h : p.Reachable) {n : Nat} {j : Joiner α}
    (hj : p.system.joiners[n]? = some j) (hs : j.state = .waiting true) :
    ∃ r, p.system.record? j.submission = some r ∧
      (r.status = .finished ∨ j.isDue p.system.clock = true) := by
  obtain ⟨r, hr, -⟩ := (h.joined n j hj).record h.owned (by simp [Joiner.answer?, hs])
  refine ⟨r, hr, ?_⟩
  rcases (h.prompt n j hj).told hs with ⟨w, run, e, hlife⟩ | hdue
  · exact Or.inl ((Ledger.statusOf_of_record hr).symm.trans hlife.status)
  · exact Or.inr hdue

/-- The task of a body is there. -/
theorem Reachable.task_of_executing (h : p.Reachable) {i w : Nat} {k : Ticket} {job : Job}
    {stage : Stage} (hw : p.system.phase? i w = some (.executing k job stage)) :
    ∃ t, p.system.tasks[job.task]? = some t := by
  have hmem := h.owned.running i w k job stage (running_eq_some.mpr hw)
  cases ht : p.system.tasks[job.task]? with
  | none => simp [Ledger.submissions, ledger, ht] at hmem
  | some t => exact ⟨t, rfl⟩

end Program

/-! ## 2. The effort of a system -/

/-- How often a join looks at its record without having been told again, at most. -/
def JoinState.effort {α : Type} : JoinState α → Nat
  | called => 2
  | waiting _ => 1
  | answered _ => 0

/-- The entry that a list is changed at. -/
theorem modify_eq_set {β : Type} {l : List β} {i : Nat} {b : β} (hi : l[i]? = some b) (f : β → β) :
    l.modify i f = l.set i (f b) := by
  refine List.ext_getElem? fun m => ?_
  rw [List.getElem?_modify, List.getElem?_set]
  by_cases hm : i = m
  · obtain ⟨hlt, hb⟩ := List.getElem?_eq_some_iff.mp hi
    subst hm
    simp [hlt, hb]
  · simp [hm]

namespace System

variable {α : Type} {s : System α}

/-- What the joins may still do. -/
def joinEffort (s : System α) : Nat := (s.joiners.map (·.state.effort)).sum

/-- What may still be done. -/
def effort (s : System α) : Nat := (s.pools.map Pool.effort).sum + s.joinEffort

theorem effort_modifyPool {i : Nat} {pool : Pool α} (hi : s.pools[i]? = some pool)
    (f : Pool α → Pool α) :
    (s.modifyPool i f).effort + pool.effort = s.effort + (f pool).effort := by
  have hsum := Pool.sum_map_set Pool.effort hi (f pool)
  show ((s.pools.modify i f).map Pool.effort).sum + s.joinEffort + pool.effort = _
  rw [modify_eq_set hi, effort]
  omega

theorem effort_setJoin {n : Nat} {j : Joiner α} (hj : s.joiners[n]? = some j)
    (state : JoinState α) :
    (s.setJoin n state).effort + j.state.effort = s.effort + state.effort := by
  have hsum : ((s.joiners.set n { j with state }).map (·.state.effort)).sum + j.state.effort =
      (s.joiners.map (·.state.effort)).sum + state.effort :=
    Pool.sum_map_set (fun j : Joiner α => j.state.effort) hj { j with state }
  show (s.pools.map Pool.effort).sum + ((s.joiners.modify n fun j => { j with state }).map
    (·.state.effort)).sum + j.state.effort = _
  rw [modify_eq_set hj, effort, joinEffort]
  omega

theorem effort_wake (j : Joiner α) : j.wake.state.effort = j.state.effort := by
  obtain ⟨_, _, _, state⟩ := j
  cases state <;> rfl

theorem effort_wakeJoiners (s : System α) (x : Submission) :
    (s.wakeJoiners x).effort = s.effort := by
  have hjoins : (s.wakeJoiners x).joinEffort = s.joinEffort := by
    rw [joinEffort, joinEffort, wakeJoiners, List.map_map]
    congr 1
    refine List.map_congr_left fun j _ => ?_
    simp only [Function.comp_apply]
    split
    · exact effort_wake j
    · rfl
  rw [effort, hjoins]
  rfl

theorem effort_join (s : System α) (x : Submission) :
    (s.modifyPool x.pool (·.join x.ticket)).effort = s.effort := by
  cases hi : s.pools[x.pool]? with
  | none => rw [modifyPool_of_none hi]
  | some pool =>
    have hsum := effort_modifyPool hi (·.join x.ticket)
    rw [Pool.effort_join] at hsum
    omega

/-- A join that looks at its record is answered or waits on, and waits on only if it has to. -/
theorem lookAgain_cases {n : Nat} {j : Joiner α} (hj : s.joiners[n]? = some j) :
    ∃ state : JoinState α, (s.lookAgain n).effort + j.state.effort = s.effort + state.effort ∧
      (state.effort = 0 ∨ state = .waiting false ∧ ∃ r, s.record? j.submission = some r ∧
        r.status ≠ .finished ∧ j.isDue s.clock = false) := by
  unfold lookAgain
  rw [hj]
  dsimp only
  cases hr : s.record? j.submission with
  | none => exact ⟨_, effort_setJoin hj _, Or.inl rfl⟩
  | some r =>
    dsimp only
    by_cases hs : r.status = .finished
    · rw [if_pos hs]
      let marked := s.modifyPool j.submission.pool fun p => p.join j.submission.ticket
      have hj' : marked.joiners[n]? = some j := hj
      have hsum := effort_setJoin hj' (.answered (s.outcome j.submission))
      rw [effort_join s j.submission] at hsum
      exact ⟨_, hsum, Or.inl rfl⟩
    · rw [if_neg hs]
      cases hdue : j.isDue s.clock with
      | true => exact ⟨_, effort_setJoin hj _, Or.inl rfl⟩
      | false => exact ⟨_, effort_setJoin hj _, Or.inr ⟨rfl, r, rfl, hs, rfl⟩⟩

theorem effort_startWait {n : Nat} {j : Joiner α} (hj : s.joiners[n]? = some j)
    (hs : j.state = .called) : (s.startWait n).effort < s.effort := by
  unfold startWait
  rw [hj]
  dsimp only
  have hmarked : ∀ marked : System α, marked.joiners[n]? = some j → marked.effort = s.effort →
      (marked.lookAgain n).effort < s.effort := by
    intro marked hj' hmarked
    obtain ⟨state, hsum, hstate⟩ := lookAgain_cases hj'
    have hle : state.effort ≤ 1 := by
      rcases hstate with hzero | ⟨rfl, -⟩
      · omega
      · exact Nat.le_refl _
    have hcalled : j.state.effort = 2 := by rw [hs]; rfl
    omega
  split
  · exact hmarked _ hj (effort_join s j.submission)
  · exact hmarked s hj rfl

/-- A submission from a body takes more than it brings. -/
theorem effort_submit (h : s.PoolsSound)
    (henlisted : ∀ (i : Nat) (pool : Pool α), s.pools[i]? = some pool → pool.Enlisted) (i a : Nat) :
    (s.submit i a).2.effort ≤ s.effort := by
  rcases s.submit_cases i a with ⟨-, he⟩ | ⟨pool, t, hi, -, -, hcase⟩
  · exact Nat.le_of_eq (congrArg effort he)
  cases hactive : pool.isActive with
  | false => exact Nat.le_of_eq (congrArg effort (submit_of_inactive hi hactive a))
  | true =>
    have hle : (pool.submit s.refusal ⟨a⟩).2.effort ≤ pool.effort := by
      rcases Pool.effort_submit (h i pool hi) (henlisted i pool hi) hactive s.refusal ⟨a⟩ with
        ⟨-, -, heffort⟩ | ⟨-, -, heffort⟩
      · exact Nat.le_of_eq heffort
      · exact Nat.le_of_lt heffort
    have hsum := effort_modifyPool hi fun _ => (pool.submit s.refusal ⟨a⟩).2
    rcases hcase with ⟨e, -, -, he⟩ | ⟨ticket, -, -, he⟩ <;> rw [he]
    · omega
    · show (s.modifyPool i fun _ => (pool.submit s.refusal ⟨a⟩).2).effort ≤ s.effort
      omega

end System

/-! ## 3. Every move takes some -/

namespace Program

variable {α : Type} {p : Program α}

theorem Reachable.effort_submit (h : p.Reachable) (i a : Nat) :
    (p.system.submit i a).2.effort ≤ p.system.effort :=
  System.effort_submit h.poolsSound (fun _ _ hi => h.enlisted hi) i a

/-- The section of a worker that looks for work at its end. -/
theorem effort_look {i w : Nat} {pool : Pool α} {phase : Phase} (h : p.Reachable)
    (hi : p.system.pools[i]? = some pool) (hw : pool.workers[w]? = some phase)
    (hlooks : phase.looksNext = true) :
    (p.system.perform (.worker i w)).effort < p.system.effort := by
  obtain ⟨-, -, hlt⟩ := Pool.effort_goOn (h.poolsSound i pool hi) hw hlooks
  have hsum := System.effort_modifyPool hi (·.goOn w phase)
  have hphase : p.system.phase? i w = some phase := System.phase?_eq_some.mpr ⟨pool, hi, hw⟩
  have hperform : (p.system.perform (.worker i w)).effort =
      (p.system.modifyPool i (·.goOn w phase)).effort := by
    rcases phase with _ | notified | ⟨k, job, stage⟩ | _
    · simp only [System.perform, hphase]
      rfl
    · obtain rfl : notified = true := hlooks
      simp only [System.perform, hphase]
      rfl
    · cases stage with
      | «over» =>
        simp only [System.perform, hphase, System.finishBody]
        exact System.effort_wakeJoiners _ _
      | _ => exact absurd hlooks (by simp [Phase.looksNext, Phase.isLooking])
    · exact absurd hlooks (by simp [Phase.looksNext, Phase.isLooking])
  omega

theorem effort_enterBody {i w : Nat} {k : Ticket} {job : Job} (h : p.Reachable)
    (hw : p.system.phase? i w = some (.executing k job .entering)) :
    (p.system.enterBody i w k job).effort < p.system.effort := by
  obtain ⟨pool, hi, hphase⟩ := System.phase?_eq_some.mp hw
  obtain ⟨t, ht⟩ := h.task_of_executing hw
  unfold System.enterBody
  simp only [hi, ht]
  let begun := p.system.modifyTask job.task fun t' => { t' with runs := t.runs + 1 }
  let stage :=
    if t.body.gate.has (t.runs + 1) then Stage.atGate (t.runs + 1) else .past (t.runs + 1)
  have hstage : (Phase.executing k job stage).effort = 4 := by
    by_cases hg : t.body.gate.has (t.runs + 1) = true <;> simp [stage, hg, Phase.effort]
  have hlt := Pool.effort_setPhase hphase (.executing k job stage)
    (by rw [hstage]; exact Nat.lt_succ_self 4)
  have hsum := System.effort_modifyPool (s := begun) hi (·.setPhase w (.executing k job stage))
  have hbegun : begun.effort = p.system.effort := rfl
  show (begun.modifyPool i (·.setPhase w (.executing k job stage))).effort < _
  omega

theorem effort_endBody {i w run : Nat} {k : Ticket} {job : Job} (h : p.Reachable)
    (hw : p.system.phase? i w = some (.executing k job (.past run))) :
    (p.system.endBody i w k job run).effort < p.system.effort := by
  obtain ⟨pool, hi, hphase⟩ := System.phase?_eq_some.mp hw
  obtain ⟨t, ht⟩ := h.task_of_executing hw
  -- the last step, whatever was put down before it
  have hover : ∀ (s : System α) (pool : Pool α) (f : Pool α → Pool α), s.pools[i]? = some pool →
      pool.workers[w]? = some (.executing k job (.past run)) →
      (f pool).workers = pool.workers → (f pool).effort = pool.effort →
      (s.modifyPool i fun pool => (f pool).setPhase w (.executing k job .over)).effort <
        s.effort := by
    intro s pool f hi hphase hworkers heffort
    have hphase' : (f pool).workers[w]? = some (.executing k job (.past run)) := by
      rw [hworkers]
      exact hphase
    have hlt := Pool.effort_setPhase hphase' (.executing k job .over) (Nat.lt_succ_self 3)
    have hsum := System.effort_modifyPool hi fun pool =>
      (f pool).setPhase w (.executing k job .over)
    omega
  unfold System.endBody
  simp only [hi, ht]
  split
  · rw [System.reportPanic_eq]
    exact hover p.system pool (·.note (.panicked w k.number)) hi hphase rfl rfl
  · have hle : (p.system.evaluate pool w t run).2.effort ≤ p.system.effort := by
      rcases p.system.evaluate_cases pool w t run with he | ⟨j, a, he⟩
      · exact Nat.le_of_eq (congrArg System.effort he)
      · exact Nat.le_trans (Nat.le_of_eq (congrArg System.effort he)) (h.effort_submit j a)
    obtain ⟨pool', hi', hphase'⟩ :=
      System.phase?_eq_some.mp (System.executing_evaluate hw pool w t run)
    have hlt := hover _ pool' (·.putResult k (p.system.evaluate pool w t run).1) hi' hphase'
      (Pool.workers_putResult _ _ _) (by unfold Pool.putResult; split <;> rfl)
    exact Nat.lt_of_lt_of_le hlt hle

/-- **Every move takes some effort.** -/
theorem Reachable.effort_perform (h : p.Reachable) {m : Move} (hm : p.system.ready m = true) :
    (p.system.perform m).effort < p.system.effort := by
  cases m with
  | worker i w =>
    obtain ⟨phase, hphase, hready⟩ := (Option.any_eq_true _ _).mp hm
    obtain ⟨pool, hi, hw⟩ := System.phase?_eq_some.mp hphase
    rcases phase with _ | notified | ⟨k, job, _ | r | run | _⟩ | _
    · exact effort_look h hi hw rfl
    · cases notified with
      | true => exact effort_look h hi hw rfl
      | false => exact absurd hready (by simp [Phase.isUnderWay, Phase.isLooking])
    · simp only [System.perform, hphase]
      exact effort_enterBody h hphase
    · exact absurd hready (by simp [Phase.isUnderWay, Phase.isLooking])
    · simp only [System.perform, hphase]
      exact effort_endBody h hphase
    · exact effort_look h hi hw rfl
    · exact absurd hready (by simp [Phase.isUnderWay, Phase.isLooking])
  | joiner n =>
    obtain ⟨j, hj, hwoken⟩ := (Option.any_eq_true _ _).mp hm
    have hstate : p.system.joinState? n = some j.state := by simp [System.joinState?, hj]
    rcases hs : j.state with _ | told | answer
    · simp only [System.perform, hstate, hs]
      exact System.effort_startWait hj hs
    · cases told with
      | false => exact absurd hwoken (by simp [Joiner.isWoken, hs])
      | true =>
        simp only [System.perform, hstate, hs]
        obtain ⟨state, hsum, hcase⟩ := System.lookAgain_cases hj
        have hzero : state.effort = 0 := by
          rcases hcase with hzero | ⟨-, r, hr, hne, hdue⟩
          · exact hzero
          · -- it was told for a reason
            obtain ⟨r', hr', hreason⟩ := h.reason hj hs
            obtain rfl := Option.some.inj (hr'.symm.trans hr)
            rcases hreason with hfinished | hover
            · exact absurd hfinished hne
            · exact absurd (hover.symm.trans hdue) (by simp)
        have hone : j.state.effort = 1 := by rw [hs]; rfl
        omega
    · exact absurd hwoken (by simp [Joiner.isWoken, hs])
  | shutdown i =>
    obtain ⟨pool, hi, hwoken⟩ := (Option.any_eq_true _ _).mp hm
    have hsum := System.effort_modifyPool hi
      fun p => if p.standing.isWoken then p.awaitWorkers else p
    have hlt := Pool.effort_awaitWorkers hwoken
    simp only [hwoken, if_true] at hsum
    show (p.system.modifyPool i _).effort < _
    omega

/-- The budget of a system covers its effort. -/
theorem Reachable.effort_le_budget (h : p.Reachable) : p.system.effort ≤ p.system.budget := by
  have hpools : ∀ pools : List (Pool α), (∀ pool ∈ pools, pool.Sound) →
      (pools.map Pool.effort).sum ≤ pools.foldr (fun p n => System.poolBudget p + n) 0 := by
    intro pools hsound
    induction pools with
    | nil => exact Nat.le_refl _
    | cons pool rest ih =>
      have hrest := ih fun pool' hmem => hsound pool' (List.mem_cons_of_mem _ hmem)
      have hpool := Pool.effort_le_budget (hsound pool List.mem_cons_self)
      simp only [List.map_cons, List.sum_cons, List.foldr_cons]
      omega
  have hjoins : ∀ joiners : List (Joiner α),
      (joiners.map (·.state.effort)).sum ≤ 2 * joiners.length := by
    intro joiners
    induction joiners with
    | nil => exact Nat.le_refl _
    | cons j rest ih =>
      have hj : j.state.effort ≤ 2 := by cases j.state <;> simp [JoinState.effort]
      simp only [List.map_cons, List.sum_cons, List.length_cons]
      omega
  refine Nat.add_le_add (hpools _ fun pool hmem => ?_) (hjoins _)
  obtain ⟨i, hi⟩ := List.getElem?_of_mem hmem
  exact h.poolsSound i pool hi

end Program

/-! ## 4. Settling -/

/-- Nobody can move. -/
def System.Rests {α : Type} (s : System α) : Prop := ∀ m, s.ready m = false

/-- A schedule that picks nobody who is not ready, and somebody as long as anybody is. -/
structure Schedule.Diligent {α : Type} (schedule : Schedule α) : Prop where
  ready : ∀ s m, schedule s = some m → s.ready m = true
  exhausts : ∀ s, schedule s = none → s.Rests

namespace System

variable {α : Type} {s : System α} {schedule : Schedule α}

theorem findWorker?_eq_some {wanted : Phase → Bool} {m : Move}
    (h : s.findWorker? wanted = some m) :
    ∃ i w phase, m = .worker i w ∧ s.phase? i w = some phase ∧ wanted phase = true := by
  obtain ⟨i, -, h⟩ := Option.bind_eq_some_iff.mp h
  obtain ⟨pool, hi, h⟩ := Option.bind_eq_some_iff.mp h
  obtain ⟨w, hw, h⟩ := Option.bind_eq_some_iff.mp h
  obtain ⟨hlt, hwanted, -⟩ := List.findIdx?_eq_some_iff_getElem.mp hw
  exact ⟨i, w, pool.workers[w], (Option.some.inj h).symm,
    phase?_eq_some.mpr ⟨pool, hi, List.getElem?_eq_getElem hlt⟩, hwanted⟩

theorem findWorker?_eq_none {wanted : Phase → Bool} (h : s.findWorker? wanted = none)
    {i w : Nat} {phase : Phase} (hphase : s.phase? i w = some phase) : wanted phase = false := by
  obtain ⟨pool, hi, hw⟩ := phase?_eq_some.mp hphase
  unfold findWorker? at h
  cases hfound : s.pools.findIdx? fun p => p.workers.any wanted with
  | none =>
    have hnot := List.findIdx?_eq_none_iff.mp hfound pool (List.mem_of_getElem? hi)
    simpa using List.any_eq_false.mp hnot phase (List.mem_of_getElem? hw)
  | some j =>
    -- then there would be a worker to find
    obtain ⟨hlt, hany, -⟩ := List.findIdx?_eq_some_iff_getElem.mp hfound
    cases hv : s.pools[j].workers.findIdx? wanted with
    | none =>
      obtain ⟨phase', hmem, hwanted⟩ := List.any_eq_true.mp hany
      exact absurd (hwanted.symm.trans (List.findIdx?_eq_none_iff.mp hv phase' hmem)) (by simp)
    | some v => simp [hfound, List.getElem?_eq_getElem hlt, hv] at h

/-- A schedule by the phases of the workers is diligent if these are the phases in which a worker
can move. -/
theorem byPhase_diligent {first second : Phase → Bool}
    (hphases : ∀ phase, (first phase || second phase) = (phase.isUnderWay || phase.isLooking)) :
    Schedule.Diligent (byPhase first second : System α → Option Move) where
  ready := by
    intro s m hm
    simp only [byPhase, Option.orElse_eq_orElse, Option.orElse_eq_or, Option.or_eq_some_iff,
      Option.map_eq_some_iff, List.findIdx?_eq_some_iff_getElem] at hm
    rcases hm with hm | ⟨-, hm | ⟨-, ⟨n, ⟨hlt, hwoken, -⟩, rfl⟩ | ⟨-, i, ⟨hlt, hwoken, -⟩, rfl⟩⟩⟩
    · obtain ⟨i, w, phase, rfl, hphase, hwanted⟩ := findWorker?_eq_some hm
      simp [ready, hphase, ← hphases, hwanted]
    · obtain ⟨i, w, phase, rfl, hphase, hwanted⟩ := findWorker?_eq_some hm
      simp [ready, hphase, ← hphases, hwanted]
    · simp [ready, List.getElem?_eq_getElem hlt, hwoken]
    · simp [ready, List.getElem?_eq_getElem hlt, hwoken]
  exhausts := by
    intro s hnone m
    simp only [byPhase, Option.orElse_eq_orElse, Option.orElse_eq_or, Option.or_eq_none_iff,
      Option.map_eq_none_iff, List.findIdx?_eq_none_iff] at hnone
    obtain ⟨hfirst, hsecond, hjoiners, hpools⟩ := hnone
    cases m with
    | worker i w =>
      cases hphase : s.phase? i w with
      | none => simp [ready, hphase]
      | some phase =>
        simp [ready, hphase, ← hphases, findWorker?_eq_none hfirst hphase,
          findWorker?_eq_none hsecond hphase]
    | joiner n =>
      cases hj : s.joiners[n]? with
      | none => simp [ready, hj]
      | some j => simp [ready, hj, hjoiners j (List.mem_of_getElem? hj)]
    | shutdown i =>
      cases hi : s.pools[i]? with
      | none => simp [ready, hi]
      | some pool => simp [ready, hi, hpools pool (List.mem_of_getElem? hi)]

theorem bodiesFirst_diligent : Schedule.Diligent (bodiesFirst : System α → Option Move) :=
  byPhase_diligent fun _ => rfl

theorem looksFirst_diligent : Schedule.Diligent (looksFirst : System α → Option Move) :=
  byPhase_diligent fun _ => Bool.or_comm _ _

/-- Two diligent schedules may take turns. -/
theorem inTurns_diligent : Schedule.Diligent (inTurns : System α → Option Move) where
  ready := by
    intro s m hm
    unfold inTurns at hm
    split at hm
    · exact looksFirst_diligent.ready s m hm
    · exact bodiesFirst_diligent.ready s m hm
  exhausts := by
    intro s hnone
    unfold inTurns at hnone
    split at hnone
    · exact looksFirst_diligent.exhausts s hnone
    · exact bodiesFirst_diligent.exhausts s hnone

/-- What every move of a ready thread keeps holds when the system has settled. -/
theorem settleWithin_induct {P : System α → Prop} (hschedule : Schedule.Diligent schedule)
    (hstep : ∀ s m, P s → s.ready m = true → P (s.perform m)) (fuel : Nat) (hs : P s) :
    P (s.settleWithin schedule fuel) := by
  induction fuel generalizing s with
  | zero => exact hs
  | succ fuel ih =>
    unfold settleWithin
    split
    · exact hs
    · next m hm => exact ih (hstep s m hs (hschedule.ready s m hm))

theorem settle_induct {P : System α → Prop} (hschedule : Schedule.Diligent schedule)
    (hstep : ∀ s m, P s → s.ready m = true → P (s.perform m)) (hs : P s) :
    P (s.settle schedule) :=
  settleWithin_induct hschedule hstep s.budget hs

theorem settleWithin_add (s : System α) (schedule : Schedule α) (fuel fuel' : Nat) :
    s.settleWithin schedule (fuel + fuel') =
      (s.settleWithin schedule fuel).settleWithin schedule fuel' := by
  induction fuel generalizing s with
  | zero => rw [Nat.zero_add]; rfl
  | succ fuel ih =>
    rw [Nat.add_right_comm]
    cases hm : schedule s with
    | none =>
      have hstays : ∀ n, s.settleWithin schedule n = s := by
        intro n
        cases n with
        | zero => rfl
        | succ n => rw [settleWithin, hm]
      rw [hstays, hstays, hstays]
    | some m =>
      rw [settleWithin, settleWithin, hm]
      exact ih (s.perform m)

/-- A system that rests stays as it is. -/
theorem Rests.settleWithin_eq (h : s.Rests) (hschedule : Schedule.Diligent schedule) (fuel : Nat) :
    s.settleWithin schedule fuel = s := by
  cases fuel with
  | zero => rfl
  | succ fuel =>
    unfold settleWithin
    split
    · rfl
    · next m hm => exact absurd ((hschedule.ready s m hm).symm.trans (h m)) (by simp)

theorem Rests.settle_eq (h : s.Rests) (hschedule : Schedule.Diligent schedule) :
    s.settle schedule = s :=
  h.settleWithin_eq hschedule s.budget

end System

namespace Program

variable {α : Type} {p : Program α} {schedule : Schedule α}

theorem Reachable.move (h : p.Reachable) (m : Move) : (p.act (.move m)).Reachable :=
  h.leads (Leads.refl.step (.move m) trivial)

theorem Reachable.rests_settleWithin (h : p.Reachable) (hschedule : Schedule.Diligent schedule)
    {fuel : Nat} (hle : p.system.effort ≤ fuel) : (p.system.settleWithin schedule fuel).Rests := by
  induction fuel generalizing p with
  | zero =>
    show p.system.Rests
    intro m
    by_contra hready
    have hlt := h.effort_perform (m := m) (by simpa using hready)
    omega
  | succ fuel ih =>
    unfold System.settleWithin
    split
    · next hnone => exact hschedule.exhausts _ hnone
    · next m hm =>
      have hlt := h.effort_perform (hschedule.ready _ m hm)
      exact ih (p := p.act (.move m)) (h.move m) (Nat.le_of_lt_succ (Nat.lt_of_lt_of_le hlt hle))

/-- **A system settles until it rests.** -/
theorem Reachable.rests_settle (h : p.Reachable) (hschedule : Schedule.Diligent schedule) :
    (p.system.settle schedule).Rests :=
  h.rests_settleWithin hschedule h.effort_le_budget

end Program
end WorkerPool
