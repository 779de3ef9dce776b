/-
# A pool that was dropped runs what it has

Nobody submits to a pool that was dropped, so there is nothing more to do in it than the `backlog`
that it has: each move of a worker takes some of it, and nothing adds to it (`Ebbs`).  A worker that
looks for work claims the newest record that waits, as in a pool in use, and leaves only when none
does.  So whenever the workers cannot go on, they are held up at gates or gone, and when the last
one has gone everything is finished.
-/
import WorkerPool.Proofs.Acceptances
import WorkerPool.Proofs.Effort
import WorkerPool.Proofs.Settling
import WorkerPool.Proofs.Shutdown
import WorkerPool.Proofs.NewestFirst
import WorkerPool.Proofs.Wakeups

namespace WorkerPool

/-! ## 1. One pool -/

namespace Pool

variable {α : Type} {p p' p'' : Pool α}

/-- How many workers are held up at a gate. -/
def heldUp (p : Pool α) : Nat := p.workers.countP fun phase => phase.blockedRun?.isSome

/-- The pool was dropped and stays so: nothing was added to what is left to do. -/
structure Ebbs (p p' : Pool α) : Prop where
  standing : p'.standing = .dropped
  next_eq : p'.queue.next = p.queue.next
  backlog_le : p'.backlog ≤ p.backlog

theorem Ebbs.refl (h : p.standing = .dropped) : Ebbs p p := ⟨h, rfl, Nat.le_refl _⟩

theorem Ebbs.trans (h : Ebbs p p') (h' : Ebbs p' p'') : Ebbs p p'' :=
  ⟨h'.standing, h'.next_eq.trans h.next_eq, Nat.le_trans h'.backlog_le h.backlog_le⟩

theorem inactive_of_dropped (h : p.standing = .dropped) : p.isActive = false := by
  rw [isActive, h]
  rfl

theorem standing_advance (hq : p.queue.Sound) (hd : p.standing = .dropped) (w : Nat) :
    (p.advance w).standing = .dropped := by
  rcases advance_cases hq w with ⟨k, rest, r, job, -, -, -, -, he⟩ | ⟨-, ⟨-, he⟩ | ⟨-, he⟩⟩ <;>
    rw [he]
  · exact hd
  · exact hd
  · exact congrArg Standing.notify hd

/-- A worker of a dropped pool that looks for work next. -/
theorem ebbs_goOn (hd : p.standing = .dropped) (hp : p.Sound) {w : Nat} {phase : Phase}
    (hw : p.workers[w]? = some phase) (hlooks : phase.looksNext = true) :
    Ebbs p (p.goOn w phase) := by
  have hbacklog := Nat.le_of_lt (effort_goOn hp hw hlooks).2.1
  rcases phase with _ | notified | ⟨k, job, stage⟩ | _
  · exact ⟨standing_advance hp.queue hd w, next_advance hp.queue w, hbacklog⟩
  · let q : Pool α := { p with busy := p.busy + 1 }
    exact ⟨standing_advance (p := q) hp.queue hd w, next_advance (p := q) hp.queue w, hbacklog⟩
  · cases stage with
    | «over» =>
      obtain ⟨r, hr, -, he⟩ := hp.finish_eq hw
      refine ⟨?_, next_finish hp hw, hbacklog⟩
      exact (congrArg Pool.standing he).trans (standing_advance (hp.ended hw _).queue hd w)
    | _ => exact absurd hlooks (by simp [Phase.looksNext, Phase.isLooking])
  · exact absurd hlooks (by simp [Phase.looksNext, Phase.isLooking])

/-- A body that goes on. -/
theorem ebbs_setPhase (h : Ebbs p p') {w : Nat} {old phase : Phase}
    (hw : p'.workers[w]? = some old) (hlt : phase.effort < old.effort) :
    Ebbs p (p'.setPhase w phase) := by
  have hbacklog := backlog_setPhase hw phase
  have hle := h.backlog_le
  exact ⟨h.standing, h.next_eq, by omega⟩

/-- **Nothing is added to what is left to do in a dropped pool.** -/
theorem ebbs_section (hd : p.standing = .dropped) (hp : p.Sound) (hs : Section p p') :
    Ebbs p p' := by
  have hina := inactive_of_dropped hd
  have hrefl := Ebbs.refl hd
  cases hs with
  | submit hactive refusal job => exact absurd (hactive.symm.trans hina) (by simp)
  | advance hw => exact ebbs_goOn hd hp hw rfl
  | wake hw => exact ebbs_goOn hd hp hw rfl
  | @enterBody w run k job stage hw hs =>
    refine ebbs_setPhase hrefl hw ?_
    rcases hs with rfl | rfl <;> exact Nat.lt_succ_self 4
  | @panicBody w run k job hw =>
    have hnoted : Ebbs p (p.note (.panicked w k.number)) := ⟨hd, rfl, Nat.le_refl _⟩
    exact ebbs_setPhase hnoted hw (Nat.lt_succ_self 3)
  | @returnBody w run k job hw v =>
    have hput : Ebbs p (p.putResult k v) := by
      unfold putResult
      split <;> exact ⟨hd, rfl, Nat.le_refl _⟩
    exact ebbs_setPhase hput ((congrArg (·[w]?) (workers_putResult p k v)).trans hw)
      (Nat.lt_succ_self 3)
  | finish hw => exact ebbs_goOn hd hp hw rfl
  | openGate task run =>
    refine ⟨hd, rfl, Nat.le_of_eq ?_⟩
    show 3 * p.queue.waiting.length + ((p.workers.map (Phase.opened task run)).map _).sum = _
    rw [List.map_map, backlog]
    congr 2
    refine List.map_congr_left fun phase _ => ?_
    rcases phase with _ | notified | ⟨k, job, stage⟩ | _
    · rfl
    · rfl
    · cases stage with
      | atGate r =>
        simp only [Function.comp_apply, Phase.opened, Stage.opened]
        split <;> rfl
      | _ => rfl
    · rfl
  | join k =>
    refine ⟨hd, Queue.next_update _ _ _, Nat.le_of_eq ?_⟩
    show 3 * (p.queue.join k).waiting.length + _ = _
    rw [Queue.join, Queue.waiting_update]
    rfl
  | detach k =>
    refine ⟨hd, Queue.next_detach _ _, Nat.le_of_eq ?_⟩
    show 3 * (p.queue.detach k).waiting.length + _ = _
    rw [Queue.waiting_detach]
    rfl
  | unlink k =>
    rcases p.unlink_cases k with he | he | ⟨f, he⟩ <;> rw [he]
    · exact hrefl
    · refine ⟨hd, Queue.next_unlink _ _, Nat.le_of_eq ?_⟩
      show 3 * (p.queue.unlink k).waiting.length + _ = _
      rw [Queue.waiting_unlink]
      rfl
    · exact ⟨hd, rfl, Nat.le_refl _⟩
  | shutdown hactive => exact absurd (hactive.symm.trans hina) (by simp)
  | awaitWorkers hwoken =>
    rw [hd] at hwoken
    exact absurd hwoken (by simp [Standing.isWoken])
  | drop =>
    have he : p.drop = p := by simp [Pool.drop, hina]
    rw [he]
    exact hrefl

/-! ## 2. Workers that have left -/

/-- No record waits in a pool that a worker has left. -/
def Cleared (p : Pool α) : Prop := .exited ∈ p.workers → p.queue.waiting = []

theorem Cleared.setPhase (h : p.Cleared) (w : Nat) (phase : Phase)
    (hphase : phase ≠ .exited) : (p.setPhase w phase).Cleared := by
  intro hmem
  rcases List.mem_or_eq_of_mem_set hmem with hmem | he
  · exact h hmem
  · exact absurd he.symm hphase

/-- All workers change, and none of them leaves by that. -/
theorem Cleared.mapWorkers (h : p.Cleared) (f : Phase → Phase)
    (hf : ∀ phase, f phase = .exited → phase = .exited) :
    { p with workers := p.workers.map f }.Cleared := by
  intro hmem
  obtain ⟨phase, hphase, he⟩ := List.mem_map.mp hmem
  exact h (hf phase he ▸ hphase)

/-- A worker that looks for work leaves only if there is none. -/
theorem Cleared.advance (h : p.Cleared) (hq : p.queue.Sound) (w : Nat) :
    (p.advance w).Cleared := by
  intro hmem
  rcases advance_cases hq w with
    ⟨k, rest, r, job, hwait, -, -, -, he⟩ | ⟨hwait, ⟨-, he⟩ | ⟨-, he⟩⟩ <;> rw [he] at hmem ⊢
  · have hexited : .exited ∈ p.workers := by
      rcases List.mem_or_eq_of_mem_set hmem with hmem | he
      · exact hmem
      · exact absurd he (by simp)
    exact absurd ((h hexited).symm.trans hwait) (by simp)
  · exact hwait
  · exact hwait

theorem Cleared.goOn (h : p.Cleared) (hp : p.Sound) {w : Nat} {phase : Phase}
    (hw : p.workers[w]? = some phase) (hlooks : phase.looksNext = true) :
    (p.goOn w phase).Cleared := by
  rcases phase with _ | notified | ⟨k, job, stage⟩ | _
  · exact h.advance hp.queue w
  · have hbusy : { p with busy := p.busy + 1 }.Cleared := h
    exact hbusy.advance hp.queue w
  · obtain ⟨r, -, -, he⟩ := hp.finish_eq hw
    have hqueue : { p with queue := p.queue.finished k }.Cleared := fun hmem =>
      (Queue.waiting_finished _ _).trans (h hmem)
    have hended : (p.ended w k r.detached).Cleared :=
      hqueue.setPhase w .starting (by simp)
    show (p.finish w k).Cleared
    rw [he]
    exact hended.advance (hp.ended hw _).queue w
  · exact absurd hlooks (by simp [Phase.looksNext, Phase.isLooking])

theorem Cleared.section (h : p.Cleared) (henlisted : p.Enlisted) (hp : p.Sound)
    (hs : Section p p') : p'.Cleared := by
  cases hs with
  | submit hactive refusal job =>
    -- nobody has left a pool in use
    have hstay : (p.submit refusal job).2.standing = p.standing := by
      rcases submit_cases p refusal job with ⟨-, he⟩ | ⟨e, -, -, he⟩ | ⟨-, -, he⟩ <;> rw [he]
      · rfl
      · exact standing_grow p refusal
      · exact standing_grow p refusal
    have hactive' : (p.submit refusal job).2.isActive = true := by
      rw [isActive, hstay]
      exact hactive
    exact fun hmem =>
      absurd hmem ((henlisted.section hp (.submit hactive refusal job)).stays hactive')
  | advance hw => exact h.goOn hp hw rfl
  | wake hw => exact h.goOn hp hw rfl
  | enterBody hw hs => exact h.setPhase _ _ (by simp)
  | @panicBody w run k job hw =>
    have hnoted : (p.note (.panicked w k.number)).Cleared := h
    exact hnoted.setPhase _ _ (by simp)
  | @returnBody w run k job hw v =>
    have hput : (p.putResult k v).Cleared := by
      unfold putResult
      split <;> exact h
    exact hput.setPhase _ _ (by simp)
  | finish hw => exact h.goOn hp hw rfl
  | openGate task run =>
    exact h.mapWorkers _ fun phase he => by cases phase <;> simp_all [Phase.opened]
  | join k => exact fun hmem => (Queue.waiting_update _ _ _).trans (h hmem)
  | detach k => exact fun hmem => (Queue.waiting_detach _ _).trans (h hmem)
  | unlink k =>
    rcases p.unlink_cases k with he | he | ⟨f, he⟩ <;> rw [he]
    · exact h
    · exact fun hmem => (Queue.waiting_unlink _ _).trans (h hmem)
    · exact h
  | shutdown hactive =>
    have htold : { p with standing := .stopping false }.notifyWorkers.Cleared :=
      h.mapWorkers Phase.notify fun phase => by cases phase <;> simp [Phase.notify]
    unfold Pool.shutdown Pool.awaitWorkers
    split
    · split <;> exact htold
    · exact h
  | awaitWorkers hwoken =>
    unfold Pool.awaitWorkers
    split <;> exact h
  | drop =>
    unfold Pool.drop
    split
    · exact h.mapWorkers Phase.notify fun phase => by cases phase <;> simp [Phase.notify]
    · exact h

end Pool

/-! ## 3. Moves of the workers of a dropped pool -/

namespace System

variable {α : Type} {s : System α} {i : Nat} {pool : Pool α}

/-- A body leaves a pool that is not in use as it is. -/
theorem pools_evaluate_of_inactive (hi : s.pools[i]? = some pool) (hina : pool.isActive = false)
    (p : Pool α) (w : Nat) (t : Task α) (run : Nat) :
    (s.evaluate p w t run).2.pools[i]? = some pool := by
  rcases s.evaluate_cases p w t run with he | ⟨j, a, he⟩ <;> rw [he]
  · exact hi
  by_cases hj : i = j
  · subst hj
    rw [submit_of_inactive hi hina]
    exact hi
  · have hother : ∀ f : Pool α → Pool α, (s.modifyPool j f).pools[i]? = some pool := fun f =>
      (pools_modifyPool s j i f).trans ((if_neg hj).trans hi)
    rcases s.submit_cases j a with ⟨-, hs⟩ | ⟨_, _, -, -, -, ⟨_, -, -, hs⟩ | ⟨_, -, -, hs⟩⟩ <;>
      rw [hs]
    · exact hi
    · exact hother _
    · exact hother _

end System

namespace Program

variable {α : Type} {p : Program α} {i w : Nat} {pool : Pool α}

/-- **Each move of a worker takes some of what is left to do.** -/
theorem Reachable.backlog_perform (h : p.Reachable) (hi : p.system.pools[i]? = some pool)
    (hina : pool.isActive = false) (hready : p.system.ready (.worker i w) = true) :
    ∃ pool', (p.system.perform (.worker i w)).pools[i]? = some pool' ∧
      pool'.backlog < pool.backlog := by
  obtain ⟨phase, hphase, hready⟩ := (Option.any_eq_true _ _).mp hready
  obtain ⟨pool', hi', hw⟩ := System.phase?_eq_some.mp hphase
  obtain rfl := Option.some.inj (hi'.symm.trans hi)
  have hlook : phase.looksNext = true → ∃ pool'',
      (p.system.perform (.worker i w)).pools[i]? = some pool'' ∧
        pool''.backlog < pool'.backlog := by
    intro hlooks
    refine ⟨pool'.goOn w phase, ?_, (Pool.effort_goOn (h.poolsSound i pool' hi) hw hlooks).2.1⟩
    rw [System.pools_perform_look hphase hlooks, System.pools_modifyPool, if_pos rfl, hi]
    rfl
  -- a body goes on to a phase that costs less
  have hbody : ∀ (q : Pool α) (new : Phase), q.workers = pool'.workers →
      q.backlog = pool'.backlog → new.effort < phase.effort →
      (q.setPhase w new).backlog < pool'.backlog := by
    intro q new hworkers hsame hlt
    have hback := Pool.backlog_setPhase (p := q) (by rw [hworkers]; exact hw) new
    omega
  rcases phase with _ | notified | ⟨k, job, _ | r | run | _⟩ | _
  · exact hlook rfl
  · cases notified with
    | true => exact hlook rfl
    | false => exact absurd hready (by simp [Phase.isUnderWay, Phase.isLooking])
  · obtain ⟨t, ht⟩ := h.task_of_executing hphase
    simp only [System.perform, hphase, System.enterBody, hi, ht]
    refine ⟨_, (System.pools_modifyPool _ i i _).trans
      ((if_pos rfl).trans (congrArg (Option.map _) hi)), hbody pool' _ rfl rfl ?_⟩
    split <;> exact Nat.lt_succ_self 4
  · exact absurd hready (by simp [Phase.isUnderWay, Phase.isLooking])
  · obtain ⟨t, ht⟩ := h.task_of_executing hphase
    simp only [System.perform, hphase, System.endBody, hi, ht]
    split
    · have hpanics := (System.pools_modifyPool p.system i i fun p =>
        (p.note (.panicked w k.number)).setPhase w (.executing k job .over)).trans
          ((if_pos rfl).trans (congrArg (Option.map _) hi))
      rw [System.reportPanic_eq]
      exact ⟨_, hpanics, hbody (pool'.note _) _ rfl rfl (Nat.lt_succ_self 3)⟩
    · have hstays := System.pools_evaluate_of_inactive hi hina pool' w t run
      refine ⟨_, (System.pools_modifyPool _ i i _).trans
        ((if_pos rfl).trans (congrArg (Option.map _) hstays)),
        hbody (pool'.putResult k _) _ (Pool.workers_putResult _ _ _) ?_ (Nat.lt_succ_self 3)⟩
      unfold Pool.putResult
      split <;> rfl
  · exact hlook rfl
  · exact absurd hready (by simp [Phase.isUnderWay, Phase.isLooking])

/-- One action, whatever it is, when pool `i` was dropped. -/
theorem Reachable.ebbs_act (h : p.Reachable) (hi : p.system.pools[i]? = some pool)
    (hd : pool.standing = .dropped) {a : Action α} (ha : p.Permits a) :
    ∃ pool', (p.act a).system.pools[i]? = some pool' ∧ pool.Ebbs pool' ∧
      (if p.movesWorker i a then 1 else 0) + pool'.backlog ≤ pool.backlog := by
  obtain ⟨pool', hi', hs⟩ := (Leads.refl.step a ha).sections hi
  have hebbs : pool.Ebbs pool' :=
    hs.induct (P := fun q => pool.Ebbs q) (h.poolsSound i pool hi) (.refl hd)
      fun q q' hq he hs => he.trans (Pool.ebbs_section he.standing hq hs)
  refine ⟨pool', hi', hebbs, ?_⟩
  split
  · next hmoves =>
    unfold movesWorker at hmoves
    split at hmoves
    · next j w =>
      obtain ⟨hj, hready⟩ := (Bool.and_eq_true _ _).mp hmoves
      obtain rfl := eq_of_beq hj
      obtain ⟨pool'', hi'', hlt⟩ :=
        h.backlog_perform hi (Pool.inactive_of_dropped hd) hready
      obtain rfl := Option.some.inj (hi''.symm.trans hi')
      omega
    · exact absurd hmoves (by simp)
  · rw [Nat.zero_add]
    exact hebbs.backlog_le

/-- Any number of actions. -/
theorem Reachable.ebbs_run (h : p.Reachable) (hi : p.system.pools[i]? = some pool)
    (hd : pool.standing = .dropped) {as : List (Action α)} (has : p.Allows as) :
    ∃ pool', (p.run as).system.pools[i]? = some pool' ∧ pool.Ebbs pool' ∧
      p.movesOf i as + pool'.backlog ≤ pool.backlog := by
  induction as generalizing p pool with
  | nil => exact ⟨pool, hi, .refl hd, by simp [movesOf]⟩
  | cons a rest ih =>
    obtain ⟨ha, hrest⟩ := has
    obtain ⟨pool', hi', hebbs, hle⟩ := h.ebbs_act hi hd ha
    obtain ⟨pool'', hi'', hebbs', hle'⟩ :=
      ih (h.leads (Leads.refl.step a ha)) hi' hebbs.standing hrest
    refine ⟨pool'', hi'', hebbs.trans hebbs', ?_⟩
    rw [movesOf]
    omega

/-! ## 4. What is true of a dropped pool at any time -/

/-- A pool that was dropped, and its program. -/
structure Draining (p : Program α) (i : Nat) (pool : Pool α) : Prop where
  standing : pool.standing = .dropped
  /-- A worker that looks for work claims the newest record that waits. -/
  claims : ∀ w phase k, pool.workers[w]? = some phase → phase.looksNext = true →
    pool.queue.IsNewest k → ∃ job,
      (p.act (.move (.worker i w))).system.phase? i w = some (.executing k job .entering)
  /-- If none waits, it leaves. -/
  leaves : ∀ w phase, pool.workers[w]? = some phase → phase.looksNext = true →
    (∀ k, pool.queue.status? k ≠ some .queued) →
      (p.act (.move (.worker i w))).system.phase? i w = some .exited
  /-- Once one has left, none waits any more. -/
  cleared : .exited ∈ pool.workers → ∀ k, pool.queue.status? k ≠ some .queued
  /-- When no worker can move, all that have not left are held up, and if a record waits, some
  are. -/
  settled : (∀ w, p.system.ready (.worker i w) = false) →
    pool.threads = pool.heldUp ∧ pool.busy = pool.heldUp ∧
      ((∃ k, pool.queue.status? k = some .queued) → 0 < pool.heldUp)
  /-- When the last has left, everything that the pool ever accepted has finished. -/
  ended : pool.threads = 0 →
    (∀ k, pool.queue.status? k ≠ some .queued ∧ pool.queue.status? k ≠ some .running) ∧
      ∀ t ∈ p.system.tasks, ∀ x ∈ t.submissions, x.pool = i → p.hasFinished x = true

theorem Reachable.cleared (h : p.Reachable) (hi : p.system.pools[i]? = some pool) :
    pool.Cleared := by
  refine (h.pool_induct (P := fun q => q.Enlisted ∧ q.Cleared) hi (fun id plan => ⟨.create id plan,
    fun hmem => absurd hmem List.not_mem_nil⟩) ?_).2
  rintro q q' hq ⟨henlisted, hcleared⟩ hs
  exact ⟨henlisted.section hq hs, hcleared.section henlisted hq hs⟩

/-- A worker that looks for work when a record waits. -/
theorem claims_newest (hi : p.system.pools[i]? = some pool) (hp : pool.Sound) {phase : Phase}
    (hw : pool.workers[w]? = some phase) (hlooks : phase.looksNext = true) {k : Ticket}
    (hk : pool.queue.IsNewest k) : ∃ job,
      (p.act (.move (.worker i w))).system.phase? i w = some (.executing k job .entering) := by
  obtain ⟨q, hlook, hperform⟩ := System.perform_look hi hp hw hlooks
  have hk' : q.queue.IsNewest k := by
    simpa only [Queue.IsNewest, hlook.queued_iff] using hk
  rcases Pool.workers_advance hlook.sound.queue hlook.starting with
    ⟨k', rest, job, hwait, hclaimed⟩ | ⟨hwait, -⟩
  · obtain rfl := hlook.sound.queue.isNewest_unique hk' (hlook.sound.queue.isNewest hwait)
    exact ⟨job, System.phase?_eq_some.mpr ⟨_, hperform, hclaimed⟩⟩
  · exact absurd hk'.1 (hlook.sound.queue.waiting_eq_nil_iff.mp hwait k)

/-- A worker of a pool that is not in use looks for work, and there is none. -/
theorem leaves_idle (hi : p.system.pools[i]? = some pool) (hp : pool.Sound)
    (hina : pool.isActive = false) {phase : Phase} (hw : pool.workers[w]? = some phase)
    (hlooks : phase.looksNext = true) (hnone : ∀ k, pool.queue.status? k ≠ some .queued) :
    (p.act (.move (.worker i w))).system.phase? i w = some .exited := by
  obtain ⟨q, hlook, hperform⟩ := System.perform_look hi hp hw hlooks
  have hleave : q.advance w = q.leave w :=
    Pool.advance_eq_leave hlook.sound.queue (hlook.active_eq.trans hina)
      (fun k hk => hnone k ((hlook.queued_iff k).mp hk)) w
  rw [hleave] at hperform
  exact System.phase?_eq_some.mpr
    ⟨_, hperform, Pool.workers_setPhase_self hlook.starting .exited⟩

theorem settled_of_inactive (hi : p.system.pools[i]? = some pool) (hp : pool.Sound)
    (hina : pool.isActive = false) (hready : ∀ w, p.system.ready (.worker i w) = false) :
    pool.threads = pool.heldUp ∧ pool.busy = pool.heldUp ∧
      ((∃ k, pool.queue.status? k = some .queued) → 0 < pool.heldUp) := by
  have hphase : ∀ phase ∈ pool.workers,
      phase = .exited ∨ ∃ k job run, phase = .executing k job (.atGate run) := by
    intro phase hmem
    obtain ⟨w, hw⟩ := List.getElem?_of_mem hmem
    have hnot := hready w
    rw [System.ready, System.phase?_eq_some.mpr ⟨pool, hi, hw⟩, Option.any_some] at hnot
    by_cases hin : phase = .exited
    · exact Or.inl hin
    · exact Or.inr (Phase.eq_atGate hnot (hp.not_asleep (Or.inr hina) hmem) hin)
  have hthreads : pool.threads = pool.heldUp := by
    rw [hp.counted.threads_eq]
    refine List.countP_congr fun phase hmem => ?_
    rcases hphase phase hmem with rfl | ⟨k, job, run, rfl⟩ <;>
      simp [Phase.isIn, Phase.blockedRun?]
  have hbusy : pool.busy = pool.heldUp := by
    rw [hp.counted.busy_eq]
    refine List.countP_congr fun phase hmem => ?_
    rcases hphase phase hmem with rfl | ⟨k, job, run, rfl⟩ <;>
      simp [Phase.isBusy, Phase.blockedRun?]
  refine ⟨hthreads, hbusy, ?_⟩
  rintro ⟨k, hk⟩
  rw [← hthreads]
  exact hp.alert.manned (List.ne_nil_of_mem ((hp.queue.waiting_iff k).mpr hk))

/-- Without threads, nothing is left to do. -/
theorem Reachable.ended_of_unmanned (h : p.Reachable) (hi : p.system.pools[i]? = some pool)
    (hthreads : pool.threads = 0) :
    (∀ k, pool.queue.status? k ≠ some .queued ∧ pool.queue.status? k ≠ some .running) ∧
      ∀ t ∈ p.system.tasks, ∀ x ∈ t.submissions, x.pool = i → p.hasFinished x = true := by
  have hp := h.poolsSound i pool hi
  have hdone : ∀ k, pool.queue.status? k ≠ some .queued ∧ pool.queue.status? k ≠ some .running := by
    refine fun k => ⟨fun hk => ?_, fun hk => ?_⟩
    · have hmanned := hp.alert.manned (List.ne_nil_of_mem ((hp.queue.waiting_iff k).mpr hk))
      omega
    · obtain ⟨w, hw⟩ := hp.staffed.executed k hk
      obtain ⟨phase, hphase, hticket⟩ := Option.bind_eq_some_iff.mp hw
      rw [hp.counted.threads_eq, List.countP_eq_zero] at hthreads
      have hin := hthreads phase (List.mem_of_getElem? hphase)
      cases phase <;> simp_all [Phase.isIn, Phase.ticket?]
  refine ⟨hdone, fun t ht x hx hpool => ?_⟩
  subst hpool
  obtain ⟨a, ha⟩ := List.getElem?_of_mem ht
  rw [h.hasFinished_iff (submissions_ledger ha ▸ hx), Ledger.statusOf, ledger_record hi x.ticket]
  cases hr : pool.queue.get? x.ticket with
  | none => rfl
  | some r =>
    obtain ⟨hqueued, hrunning⟩ := hdone x.ticket
    rw [Queue.status?, hr] at hqueued hrunning
    cases hs : r.status <;> simp_all [Record.lastStatus]

theorem Reachable.draining (h : p.Reachable) (hi : p.system.pools[i]? = some pool)
    (hd : pool.standing = .dropped) : p.Draining i pool := by
  have hp := h.poolsSound i pool hi
  have hina := Pool.inactive_of_dropped hd
  exact
    { standing := hd
      claims := fun w phase k hw hlooks hk => claims_newest hi hp hw hlooks hk
      leaves := fun w phase hw hlooks hnone => leaves_idle hi hp hina hw hlooks hnone
      cleared := fun hmem => hp.queue.waiting_eq_nil_iff.mp (h.cleared hi hmem)
      settled := settled_of_inactive hi hp hina
      ended := h.ended_of_unmanned hi }

end Program
end WorkerPool
