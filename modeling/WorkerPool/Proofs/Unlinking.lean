/-
# When a finished record goes

The finish of a record is noted together with whether the record went with it.  It does for a record
that was left to its pool, and the records of a detached task are (`System.lost`).  No operation but
a detachment loses a submission, and one that detaches a task finishes nothing; so what a script
notes of a finish says whether the task had been detached some commands before
(`Settled.unlinked_iff`).
-/
import WorkerPool.Proofs.Bookkeeping
import WorkerPool.Proofs.LogLines

namespace WorkerPool

/-! ## 1. The finishes of a pool -/

namespace Pool

variable {α : Type} {p : Pool α}

/-- The finishes that were noted, newest first: worker, submission, and whether the record went. -/
def finishes (p : Pool α) : List (Nat × Nat × Bool) := p.journal.filterMap PoolNote.finished?

theorem finishes_advance (hq : p.queue.Sound) (w : Nat) : (p.advance w).finishes = p.finishes := by
  rcases advance_cases hq w with ⟨k, rest, r, job, -, -, -, -, he⟩ | ⟨-, ⟨-, he⟩ | ⟨-, he⟩⟩ <;>
    rw [he] <;> rfl

theorem finishes_submit (p : Pool α) (refusal : Option String) (job : Job) :
    (p.submit refusal job).2.finishes = p.finishes := by
  have hgrow : (p.grow refusal).2.finishes = p.finishes := by
    rcases p.grow_cases refusal with ⟨-, hg⟩ | ⟨-, -, hg⟩ | ⟨_, -, -, ⟨-, hg⟩ | ⟨-, hg⟩⟩ <;>
      rw [hg] <;> rfl
  rcases submit_cases p refusal job with ⟨-, he⟩ | ⟨e, -, -, he⟩ | ⟨-, -, he⟩ <;> rw [he]
  · rfl
  · exact hgrow
  · exact hgrow

theorem finishes_awaitWorkers (p : Pool α) : p.awaitWorkers.finishes = p.finishes := by
  unfold awaitWorkers
  split <;> rfl

theorem finishes_shutdown (p : Pool α) : p.shutdown.2.finishes = p.finishes := by
  unfold shutdown
  split
  · exact finishes_awaitWorkers _
  · rfl

theorem finishes_drop (p : Pool α) : p.drop.finishes = p.finishes := by
  unfold drop
  split <;> rfl

theorem finishes_putResult (p : Pool α) (k : Ticket) (v : Value α) :
    (p.putResult k v).finishes = p.finishes := by
  unfold putResult
  split <;> rfl

theorem finishes_unlink (p : Pool α) (k : Ticket) : (p.unlink k).finishes = p.finishes := by
  unfold unlink
  split <;> rfl

/-- The finish of a record notes whether the record was left to the pool. -/
theorem Sound.finishes_finish (h : p.Sound) {w : Nat} {k : Ticket} {job : Job}
    (hw : p.workers[w]? = some (.executing k job .over)) :
    ∃ r, p.queue.get? k = some r ∧
      (p.finish w k).finishes = (w, k.number, r.detached) :: p.finishes := by
  obtain ⟨r, hr, -, he⟩ := h.finish_eq hw
  refine ⟨r, hr, ?_⟩
  rw [he, finishes_advance (h.ended hw _).queue]
  rfl

end Pool

/-! ## 2. Lost submissions -/

namespace System

variable {α : Type} {s s' : System α} {schedule : Schedule α}

/-- The finishes of each pool. -/
def finishes (s : System α) : List (List (Nat × Nat × Bool)) := s.pools.map (·.finishes)

/-- What tasks have left to their pools when they were detached. -/
def lost (s : System α) : List Submission :=
  s.tasks.flatMap fun t => if t.fate = .detached then t.submissions else []

theorem mem_lost {x : Submission} : x ∈ s.lost ↔
    ∃ (a : Nat) (t : Task α), s.tasks[a]? = some t ∧ t.fate = .detached ∧ x ∈ t.submissions := by
  simp only [lost, List.mem_flatMap]
  constructor
  · rintro ⟨t, ht, hx⟩
    obtain ⟨a, ha⟩ := List.getElem?_of_mem ht
    split at hx
    · next hfate => exact ⟨a, t, ha, hfate, hx⟩
    · exact absurd hx List.not_mem_nil
  · rintro ⟨a, t, ha, hfate, hx⟩
    exact ⟨t, List.mem_of_getElem? ha, by rwa [if_pos hfate]⟩

theorem finishes_modifyPool {i : Nat} {f : Pool α → Pool α}
    (hf : ∀ pool, s.pools[i]? = some pool → (f pool).finishes = pool.finishes) :
    (s.modifyPool i f).finishes = s.finishes := by
  refine List.ext_getElem? fun j => ?_
  simp only [finishes, List.getElem?_map, pools_modifyPool]
  split
  · next hj =>
    subst hj
    cases hi : s.pools[j]? with
    | none => rfl
    | some pool => exact congrArg some (hf pool hi)
  · rfl

/-- A task that keeps what it has lost. -/
theorem lost_modifyTask (s : System α) (a : Nat) {f : Task α → Task α}
    (hf : ∀ t : Task α, s.tasks[a]? = some t →
      (if (f t).fate = .detached then (f t).submissions else []) =
        if t.fate = .detached then t.submissions else []) :
    (s.modifyTask a f).lost = s.lost := by
  have he :
      (s.modifyTask a f).tasks.map (fun t => if t.fate = .detached then t.submissions else []) =
        s.tasks.map fun t => if t.fate = .detached then t.submissions else [] := by
    refine List.ext_getElem? fun b => ?_
    rw [List.getElem?_map, List.getElem?_map, tasks_modifyTask]
    split
    · next hb =>
      subst hb
      cases ht : s.tasks[b]? with
      | none => rfl
      | some t => exact congrArg some (hf t ht)
    · rfl
  rw [lost, lost, List.flatMap_def, List.flatMap_def, he]

/-- What a submission does: nothing of this. -/
theorem quiet_submit (s : System α) (i a : Nat) :
    (s.submit i a).2.finishes = s.finishes ∧ (s.submit i a).2.lost = s.lost := by
  rcases s.submit_cases i a with ⟨-, he⟩ | ⟨pool, t, hi, ht, hlive, hcase⟩
  · rw [he]
    exact ⟨rfl, rfl⟩
  have hpool : (s.modifyPool i fun _ => (pool.submit s.refusal ⟨a⟩).2).finishes = s.finishes := by
    refine finishes_modifyPool fun pool' hi' => ?_
    obtain rfl : pool' = pool := Option.some.inj (hi'.symm.trans hi)
    exact Pool.finishes_submit ..
  rcases hcase with ⟨e, -, -, he⟩ | ⟨ticket, -, -, he⟩ <;> rw [he]
  · exact ⟨hpool, rfl⟩
  · refine ⟨hpool, lost_modifyTask (s.modifyPool i _) a fun t' ht' => ?_⟩
    obtain rfl : t' = t := Option.some.inj (ht'.symm.trans ht)
    simp [hlive]

theorem Waits.quiet {n : Nat} (h : s.Waits n s') :
    s'.finishes = s.finishes ∧ s'.lost = s.lost := by
  induction h with
  | refl => exact ⟨rfl, rfl⟩
  | mark _ x ih =>
    refine ⟨Eq.trans ?_ ih.1, ih.2⟩
    exact finishes_modifyPool fun _ _ => rfl
  | turn _ _ ih => exact ih

/-- The finishes noted by the pool at a place of the list. -/
def finishesAt (s : System α) (i : Nat) : List (Nat × Nat × Bool) :=
  s.pools[i]?.elim [] (·.finishes)

theorem finishesAt_of_pool {i : Nat} {pool : Pool α} (hi : s.pools[i]? = some pool) :
    s.finishesAt i = pool.finishes := by
  rw [finishesAt, hi]
  rfl

/-- Whether submission number `n` of a pool was lost. -/
def Loses (s : System α) (i n : Nat) : Prop := ∃ k : Ticket, k.number = n ∧ ⟨i, k⟩ ∈ s.lost

/-- What may be noted of finishes: each new one tells whether the submission was lost before. -/
structure Unlinks (s s' : System α) : Prop where
  lost_eq : s'.lost = s.lost
  told : ∀ i w n u, (w, n, u) ∈ s'.finishesAt i →
    (w, n, u) ∈ s.finishesAt i ∨ (u = true ↔ s.Loses i n)

theorem Unlinks.of_finishesAt (hfinishes : ∀ i, s'.finishesAt i = s.finishesAt i)
    (hlost : s'.lost = s.lost) : s.Unlinks s' :=
  ⟨hlost, fun i _ _ _ hmem => Or.inl (hfinishes i ▸ hmem)⟩

theorem finishesAt_eq (s : System α) (i : Nat) : s.finishesAt i = s.finishes[i]?.elim [] id := by
  rw [finishes, List.getElem?_map, finishesAt]
  cases s.pools[i]? <;> rfl

theorem Unlinks.of_eq (hfinishes : s'.finishes = s.finishes) (hlost : s'.lost = s.lost) :
    s.Unlinks s' :=
  .of_finishesAt (fun i => by rw [finishesAt_eq, finishesAt_eq, hfinishes]) hlost

theorem Unlinks.refl (s : System α) : s.Unlinks s := .of_eq rfl rfl

theorem Unlinks.trans {s'' : System α} (h : s.Unlinks s') (h' : s'.Unlinks s'') :
    s.Unlinks s'' := by
  refine ⟨h'.lost_eq.trans h.lost_eq, fun i w n u hmem => ?_⟩
  rcases h'.told i w n u hmem with hmem | hu
  · exact h.told i w n u hmem
  · exact Or.inr (hu.trans (by rw [Loses, Loses, h.lost_eq]))

/-! ## 3. Moves and operations -/

theorem quiet_enterBody (s : System α) (i w : Nat) (k : Ticket) (job : Job) :
    (s.enterBody i w k job).finishes = s.finishes ∧ (s.enterBody i w k job).lost = s.lost := by
  unfold System.enterBody
  split
  · next p t hi ht =>
    refine ⟨finishes_modifyPool (s := s.modifyTask job.task _) fun _ _ => rfl, ?_⟩
    refine lost_modifyTask s job.task fun t' ht' => ?_
    rfl
  · exact ⟨rfl, rfl⟩

theorem quiet_endBody (s : System α) (i w : Nat) (k : Ticket) (job : Job) (run : Nat) :
    (s.endBody i w k job run).finishes = s.finishes ∧ (s.endBody i w k job run).lost = s.lost := by
  unfold System.endBody
  split
  · next p t hi ht =>
    split
    · have hpanic : (s.modifyPool i fun p => (p.note (.panicked w k.number)).setPhase w
          (.executing k job .over)).finishes = s.finishes := finishes_modifyPool fun _ _ => rfl
      rw [reportPanic_eq]
      exact ⟨hpanic, rfl⟩
    · have hevaluate : (s.evaluate p w t run).2.finishes = s.finishes ∧
          (s.evaluate p w t run).2.lost = s.lost := by
        rcases s.evaluate_cases p w t run with he | ⟨j, a, he⟩ <;> rw [he]
        · exact ⟨rfl, rfl⟩
        · exact quiet_submit s j a
      refine ⟨(finishes_modifyPool fun pool _ => ?_).trans hevaluate.1, hevaluate.2⟩
      exact pool.finishes_putResult k _
  · exact ⟨rfl, rfl⟩

/-- A record is left to its pool just when its task was detached. -/
theorem Occurs.detached_iff (h : s.Occurs) {x : Submission} {r : Record Job}
    (hr : s.record? x = some r) : r.detached = true ↔ x ∈ s.lost := by
  obtain ⟨p, hp, hnone, rfl⟩ := h
  obtain ⟨a, fate, hfate, hx, -, hheld, hleft⟩ := hp.owned.linked x r hr
  obtain ⟨t, ht, hsubs⟩ : ∃ t, p.system.tasks[a]? = some t ∧ x ∈ t.submissions := by
    cases ht : p.system.tasks[a]? with
    | none => simp [Ledger.submissions, Program.ledger, ht] at hx
    | some t => exact ⟨t, rfl, Program.submissions_ledger ht ▸ hx⟩
  have hfate' : t.fate = fate := Option.some.inj ((Program.fate?_ledger ht).symm.trans hfate)
  constructor
  · intro hdetached
    exact mem_lost.mpr ⟨a, t, ht, hfate'.trans (hleft hdetached).1, hsubs⟩
  · intro hlost
    obtain ⟨b, t', ht', hdetached, hsubs'⟩ := mem_lost.mp hlost
    obtain rfl := hp.owned.owner_unique hx (Program.submissions_ledger ht' ▸ hsubs')
    obtain rfl := Option.some.inj (ht.symm.trans ht')
    by_contra hnot
    rcases hheld (by simpa using hnot) with hlive | hmem
    · rw [← hfate', hdetached] at hlive
      cases hlive
    · rw [show p.ledger.leaving = [] from hnone] at hmem
      exact absurd hmem List.not_mem_nil

/-- Two tickets of one pool with one number, of which one has a record and the other an owner. -/
theorem Occurs.eq_of_number (h : s.Occurs) {i : Nat} {k k' : Ticket} {r : Record Job}
    (hr : s.record? ⟨i, k⟩ = some r) (hlost : ⟨i, k'⟩ ∈ s.lost) (hnumber : k'.number = k.number) :
    k' = k := by
  obtain ⟨p, hp, hnone, rfl⟩ := h
  obtain ⟨a, fate, -, hx, -⟩ := hp.owned.linked _ r hr
  obtain ⟨b, t, ht, -, hx'⟩ := mem_lost.mp hlost
  have hsame := (hp.owned.unique b a _ (Program.submissions_ledger ht ▸ hx') _ hx
    (by simp [Submission.place, hnumber])).2
  simpa using hsame

/-- The finish of a record tells whether it was lost. -/
theorem Occurs.unlinks_finishBody (h : s.Occurs) {i w : Nat} {k : Ticket} {job : Job}
    (hw : s.phase? i w = some (.executing k job .over)) : s.Unlinks (s.finishBody i w k) := by
  obtain ⟨pool, hi, hw⟩ := phase?_eq_some.mp hw
  obtain ⟨r, hr, hfinishes⟩ := (h.poolsSound i pool hi).finishes_finish hw
  have hrecord : s.record? ⟨i, k⟩ = some r := by simp [record?, hi, hr]
  refine ⟨rfl, fun j v n u hmem => ?_⟩
  replace hmem : (v, n, u) ∈ (s.modifyPool i fun p => p.finish w k).finishesAt j := hmem
  rw [finishesAt, pools_modifyPool] at hmem
  split at hmem
  · next hji =>
    subst hji
    rw [hi, Option.map_some, Option.elim_some, hfinishes] at hmem
    rcases List.mem_cons.mp hmem with he | hmem
    · obtain ⟨rfl, rfl, rfl⟩ : v = w ∧ n = k.number ∧ u = r.detached := by simpa using he
      refine Or.inr ((h.detached_iff hrecord).trans ⟨fun hlost => ⟨k, rfl, hlost⟩, ?_⟩)
      rintro ⟨k', hnumber, hlost⟩
      exact h.eq_of_number hrecord hlost hnumber ▸ hlost
    · exact Or.inl (by rwa [finishesAt_of_pool hi])
  · exact Or.inl hmem

theorem Occurs.unlinks_perform (h : s.Occurs) (m : Move) : s.Unlinks (s.perform m) := by
  have hsound := h.poolsSound
  cases m with
  | worker i w =>
    unfold System.perform
    dsimp only
    split
    · refine .of_eq (finishes_modifyPool fun pool hi => ?_) rfl
      exact Pool.finishes_advance (hsound i pool hi).queue w
    · refine .of_eq (finishes_modifyPool fun pool hi => ?_) rfl
      exact Pool.finishes_advance (p := { pool with busy := pool.busy + 1 })
        (hsound i pool hi).queue w
    · exact .of_eq (quiet_enterBody s i w _ _).1 (quiet_enterBody s i w _ _).2
    · exact .of_eq (quiet_endBody s i w _ _ _).1 (quiet_endBody s i w _ _ _).2
    · next hw => exact h.unlinks_finishBody hw
    · exact .refl s
  | joiner n =>
    obtain ⟨hfinishes, hlost⟩ := (s.waits_joiner n).quiet
    exact .of_eq hfinishes hlost
  | shutdown i =>
    refine .of_eq (finishes_modifyPool fun pool _ => ?_) rfl
    split
    · exact pool.finishes_awaitWorkers
    · rfl

theorem Moves.unlinks {ms : List Move} (h : s.Moves ms s') (hs : s.Occurs) : s.Unlinks s' := by
  induction h with
  | rest => exact .refl _
  | @move s s' m ms _ _ ih =>
    exact (hs.unlinks_perform m).trans (ih (hs.brings (s.brings_perform m)))

theorem Occurs.unlinks_settle (h : s.Occurs) (hschedule : Schedule.Diligent schedule) :
    s.Unlinks (s.settle schedule) := by
  obtain ⟨ms, hms⟩ := moves_settleWithin hschedule s s.budget
  exact hms.unlinks h

theorem finishes_foldl (f : Submission → Pool α → Pool α)
    (hf : ∀ x pool, (f x pool).finishes = pool.finishes) (xs : List Submission) (s : System α) :
    (xs.foldl (fun s x => s.modifyPool x.pool (f x)) s).finishes = s.finishes := by
  induction xs generalizing s with
  | nil => rfl
  | cons x rest ih => exact (ih _).trans (finishes_modifyPool fun pool _ => hf x pool)

theorem tasks_foldl (f : Submission → Pool α → Pool α) (xs : List Submission) (s : System α) :
    (xs.foldl (fun s x => s.modifyPool x.pool (f x)) s).tasks = s.tasks := by
  induction xs generalizing s with
  | nil => rfl
  | cons x rest ih => exact ih _

theorem finishes_detach (s : System α) (a : Nat) : (s.detach a).finishes = s.finishes := by
  unfold System.detach
  dsimp only
  split <;> exact finishes_foldl (fun x p => p.detach x.ticket) (fun _ _ => rfl) _ _

theorem Operates.unlinks (hop : Operates schedule s s') (hs : s.Occurs)
    (hschedule : Schedule.Diligent schedule) : s.Unlinks s' := by
  cases hop with
  | addTask id body => exact .of_eq rfl (by simp [lost, System.addTask])
  | submit i a => exact .of_eq (quiet_submit s i a).1 (quiet_submit s i a).2
  | shutdown i =>
    unfold System.shutdown
    split
    · exact .refl s
    · next pool hi =>
      dsimp only
      split
      · refine .of_eq (finishes_modifyPool fun pool' hi' => ?_) rfl
        obtain rfl := Option.some.inj (hi.symm.trans hi')
        exact pool.finishes_shutdown
      · exact .refl s
  | dropPool i => exact .of_eq (finishes_modifyPool fun pool _ => pool.finishes_drop) rfl
  | refuseThreads refusal => exact .of_eq rfl rfl
  | openGate a run =>
    refine .of_eq ?_ rfl
    simp [finishes, System.openGate, Pool.finishes, Function.comp_def]
  | elapse ms => exact .of_eq rfl rfl
  | joinFor a limit =>
    obtain ⟨n, hwaits⟩ := s.waits_joinFor a limit
    obtain ⟨hfinishes, hlost⟩ := hwaits.quiet
    rw [call_frame] at hfinishes hlost
    exact .of_eq hfinishes hlost
  | @release a hfree =>
    unfold System.release
    split
    · refine .of_eq (finishes_foldl (fun x p => p.unlink x.ticket)
        (fun x pool => pool.finishes_unlink x.ticket) _ s) ?_
      have htasks : (s.unlinkAll (s.submissions a).reverse).tasks = s.tasks :=
        tasks_foldl (fun x p => p.unlink x.ticket) _ s
      have hlost : (s.unlinkAll (s.submissions a).reverse).lost = s.lost := by
        rw [lost, lost, htasks]
      refine (lost_modifyTask _ a fun t _ => ?_).trans hlost
      unfold Task.retire
      split
      · next hlive => simp [show t.fate = .live by simpa [Task.isLive] using hlive]
      · rfl
    · exact .of_eq rfl rfl
  | settle => exact hs.unlinks_settle hschedule

theorem unlinks_addPool (s : System α) (id : String) (plan : Plan) :
    s.Unlinks (s.addPool id plan) := by
  refine .of_finishesAt (fun i => ?_) rfl
  show (s.pools ++ [Pool.create id plan])[i]?.elim [] _ = s.pools[i]?.elim [] _
  rcases Nat.lt_or_ge i s.pools.length with hi | hi
  · rw [List.getElem?_append_left hi]
  · rw [List.getElem?_append_right hi, List.getElem?_eq_none hi]
    cases i - s.pools.length <;> rfl

/-- What some sections leave alone, each of one pool. -/
theorem map_pools_foldl {β : Type} {f : Submission → Pool α → Pool α} {g : Pool α → β}
    (h : ∀ x pool, g (f x pool) = g pool) (xs : List Submission) (s : System α) :
    (xs.foldl (fun s x => s.modifyPool x.pool (f x)) s).pools.map g = s.pools.map g := by
  induction xs generalizing s with
  | nil => rfl
  | cons x rest ih => exact (ih _).trans (map_modify_of_eq (h x) s.pools x.pool)

/-- The end of a task does nothing to the workers of the pools. -/
theorem workers_detach (s : System α) (a : Nat) :
    ((s.detach a).pools.map fun pool => (pool.workers, pool.standing)) =
      s.pools.map fun pool => (pool.workers, pool.standing) := by
  unfold System.detach
  dsimp only
  split <;> exact map_pools_foldl (f := fun x pool => pool.detach x.ticket) (fun _ _ => rfl) _ _

theorem workers_release (s : System α) (a : Nat) :
    ((s.release a).2.pools.map fun pool => (pool.workers, pool.standing)) =
      s.pools.map fun pool => (pool.workers, pool.standing) := by
  unfold System.release
  split
  · refine map_pools_foldl (f := fun x pool => pool.unlink x.ticket) (fun x pool => ?_) _ s
    unfold Pool.unlink
    split <;> rfl
  · rfl

theorem runs_retire (fate : Fate) (t : Task α) : (t.retire fate).runs = t.runs := by
  unfold Task.retire
  split <;> rfl

/-- Nor does it to the runs of the tasks. -/
theorem runs_detach (s : System α) (a : Nat) :
    (s.detach a).tasks.map (·.runs) = s.tasks.map (·.runs) := by
  unfold System.detach
  refine (map_modify_of_eq (runs_retire .detached) _ a).trans ?_
  unfold System.detachAll
  rw [tasks_foldl fun x pool => pool.detach x.ticket]
  split <;> rfl

theorem runs_release (s : System α) (a : Nat) :
    (s.release a).2.tasks.map (·.runs) = s.tasks.map (·.runs) := by
  unfold System.release
  split
  · refine (map_modify_of_eq (runs_retire .released) _ a).trans ?_
    unfold System.unlinkAll
    rw [tasks_foldl fun x pool => pool.unlink x.ticket]
  · rfl

/-- A task that is detached interrupts nobody. -/
theorem Rests.detach (h : s.Rests) (a : Nat) : (s.detach a).Rests :=
  h.of_pools (s.workers_detach a) ((Session.joiners_detach s a).symm ▸ h.asleep)

/-- Nor does one that is released. -/
theorem Rests.release (h : s.Rests) (a : Nat) : (s.release a).2.Rests :=
  h.of_pools (s.workers_release a) ((Session.joiners_release s a).symm ▸ h.asleep)

/-- What was lost stays so. -/
theorem lost_subset_detach (s : System α) (a : Nat) : s.lost ⊆ (s.detach a).lost := by
  intro x hx
  obtain ⟨b, t, ht, hfate, hsubs⟩ := mem_lost.mp hx
  have hlive : t.isLive = false := by rw [Task.isLive, hfate]; rfl
  refine mem_lost.mpr ⟨b, t, ?_, hfate, hsubs⟩
  have htasks (noted : System α) (hnoted : noted.tasks = s.tasks) (xs : List Submission) :
      ((noted.detachAll xs).modifyTask a fun t => t.retire .detached).tasks[b]? = some t := by
    have hsame : (noted.detachAll xs).tasks = s.tasks :=
      (tasks_foldl (fun x p => p.detach x.ticket) _ _).trans hnoted
    rw [tasks_modifyTask, hsame, ht]
    simp [Task.retire, hlive]
  unfold System.detach
  dsimp only
  split
  · exact htasks s rfl _
  · exact htasks (s.note _) rfl _

end System

/-! ## 4. Scripts -/

namespace Session

variable {α : Type} {S : Session α} {schedule : Schedule α}

/-- Each finish that a command brings about tells whether the submission was lost before. -/
theorem Settled.unlinks_step (h : S.Settled) (hschedule : Schedule.Diligent schedule)
    (c : Command α) :
    S.system.lost ⊆ (Session.step schedule S c).2.system.lost ∧
      ∀ i w n u, (w, n, u) ∈ (Session.step schedule S c).2.system.finishesAt i →
        (w, n, u) ∈ S.system.finishesAt i ∨ (u = true ↔ S.system.Loses i n) := by
  have hoccurs := h.occurs.brings (leads_execute hschedule h c).1
  have hsettle := hoccurs.unlinks_settle hschedule
  have hof (hunlinks : S.system.Unlinks (execute schedule S c).2.system) :=
    hunlinks.trans hsettle
  cases h.effect_execute schedule c with
  | operates hop =>
    have hunlinks := (hop.operations.induct (P := fun s => S.system.Unlinks s) h.occurs (.refl _)
      fun _ _ hs hunlinks hop => hunlinks.trans (hop.unlinks hs hschedule)).2
    exact ⟨(hof hunlinks).lost_eq ▸ List.Subset.refl _, (hof hunlinks).told⟩
  | @detaches a hfree hsystem hpassing =>
    -- nobody is under way, so nothing is finished
    have hrests : (execute schedule S c).2.system.Rests := hsystem ▸ h.rests.detach a
    have hstays : (Session.step schedule S c).2.system = S.system.detach a :=
      (hrests.settle_eq hschedule).trans hsystem
    rw [hstays]
    refine ⟨S.system.lost_subset_detach a, fun i w n u hmem => Or.inl ?_⟩
    rwa [System.finishesAt_eq, S.system.finishes_detach, ← System.finishesAt_eq] at hmem
  | builds id plan _ hsystem =>
    have hunlinks := hof (hsystem ▸ S.system.unlinks_addPool id plan)
    exact ⟨hunlinks.lost_eq ▸ List.Subset.refl _, hunlinks.told⟩
  | passes _ _ hsystem =>
    have hunlinks := hof (hsystem ▸ .refl _)
    exact ⟨hunlinks.lost_eq ▸ List.Subset.refl _, hunlinks.told⟩

theorem Settled.lost_subset (h : S.Settled) (hschedule : Schedule.Diligent schedule)
    (commands : List (Command α)) : S.system.lost ⊆ (S.after schedule commands).system.lost := by
  induction commands generalizing S with
  | nil => exact fun _ hx => hx
  | cons c rest ih => exact fun _ hx => ih (h.step hschedule c) ((h.unlinks_step hschedule c).1 hx)

theorem after_append (S : Session α) (schedule : Schedule α) (before rest : List (Command α)) :
    S.after schedule (before ++ rest) = (S.after schedule before).after schedule rest :=
  List.foldl_append

/-- A submission finishes once, so what is noted of it is noted once. -/
theorem Settled.finish_unique (h : S.Settled) {i w w' n : Nat} {u u' : Bool}
    (hmem : (w, n, u) ∈ S.system.finishesAt i) (hmem' : (w', n, u') ∈ S.system.finishesAt i) :
    w = w' ∧ u = u' := by
  obtain ⟨p, hp, -, hsystem⟩ := h.occurs
  cases hi : S.system.pools[i]? with
  | none => simp [System.finishesAt, hi] at hmem
  | some pool =>
    rw [System.finishesAt_of_pool hi] at hmem hmem'
    have hnodup := (hp.bookkeeping (hsystem ▸ hi)).handled.finishes_nodup
    simpa using List.inj_on_of_nodup_map hnodup hmem hmem' rfl

/-- What was noted of a finish stays noted. -/
theorem NotesStay.finishesAt {R : Session α} (h : S.NotesStay R) (i : Nat) :
    S.system.finishesAt i ⊆ R.system.finishesAt i := by
  cases hi : S.system.pools[i]? with
  | none =>
    rw [System.finishesAt, hi]
    exact List.nil_subset _
  | some pool =>
    obtain ⟨pool', hi', -, hsuffix⟩ := h.system.pools i pool hi
    rw [System.finishesAt_of_pool hi, System.finishesAt_of_pool hi']
    exact (hsuffix.sublist.filterMap _).subset

/-- **A record goes with its finish just when its task was detached before**: after some of the
commands, when the submission had not finished. -/
theorem unlinked_iff {processors : Nat} (hschedule : Schedule.Diligent schedule)
    (commands : List (Command α)) {i w n : Nat} {u : Bool}
    (hmem : (w, n, u) ∈ ((start processors).after schedule commands).system.finishesAt i) :
    u = true ↔ ∃ before, before <+: commands ∧
      ((start processors).after schedule before).system.Loses i n ∧
      ∀ w' u', (w', n, u') ∉
        ((start processors).after schedule before).system.finishesAt i := by
  induction commands using List.reverseRecOn with
  | nil => exact absurd hmem List.not_mem_nil
  | append_singleton commands c ih =>
    have hsettled : ((start processors).after schedule commands).Settled :=
      (Settled.start processors).after hschedule commands
    have hlast : (start processors).after schedule (commands ++ [c]) =
        (Session.step schedule ((start processors).after schedule commands) c).2 :=
      after_append _ _ _ _
    -- after the last command it has finished
    have hbefore {before : List (Command α)} (hinit : before <+: commands ++ [c])
        (hnot : ∀ w' u', (w', n, u') ∉
          ((start processors).after schedule before).system.finishesAt i) :
        before <+: commands := by
      rcases List.prefix_concat_iff.mp hinit with rfl | hinit
      · exact absurd hmem (hnot w u)
      · exact hinit
    by_cases hold : (w, n, u) ∈ ((start processors).after schedule commands).system.finishesAt i
    · refine (ih hold).trans ⟨?_, ?_⟩
      · rintro ⟨before, hinit, hrest⟩
        exact ⟨before, hinit.trans (List.prefix_append _ _), hrest⟩
      · rintro ⟨before, hinit, hlost, hnot⟩
        exact ⟨before, hbefore hinit hnot, hlost, hnot⟩
    · rw [hlast] at hmem
      have hu := ((hsettled.unlinks_step hschedule c).2 i w n u hmem).resolve_left hold
      refine hu.trans ⟨fun hlost => ?_, ?_⟩
      · refine ⟨commands, List.prefix_append _ _, hlost, fun w' u' hmem' => hold ?_⟩
        have hstays := (hsettled.notesStay_step hschedule c).finishesAt i hmem'
        obtain ⟨rfl, rfl⟩ := (hsettled.step hschedule c).finish_unique hmem hstays
        exact hmem'
      · rintro ⟨before, hinit, ⟨k, hk, hlost⟩, hnot⟩
        obtain ⟨rest, rfl⟩ := hbefore hinit hnot
        have hsubset :=
          ((Settled.start processors).after hschedule before).lost_subset hschedule rest
        rw [after_append]
        exact ⟨k, hk, hsubset hlost⟩

end Session
end WorkerPool
