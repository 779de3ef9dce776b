/-
# What is done to two systems in lockstep

Each operation and each move, done to two systems that are apart by a gap, answers the same in both
and leaves them apart by the same gap.  A body that has to do with the pool which only one of them
has dropped could tell them apart; it is excluded where bodies end (`Apart.endBody`).
-/
import WorkerPool.Proofs.Lockstep.System

namespace WorkerPool

/-- A join that was just called is in progress. -/
theorem System.answer?_call {α : Type} (s : System α) (a : Nat) (limit : Option Patience) :
    ∀ n, (s.call a limit).1 = .ok n → ∀ j, (s.call a limit).2.joiners[n]? = some j →
      j.answer? = none := by
  intro n hn j hj
  unfold call at hn hj
  cases hx : (s.submissions a).head? with
  | none => simp [hx] at hn
  | some x =>
    by_cases hzero : limit = some (.ms 0)
    · simp [hx, hzero] at hn
    · simp only [hx, if_neg hzero] at hn hj
      obtain rfl := Except.ok.inj hn
      rw [List.getElem?_concat_length] at hj
      obtain rfl := Option.some.inj hj
      rfl

namespace Gap
namespace Apart

variable {α : Type} {gap : Gap} {s t : System α}

/-! ## 1. Small changes -/

theorem modifyPool (h : gap.Apart s t) (i : Nat) {f g : Pool α → Pool α}
    (hf : ∀ p q, s.pools[i]? = some p → t.pools[i]? = some q → gap.Pools i p q →
      gap.Pools i (f p) (g q)) : gap.Apart (s.modifyPool i f) (t.modifyPool i g) :=
  { h with
    pools := System.rel_modifyPool h.pools i hf
    fresh := fun j hj => h.fresh j (by simpa [System.modifyPool] using hj) }

/-- A section that is blind. -/
theorem blindly (h : gap.Apart s t) (i : Nat) {f : Pool α → Pool α} (hf : Pool.Blind f)
    (htwin : ∀ {name p q}, Pool.DroppedTwin name p q → Pool.DroppedTwin name (f p) (f q)) :
    gap.Apart (s.modifyPool i f) (t.modifyPool i f) :=
  h.modifyPool i fun _ _ _ _ hpools => hpools.map hf htwin

theorem modifyTask (h : gap.Apart s t) (a : Nat) (f : Task α → Task α) :
    gap.Apart (s.modifyTask a f) (t.modifyTask a f) :=
  { h with tasks := congrArg (List.modify · a f) h.tasks }

theorem addEvents (h : gap.Apart s t) (new : List (Event α)) :
    gap.Apart { s with events := new ++ s.events } { t with events := new ++ t.events } :=
  { h with events := congrArg (new ++ ·) h.events }

theorem note (h : gap.Apart s t) (n : TaskNote) : gap.Apart (s.note n) (t.note n) :=
  { h with
    journal := by
      obtain ⟨notes, hs, ht⟩ := h.journal
      exact ⟨n :: notes, congrArg (n :: ·) hs, congrArg (n :: ·) ht⟩ }

theorem refuseThreads (h : gap.Apart s t) (refusal : Option String) :
    gap.Apart { s with refusal } { t with refusal } :=
  { h with refusal := rfl }

/-- A join in progress comes to a state. -/
theorem setJoin (h : gap.Apart s t) (n : Nat) (state : JoinState α)
    (hp : ∀ j, s.joiners[gap.place n]? = some j → j.answer? = none) :
    gap.Apart (s.setJoin (gap.place n) state) (t.setJoin n state) :=
  { h with
    joins := by
      intro m
      rw [System.joiners_setJoin, System.joiners_setJoin]
      rcases h.join_cases m with ⟨hj, hj'⟩ | ⟨j, j', hj, hj', hjoins⟩ <;> rw [hj, hj']
      · split <;> split <;> exact .none
      · by_cases hm : m = n
        · subst hm
          rw [if_pos rfl, if_pos rfl]
          exact .some (hjoins.setState state (hp j hj))
        · rw [if_neg hm, if_neg fun hplace => hm (place_injective hplace)]
          exact .some hjoins
    before_le := by simpa [System.setJoin] using h.before_le
    length_joiners := by simpa [System.setJoin] using h.length_joiners
    answered := by
      intro m j hm hm' hj
      rw [System.joiners_setJoin, if_neg] at hj
      · exact h.answered m j hm hm' hj
      · rintro rfl
        exact place_not_between gap n ⟨hm, hm'⟩ }

/-- Something happens to all joins. -/
theorem mapJoins (h : gap.Apart s t) {f g : Joiner α → Joiner α}
    (hf : ∀ j j', gap.Joins j j' → gap.Joins (f j) (g j'))
    (hanswered : ∀ j, j.answer? ≠ none → (f j).answer? ≠ none) :
    gap.Apart { s with joiners := s.joiners.map f } { t with joiners := t.joiners.map g } :=
  { h with
    joins := by
      intro n
      show Option.Rel gap.Joins (s.joiners.map f)[gap.place n]? (t.joiners.map g)[n]?
      rw [List.getElem?_map, List.getElem?_map]
      rcases h.join_cases n with ⟨hj, hj'⟩ | ⟨j, j', hj, hj', hjoins⟩ <;> rw [hj, hj']
      · exact .none
      · exact .some (hf j j' hjoins)
    before_le := by simpa using h.before_le
    length_joiners := by simpa using h.length_joiners
    answered := by
      intro m j hm hm' hj
      replace hj : (s.joiners.map f)[m]? = some j := hj
      rw [List.getElem?_map] at hj
      obtain ⟨old, hold, rfl⟩ := Option.map_eq_some_iff.mp hj
      exact hanswered old (h.answered m old hm hm' hold) }

theorem wakeJoiners (h : gap.Apart s t) (x : Submission) :
    gap.Apart (s.wakeJoiners x) (t.wakeJoiners x) := by
  refine h.mapJoins (fun j j' hjoins => ?_) fun j hp => ?_
  · rw [hjoins.submission]
    split
    · exact hjoins.wake
    · exact hjoins
  · split
    · rwa [Joiner.answer?_wake]
    · exact hp

theorem elapse (h : gap.Apart s t) (ms : Nat) : gap.Apart (s.elapse ms) (t.elapse ms) := by
  have hclock : s.clock + ms = t.clock + ms + gap.lead := by
    rw [h.clock]
    omega
  have hmapped := h.mapJoins (f := fun j => if j.isDue (s.clock + ms) then j.wake else j)
    (g := fun j => if j.isDue (t.clock + ms) then j.wake else j) (fun j j' hjoins => ?_)
    fun j hp => ?_
  · exact { hmapped with clock := hclock }
  · by_cases hp : j.answer? = none
    · rw [hclock, hjoins.isDue_eq hp]
      split
      · exact hjoins.wake
      · exact hjoins
    · exact hjoins.wake_of_answered hp _ _
  · split
    · rwa [Joiner.answer?_wake]
    · exact hp

/-! ## 2. Operations -/

theorem openGate (h : gap.Apart s t) (a run : Nat) :
    gap.Apart (s.openGate a run) (t.openGate a run) :=
  { h with
    pools := by
      intro i
      rw [System.openGate_pools, System.openGate_pools]
      rcases h.pool_cases i with ⟨hp, hq⟩ | ⟨p, q, hp, hq, hpools⟩ <;> rw [hp, hq]
      · exact .none
      · exact .some (hpools.map (Pool.blind_mapWorkers _) fun htwin => htwin.openGate a run)
    fresh := fun i hi => h.fresh i (by simpa [System.openGate] using hi) }

theorem addPool (h : gap.Apart s t) (id : String) (plan : Plan) :
    gap.Apart (s.addPool id plan) (t.addPool id plan) :=
  { h with
    pools := by
      intro i
      show Option.Rel (gap.Pools i) (s.pools ++ [Pool.create id plan])[i]?
        (t.pools ++ [Pool.create id plan])[i]?
      rcases Nat.lt_trichotomy i s.pools.length with hi | rfl | hi
      · rw [List.getElem?_append_left hi, List.getElem?_append_left (h.length_pools ▸ hi)]
        exact h.pools i
      · obtain ⟨hnotes, hne⟩ := h.fresh s.pools.length (Nat.le_refl _)
        have hnew : gap.Pools s.pools.length _ _ := .alike (Pool.create (α := α) id plan) hne
        rw [hnotes] at hnew
        rw [List.getElem?_concat_length, h.length_pools, List.getElem?_concat_length]
        rw [← h.length_pools]
        exact .some hnew
      · have hlength : (s.pools ++ [Pool.create (α := α) id plan]).length ≤ i := by
          simpa using Nat.succ_le_of_lt hi
        rw [List.getElem?_eq_none hlength,
          List.getElem?_eq_none (by simpa [h.length_pools] using hlength)]
        exact .none
    fresh := fun i hi => h.fresh i (by
      have hlength : (s.addPool id plan).pools.length = s.pools.length + 1 := by
        simp [System.addPool]
      omega) }

theorem addTask (h : gap.Apart s t) (id : String) (body : Body α) :
    gap.Apart (s.addTask id body) (t.addTask id body) :=
  { h with
    tasks := by
      show s.tasks ++ _ = t.tasks ++ _
      rw [h.tasks] }

/-- A submission to any pool but the one that is dropped in one run only. -/
theorem submit (h : gap.Apart s t) {i : Nat} (hi : ∀ name, gap.hidden ≠ some (i, name)) (a : Nat) :
    (s.submit i a).1 = (t.submit i a).1 ∧ gap.Apart (s.submit i a).2 (t.submit i a).2 := by
  unfold System.submit
  rw [← h.tasks, ← h.refusal]
  rcases h.pool_cases i with ⟨hp, hq⟩ | ⟨p, q, hp, hq, hpools⟩ <;> rw [hp, hq]
  · exact ⟨rfl, h⟩
  cases hpools with
  | dropped hhidden _ => exact absurd hhidden (hi _)
  | alike r _ =>
    cases s.tasks[a]? with
    | none => exact ⟨rfl, h⟩
    | some task =>
      dsimp only
      rw [Pool.isActive_older, Pool.isActive_older, Pool.submit_older, Pool.submit_older]
      cases r.isActive with
      | false => exact ⟨rfl, h⟩
      | true =>
        cases task.isLive with
        | false => exact ⟨rfl, h⟩
        | true =>
          have hset := h.modifyPool i
            (f := fun _ => (r.submit s.refusal ⟨a⟩).2.older (gap.poolNotes i).1)
            (g := fun _ => (r.submit s.refusal ⟨a⟩).2.older (gap.poolNotes i).2)
            fun _ _ _ _ _ => .alike _ hi
          dsimp only [Bool.not_true]
          cases (r.submit s.refusal ⟨a⟩).1 with
          | error e => exact ⟨rfl, hset⟩
          | ok ticket => exact ⟨rfl, hset.modifyTask a _⟩

theorem submitById (h : gap.Apart s t) {pool : String} (hpool : gap.Spares pool) (task : String) :
    (s.submitById pool task).1 = (t.submitById pool task).1 ∧
      gap.Apart (s.submitById pool task).2 (t.submitById pool task).2 := by
  unfold System.submitById
  rw [← h.findPool?_eq hpool, ← h.findTask?_eq]
  cases hi : s.findPool? pool with
  | none => exact ⟨rfl, h⟩
  | some i =>
    obtain ⟨-, -, -, hne⟩ := h.alike_of_findPool? hpool hi
    cases s.findTask? task with
    | none => exact ⟨rfl, h⟩
    | some a => exact h.submit hne a

/-- A pool that is in use in both is shut down. -/
theorem shutdown (h : gap.Apart s t) {i : Nat} (hi : ∀ name, gap.hidden ≠ some (i, name)) :
    (s.shutdown i).1 = (t.shutdown i).1 ∧ gap.Apart (s.shutdown i).2 (t.shutdown i).2 := by
  unfold System.shutdown
  rcases h.pool_cases i with ⟨hp, hq⟩ | ⟨p, q, hp, hq, hpools⟩ <;> rw [hp, hq]
  · exact ⟨rfl, h⟩
  cases hpools with
  | dropped hhidden _ => exact absurd hhidden (hi _)
  | alike r _ =>
    dsimp only
    rw [Pool.isActive_older, Pool.isActive_older, Pool.shutdown_older, Pool.shutdown_older]
    cases r.isActive with
    | false => exact ⟨rfl, h⟩
    | true => exact ⟨rfl, h.modifyPool i fun _ _ _ _ _ => .alike _ hi⟩

/-- A pool is dropped in both. -/
theorem dropPool (h : gap.Apart s t) {i : Nat} (hi : ∀ name, gap.hidden ≠ some (i, name)) :
    gap.Apart (s.dropPool i) (t.dropPool i) := by
  refine h.modifyPool i fun p q _ _ hpools => ?_
  cases hpools with
  | dropped hhidden _ => exact absurd hhidden (hi _)
  | alike r hne =>
    rw [Pool.blind_drop r, Pool.blind_drop r]
    exact .alike r.drop hne

theorem unlinkAll (h : gap.Apart s t) (xs : List Submission) :
    gap.Apart (s.unlinkAll xs) (t.unlinkAll xs) := by
  induction xs generalizing s t with
  | nil => exact h
  | cons x rest ih => exact ih (h.blindly x.pool (Pool.blind_unlink _) fun htwin => htwin.unlink _)

theorem detachAll (h : gap.Apart s t) (xs : List Submission) :
    gap.Apart (s.detachAll xs) (t.detachAll xs) := by
  induction xs generalizing s t with
  | nil => exact h
  | cons x rest ih => exact ih (h.blindly x.pool (Pool.blind_detach _) fun htwin => htwin.detach _)

theorem release (h : gap.Apart s t) (a : Nat) :
    (s.release a).1 = (t.release a).1 ∧ gap.Apart (s.release a).2 (t.release a).2 := by
  have hcan : s.canRelease a = t.canRelease a := by
    rw [System.canRelease, System.canRelease, h.submissions_eq, funext h.isSpent_eq]
  unfold System.release
  rw [hcan, h.submissions_eq]
  cases t.canRelease a with
  | true => exact ⟨rfl, (h.unlinkAll _).modifyTask a _⟩
  | false => exact ⟨rfl, h.note _⟩

theorem detach (h : gap.Apart s t) (a : Nat) : gap.Apart (s.detach a) (t.detach a) := by
  unfold System.detach
  rw [h.submissions_eq]
  refine Apart.modifyTask (Apart.detachAll ?_ _) a _
  split
  · exact h
  · exact h.note _

/-! ## 3. Joins -/

theorem isDue_eq (h : gap.Apart s t) {j j' : Joiner α} (hjoins : gap.Joins j j')
    (hp : j.answer? = none) : j.isDue s.clock = j'.isDue t.clock := by
  rw [h.clock, hjoins.isDue_eq hp]

/-- A join in progress looks at its record. -/
theorem lookAgain (h : gap.Apart s t) {n : Nat}
    (hp : ∀ j, s.joiners[gap.place n]? = some j → j.answer? = none) :
    gap.Apart (s.lookAgain (gap.place n)) (t.lookAgain n) := by
  unfold System.lookAgain
  rcases h.join_cases n with ⟨hj, hj'⟩ | ⟨j, j', hj, hj', hjoins⟩ <;> rw [hj, hj']
  · exact h
  dsimp only
  rw [hjoins.submission, h.record?_eq, h.isDue_eq hjoins (hp j hj), h.outcome_eq]
  cases t.record? j'.submission with
  | none => exact h.setJoin n _ hp
  | some r =>
    dsimp only
    split
    · exact (h.blindly j'.submission.pool (Pool.blind_join _) fun htwin => htwin.join _).setJoin n
        _ hp
    · split
      · exact h.setJoin n _ hp
      · exact h.setJoin n _ hp

theorem startWait (h : gap.Apart s t) {n : Nat}
    (hp : ∀ j, s.joiners[gap.place n]? = some j → j.answer? = none) :
    gap.Apart (s.startWait (gap.place n)) (t.startWait n) := by
  unfold System.startWait
  rcases h.join_cases n with ⟨hj, hj'⟩ | ⟨j, j', hj, hj', hjoins⟩ <;> rw [hj, hj']
  · exact h
  dsimp only
  have hdeadline : j.deadline.isNone = j'.deadline.isNone := by
    rw [hjoins.deadline (hp j hj)]
    cases j'.deadline <;> rfl
  rw [hjoins.submission, hdeadline]
  cases j'.deadline.isNone with
  | true =>
    exact (h.blindly j'.submission.pool (Pool.blind_join _) fun htwin => htwin.join _).lookAgain hp
  | false => exact h.lookAgain hp

/-- A join that both call gets the last place in both. -/
theorem call (h : gap.Apart s t) (a : Nat) (limit : Option Patience) :
    (s.call a limit).1 = (t.call a limit).1.map gap.place ∧
      gap.Apart (s.call a limit).2 (t.call a limit).2 := by
  have hlast : gap.place t.joiners.length = s.joiners.length := by
    rw [place, if_neg (Nat.not_lt.mpr h.before_le), h.length_joiners]
  unfold System.call
  rw [h.submissions_eq]
  cases (t.submissions a).head? with
  | none => exact ⟨rfl, h⟩
  | some x =>
    dsimp only
    by_cases hzero : limit = some (.ms 0)
    · rw [if_pos hzero, if_pos hzero]
      exact ⟨rfl, h⟩
    rw [if_neg hzero, if_neg hzero]
    refine ⟨congrArg Except.ok hlast.symm, { h with
      joins := ?_, before_le := ?_, length_joiners := ?_, answered := ?_ }⟩
    · intro n
      rcases Nat.lt_trichotomy n t.joiners.length with hn | rfl | hn
      · have hn' : gap.place n < s.joiners.length := hlast ▸ place_lt_place.mpr hn
        rw [List.getElem?_append_left hn, List.getElem?_append_left hn']
        exact h.joins n
      · rw [hlast, List.getElem?_concat_length, List.getElem?_concat_length]
        refine .some ⟨rfl, rfl, rfl, fun _ => ?_⟩
        rcases limit with _ | ⟨ms⟩ | _
        · rfl
        · show some (s.clock + ms) = some (t.clock + ms + gap.lead)
          rw [h.clock]
          congr 1
          omega
        · rfl
      · have hn' : s.joiners.length < gap.place n := hlast ▸ place_lt_place.mpr hn
        rw [List.getElem?_eq_none (by simpa using Nat.succ_le_of_lt hn'),
          List.getElem?_eq_none (by simpa using Nat.succ_le_of_lt hn)]
        exact .none
    · have hle := h.before_le
      simp only [List.length_append, List.length_cons, List.length_nil]
      omega
    · have hlength := h.length_joiners
      simp only [List.length_append, List.length_cons, List.length_nil]
      omega
    · intro n j hn hn' hj
      have hle := h.before_le
      have hlength := h.length_joiners
      rw [List.getElem?_append_left (by omega)] at hj
      exact h.answered n j hn hn' hj

theorem joinFor (h : gap.Apart s t) (a : Nat) (limit : Option Patience) :
    (s.joinFor a limit).1 = (t.joinFor a limit).1.map gap.place ∧
      gap.Apart (s.joinFor a limit).2 (t.joinFor a limit).2 := by
  obtain ⟨hanswer, hcalled⟩ := h.call a limit
  have hpending := s.answer?_call a limit
  unfold System.joinFor
  generalize s.call a limit = called at *
  generalize t.call a limit = called' at *
  obtain ⟨begun, s'⟩ := called
  obtain ⟨e | n, t'⟩ := called'
  · obtain rfl : begun = .error e := hanswer
    exact ⟨rfl, hcalled⟩
  · obtain rfl : begun = .ok (gap.place n) := hanswer
    exact ⟨rfl, hcalled.startWait fun j hj => hpending _ rfl j hj⟩

/-! ## 4. Bodies -/

theorem enterBody (h : gap.Apart s t) (i w : Nat) (k : Ticket) (job : Job) :
    gap.Apart (s.enterBody i w k job) (t.enterBody i w k job) := by
  unfold System.enterBody
  rw [← h.tasks]
  rcases h.pool_cases i with ⟨hp, hq⟩ | ⟨p, q, hp, hq, hpools⟩ <;> rw [hp, hq]
  · exact h
  cases s.tasks[job.task]? with
  | none => exact h
  | some task =>
    dsimp only
    rw [hpools.id_eq]
    have htask := h.modifyTask job.task fun t => { t with runs := task.runs + 1 }
    refine addEvents (htask.blindly i (Pool.blind_setPhase w _) fun htwin =>
      htwin.setPhase w (.same rfl)) [_]

/-- A body that has nothing to do with the pool that is dropped in one run only gives the same. -/
theorem evaluate (h : gap.Apart s t) {i : Nat} {p q : Pool α} (hpools : gap.Pools i p q) (w : Nat)
    (task : Task α) {run : Nat} (hpanic : task.body.panics.has run = false)
    (hspares : ∀ id, task.body.poolOf? run = some id → gap.Spares id) :
    (s.evaluate p w task run).1 = (t.evaluate q w task run).1 ∧
      gap.Apart (s.evaluate p w task run).2 (t.evaluate q w task run).2 := by
  unfold System.evaluate
  rw [Body.poolOf?, hpanic, if_neg Bool.false_ne_true] at hspares
  cases hkind : task.body.kind with
  | const value => exact ⟨rfl, h⟩
  | count => exact ⟨rfl, h⟩
  | affine arg mul add => exact ⟨rfl, h⟩
  | workerName => exact ⟨congrArg Value.workerName (hpools.workerName_eq w), h⟩
  | observe pool other =>
    have hpool : gap.Spares pool := hspares pool (by rw [hkind])
    exact ⟨congrArg₂ Value.seen (h.observePool_eq hpool) (h.observeTask_eq _), h⟩
  | submit on pool other =>
    dsimp only
    cases hon : on.has run with
    | false => exact ⟨rfl, h⟩
    | true =>
      have hpool : gap.Spares pool := hspares pool (by rw [hkind]; simp [hon])
      obtain ⟨hreply, hsubmitted⟩ := h.submitById hpool other
      exact ⟨congrArg Value.submitted hreply, hsubmitted⟩

theorem endBody (h : gap.Apart s t) (i w : Nat) (k : Ticket) (job : Job) (run : Nat)
    (hspares : ∀ task id, s.tasks[job.task]? = some task → task.body.poolOf? run = some id →
      gap.Spares id) : gap.Apart (s.endBody i w k job run) (t.endBody i w k job run) := by
  unfold System.endBody
  rw [← h.tasks]
  rcases h.pool_cases i with ⟨hp, hq⟩ | ⟨p, q, hp, hq, hpools⟩ <;> rw [hp, hq]
  · exact h
  cases htask : s.tasks[job.task]? with
  | none => exact h
  | some task =>
    dsimp only
    cases hpanic : task.body.panics.has run with
    | true =>
      rw [if_pos rfl, if_pos rfl, System.reportPanic_eq, System.reportPanic_eq,
        Pool.panicEvents, Pool.panicEvents, hpools.plan_eq, hpools.id_eq]
      have hended := h.blindly i
        ((Pool.blind_setPhase w (.executing k job .over)).comp
          (Pool.blind_note (.panicked w k.number)))
        fun htwin => (htwin.note _ _).setPhase w (.same rfl)
      exact hended.addEvents _
    | false =>
      rw [if_neg Bool.false_ne_true, if_neg Bool.false_ne_true]
      obtain ⟨hvalue, hevaluated⟩ := h.evaluate hpools w task hpanic
        fun id => hspares task id htask
      rw [hvalue]
      exact hevaluated.blindly i
        ((Pool.blind_setPhase w (.executing k job .over)).comp (Pool.blind_putResult k _))
        fun htwin => (htwin.putResult k _).setPhase w (.same rfl)

theorem finishBody (h : gap.Apart s t) (i w : Nat) (k : Ticket) :
    gap.Apart (s.finishBody i w k) (t.finishBody i w k) :=
  (h.blindly i (Pool.blind_finish w k) fun htwin => htwin.finish w k).wakeJoiners _

/-! ## 5. Moves -/

/-- The corresponding move of the first system. -/
theorem perform (h : gap.Apart s t) (m : Move)
    (hspares : ∀ i w k job run task id, m = .worker i w →
      s.phase? i w = some (.executing k job (.past run)) → s.tasks[job.task]? = some task →
      task.body.poolOf? run = some id → gap.Spares id) :
    gap.Apart (s.perform (gap.move m)) (t.perform m) := by
  cases m with
  | worker i w =>
    show gap.Apart (s.perform (.worker i w)) _
    unfold System.perform
    dsimp only
    rcases h.phase?_cases i w with heq | ⟨hs, ht⟩
    · rw [← heq]
      rcases hphase : s.phase? i w with _ | _ | _ | ⟨k, job, _ | run | run | _⟩ | _
      · exact h
      · exact h.blindly i (Pool.blind_advance w) fun htwin => htwin.advance w
      · next notified =>
        cases notified with
        | true => exact h.blindly i (Pool.blind_wake w) fun htwin => htwin.wake w
        | false => exact h
      · exact h.enterBody i w k job
      · exact h
      · exact h.endBody i w k job run fun task id ht hid =>
          hspares i w k job run task id rfl hphase ht hid
      · exact h.finishBody i w k
      · exact h
    · rw [hs, ht]
      exact h
  | joiner n =>
    show gap.Apart (s.perform (.joiner (gap.place n))) _
    unfold System.perform
    dsimp only
    have hstate : s.joinState? (gap.place n) = t.joinState? n := by
      unfold System.joinState?
      rcases h.join_cases n with ⟨hj, hj'⟩ | ⟨j, j', hj, hj', hjoins⟩ <;> rw [hj, hj']
      exact congrArg some hjoins.state
    have hpending : ∀ state, s.joinState? (gap.place n) = some state →
        (∀ answer, state ≠ .answered answer) →
        ∀ j, s.joiners[gap.place n]? = some j → j.answer? = none := by
      intro state hs hne j hj
      obtain rfl : j.state = state := by simpa [System.joinState?, hj] using hs
      cases hstate : j.state with
      | answered answer => exact absurd hstate (hne answer)
      | _ => simp [Joiner.answer?, hstate]
    rw [← hstate]
    rcases hs : s.joinState? (gap.place n) with _ | _ | woken | answer
    · exact h
    · exact h.startWait (hpending _ hs (by simp))
    · cases woken with
      | true => exact h.lookAgain (hpending _ hs (by simp))
      | false => exact h
    · exact h
  | shutdown i =>
    refine h.modifyPool i fun p q _ _ hpools => ?_
    have hwoken := hpools.isWoken_eq
    cases hpools with
    | alike r hne =>
      rw [hwoken]
      split
      · rw [Pool.blind_awaitWorkers r, Pool.blind_awaitWorkers r]
        exact .alike _ hne
      · exact .alike r hne
    | dropped hhidden htwin =>
      have hasleep : q.standing.isWoken = false := by rw [htwin.active]; rfl
      rw [hwoken, hasleep, if_neg Bool.false_ne_true, if_neg Bool.false_ne_true]
      exact .dropped hhidden htwin

/-! ## 6. Settling side by side -/

theorem findWorker?_eq (h : gap.Apart s t) {wanted : Phase → Bool}
    (hwanted : ∀ {phase phase'}, Phase.Beside phase phase' → wanted phase = wanted phase') :
    s.findWorker? wanted = t.findWorker? wanted := by
  have hany : ∀ {i : Nat} {p q : Pool α}, gap.Pools i p q →
      p.workers.any wanted = q.workers.any wanted := by
    intro i p q hpools
    have hmap := congrArg (List.any · fun b => b) (hpools.map_workers hwanted)
    rwa [List.any_map, List.any_map] at hmap
  unfold System.findWorker?
  rw [findIdx?_congr (h.map_pools hany)]
  cases t.pools.findIdx? fun p => p.workers.any wanted with
  | none => rfl
  | some i =>
    show (s.pools[i]? >>= _) = (t.pools[i]? >>= _)
    rcases h.pool_cases i with ⟨hp, hq⟩ | ⟨p, q, hp, hq, hpools⟩ <;> rw [hp, hq]
    show (p.workers.findIdx? wanted >>= _) = (q.workers.findIdx? wanted >>= _)
    rw [findIdx?_congr (hpools.map_workers hwanted)]

/-- The joins that look first are at the same place. -/
theorem findJoin?_eq (h : gap.Apart s t) :
    s.joiners.findIdx? (·.isWoken) = (t.joiners.findIdx? (·.isWoken)).map gap.place := by
  have hplace : ∀ {m : Nat} {j : Joiner α}, s.joiners[m]? = some j → j.isWoken = true →
      ∃ n j', m = gap.place n ∧ t.joiners[n]? = some j' ∧ j'.isWoken = true := by
    intro m j hj hwoken
    rcases gap.place_cases m with ⟨n, rfl⟩ | ⟨hle, hlt⟩
    · rcases h.join_cases n with ⟨hnone, -⟩ | ⟨j₁, j', hj₁, hj', hjoins⟩
      · exact absurd (hj.symm.trans hnone) (by simp)
      · obtain rfl := Option.some.inj (hj₁.symm.trans hj)
        exact ⟨n, j', rfl, hj', hjoins.isWoken_eq ▸ hwoken⟩
    · -- an answered join is not told to look
      have hanswered := h.answered m j hle hlt hj
      cases hs : j.state <;> simp_all [Joiner.answer?, Joiner.isWoken]
  cases ht : t.joiners.findIdx? (·.isWoken) with
  | none =>
    refine List.findIdx?_eq_none_iff.mpr fun j hj => ?_
    obtain ⟨m, hm⟩ := List.getElem?_of_mem hj
    by_contra hwoken
    obtain ⟨n, j', -, hj', hwoken'⟩ := hplace hm (by simpa using hwoken)
    have hnot := List.findIdx?_eq_none_iff.mp ht j' (List.mem_of_getElem? hj')
    exact absurd (hwoken'.symm.trans hnot) (by simp)
  | some n =>
    obtain ⟨hn, hwoken, hfirst⟩ := List.findIdx?_eq_some_iff_getElem.mp ht
    rcases h.join_cases n with ⟨-, hnone⟩ | ⟨j, j', hj, hj', hjoins⟩
    · exact absurd hn (Nat.not_lt.mpr (List.getElem?_eq_none_iff.mp hnone))
    obtain ⟨hlt, hget⟩ := List.getElem?_eq_some_iff.mp hj
    have hget' : t.joiners[n] = j' :=
      Option.some.inj ((List.getElem?_eq_getElem hn).symm.trans hj')
    refine List.findIdx?_eq_some_iff_getElem.mpr ⟨hlt, ?_, fun m hm => ?_⟩
    · rw [hget, hjoins.isWoken_eq, ← hget']
      exact hwoken
    · intro hwoken'
      obtain ⟨n', j₁, rfl, hj₁, hwoken₁⟩ :=
        hplace (List.getElem?_eq_getElem (Nat.lt_trans hm hlt)) hwoken'
      obtain ⟨hlt₁, rfl⟩ := List.getElem?_eq_some_iff.mp hj₁
      exact hfirst n' (place_lt_place.mp hm) hwoken₁

/-- By the phases of their workers the two systems make corresponding moves. -/
theorem byPhase_eq (h : gap.Apart s t) {first second : Phase → Bool}
    (hfirst : ∀ {phase phase' : Phase}, phase.Beside phase' → first phase = first phase')
    (hsecond : ∀ {phase phase' : Phase}, phase.Beside phase' → second phase = second phase') :
    s.byPhase first second = (t.byPhase first second).map gap.move := by
  have hshutdown : s.pools.findIdx? (·.standing.isWoken) =
      t.pools.findIdx? (·.standing.isWoken) :=
    findIdx?_congr (h.map_pools fun hpools => hpools.isWoken_eq)
  have hworker : ∀ wanted : Phase → Bool,
      t.findWorker? wanted = (t.findWorker? wanted).map gap.move := by
    intro wanted
    cases hm : t.findWorker? wanted with
    | none => rfl
    | some m =>
      obtain ⟨i, w, -, rfl, -⟩ := System.findWorker?_eq_some hm
      rfl
  unfold System.byPhase
  rw [h.findWorker?_eq hfirst, h.findWorker?_eq hsecond, h.findJoin?_eq, hshutdown]
  simp only [Option.orElse_eq_orElse, Option.orElse_eq_or, Option.map_or, Option.map_map]
  rw [← hworker, ← hworker]
  rfl

end Apart

/-- The schedule does not see the gap: in systems that are apart by it, corresponding threads go
next. -/
def Overlooks (gap : Gap) {α : Type} (schedule : Schedule α) : Prop :=
  ∀ s t : System α, gap.Apart s t → schedule s = (schedule t).map gap.move

theorem overlooks_bodiesFirst (gap : Gap) {α : Type} :
    gap.Overlooks (System.bodiesFirst : System α → Option Move) := by
  intro s t h
  exact h.byPhase_eq Phase.Beside.isUnderWay_eq
    fun hb => hb.isLooking_eq.1.trans hb.isLooking_eq.2.symm

theorem overlooks_looksFirst (gap : Gap) {α : Type} :
    gap.Overlooks (System.looksFirst : System α → Option Move) := by
  intro s t h
  exact h.byPhase_eq (fun hb => hb.isLooking_eq.1.trans hb.isLooking_eq.2.symm)
    Phase.Beside.isUnderWay_eq

theorem overlooks_inTurns (gap : Gap) {α : Type} :
    gap.Overlooks (System.inTurns : System α → Option Move) := by
  intro s t h
  have hruns : s.runsBegun = t.runsBegun := by rw [System.runsBegun, h.tasks]; rfl
  unfold System.inTurns
  rw [hruns, gap.overlooks_looksFirst s t h, gap.overlooks_bodiesFirst s t h]
  split <;> rfl

/-- Whatever body has ended between the two systems has nothing to do with the pool that is dropped
in one run only. -/
def Unseen (gap : Gap) {α : Type} (s s' : System α) : Prop :=
  ∀ a run task id, s'.tasks[a]? = some task → s'.HasEnded a run → ¬s.HasEnded a run →
    task.body.poolOf? run = some id → gap.Spares id

section Unseen

variable {α : Type} {gap : Gap} {s s' s'' t : System α} {m : Move} {schedule : Schedule α}

/-- There is nothing to see if no pool is dropped in one run only. -/
theorem IsFull.unseen (h : gap.IsFull) (s s' : System α) : gap.Unseen s s' := by
  intro a run task id _ _ _ _ i name hhidden
  exact absurd (h.symm.trans hhidden) (by simp)

theorem Unseen.left (h : gap.Unseen s s'') (hs' : s'.Occurs) (hbrings : s'.Brings s'') :
    gap.Unseen s s' := by
  intro a run task id htask hended hnot hid
  obtain ⟨task', htask', hlater⟩ := hbrings.tasksStay a task htask
  exact h a run task' id htask' (hbrings.hasEnded hs' hended) hnot (hlater.body_eq ▸ hid)

theorem Unseen.right (h : gap.Unseen s s'') (hs : s.Occurs) (hbrings : s.Brings s') :
    gap.Unseen s' s'' :=
  fun a run task id htask hended hnot hid =>
    h a run task id htask hended (fun hbefore => hnot (hbrings.hasEnded hs hbefore)) hid

/-- A move that nobody sees the pool in. -/
theorem Unseen.spares (h : gap.Unseen s (s.perform m)) (hs : s.Occurs) {i w : Nat} {k : Ticket}
    {job : Job} {run : Nat} {task : Task α} {id : String} (hm : m = .worker i w)
    (hphase : s.phase? i w = some (.executing k job (.past run)))
    (htask : s.tasks[job.task]? = some task) (hid : task.body.poolOf? run = some id) :
    gap.Spares id := by
  subst hm
  obtain ⟨task', htask', hlater⟩ := (s.brings_perform (.worker i w)).tasksStay _ task htask
  obtain ⟨p, hp, -, rfl⟩ := hs
  obtain ⟨hnot, hended⟩ := hp.hasEnded_move hphase
  exact h job.task run task' id htask' hended hnot (hlater.body_eq ▸ hid)

theorem Apart.settleWithin (h : gap.Apart s t) (hblind : gap.Overlooks schedule) (hs : s.Occurs)
    {fuel : Nat} (hunseen : gap.Unseen s (s.settleWithin schedule fuel)) :
    gap.Apart (s.settleWithin schedule fuel) (t.settleWithin schedule fuel) := by
  induction fuel generalizing s t with
  | zero => exact h
  | succ fuel ih =>
    unfold System.settleWithin at hunseen ⊢
    rw [hblind s t h] at hunseen ⊢
    cases hm : schedule t with
    | none => exact h
    | some m =>
      rw [hm] at hunseen
      have hmoves := s.brings_perform (gap.move m)
      have hs' := hs.brings hmoves
      have hsettles := (s.perform (gap.move m)).brings_settleWithin schedule fuel
      have hmove := hunseen.left hs' hsettles
      refine ih (h.perform m fun i w k job run task id hw hphase htask hid => ?_) hs'
        (hunseen.right hs hmoves)
      exact hmove.spares hs (by rw [hw]; rfl) hphase htask hid

/-- **Two systems settle side by side.** -/
theorem Apart.settle (h : gap.Apart s t) (hdiligent : Schedule.Diligent schedule)
    (hblind : gap.Overlooks schedule) (hs : s.Occurs) (ht : t.Occurs)
    (hunseen : gap.Unseen s (s.settle schedule)) :
    gap.Apart (s.settle schedule) (t.settle schedule) := by
  have hfuel := hs.settle_eq hdiligent (Nat.le_add_right s.budget t.budget)
  have hfuel' := ht.settle_eq hdiligent (Nat.le_add_left t.budget s.budget)
  rw [hfuel] at hunseen ⊢
  rw [hfuel']
  exact h.settleWithin hblind hs hunseen

end Unseen

end Gap
end WorkerPool
