/-
# What is done to two systems, one of which meets a panic

Each operation and each move, done to two systems that are apart by a mishap, leaves them apart by
the same one.  There is one exception: the move that ends the body which panics in the second run
only.  There the mishap begins (`Mishap.strike`), and only once, because a body ends once.  So two
systems that settle side by side, under a schedule that chooses as it would without the panic, come
to rest apart by the mishap that they had, or by the one that has struck meanwhile
(`Apart.settle`).
-/
import WorkerPool.Proofs.Containment.System
import WorkerPool.Proofs.Endings

namespace WorkerPool

/-- The threads of a system, which of them can move, and how many bodies have begun. -/
def System.threads {α : Type} (s : System α) :
    List (List Phase × Standing) × List Bool × Nat :=
  (s.pools.map fun p => (p.workers, p.standing), s.joiners.map (·.isWoken), s.runsBegun)

/-- A schedule that chooses by the threads, and by how many bodies have begun. -/
def Schedule.SeesThreads {α : Type} (schedule : Schedule α) : Prop :=
  ∀ s t : System α, s.threads = t.threads → schedule s = schedule t

/-- A schedule by the phases of the workers sees nothing but threads. -/
theorem System.byPhase_seesThreads {α : Type} (first second : Phase → Bool) :
    Schedule.SeesThreads (System.byPhase first second : System α → Option Move) := by
  intro s t h
  obtain ⟨hpools, hrest⟩ := Prod.mk.inj h
  obtain ⟨hjoiners, -⟩ := Prod.mk.inj hrest
  have hworkers : s.pools.map (·.workers) = t.pools.map (·.workers) := by
    have hfirst := congrArg (List.map Prod.fst) hpools
    rwa [List.map_map, List.map_map] at hfirst
  have hfind (wanted : Phase → Bool) : s.findWorker? wanted = t.findWorker? wanted := by
    have hread (s : System α) : s.findWorker? wanted =
        ((s.pools.map (·.workers)).findIdx? (·.any wanted)).bind fun i =>
          (s.pools.map (·.workers))[i]?.bind fun workers =>
            (workers.findIdx? wanted).map (Move.worker i) := by
      rw [List.findIdx?_map]
      unfold System.findWorker?
      show Option.bind (s.pools.findIdx? fun p => p.workers.any wanted) _ = _
      refine congrArg (Option.bind _) (funext fun i => ?_)
      rw [List.getElem?_map]
      cases s.pools[i]? with
      | none => rfl
      | some p =>
        show (p.workers.findIdx? wanted).bind _ = (p.workers.findIdx? wanted).map _
        cases p.workers.findIdx? wanted <;> rfl
    rw [hread, hread, hworkers]
  have hstanding : s.pools.findIdx? (·.standing.isWoken) =
      t.pools.findIdx? (·.standing.isWoken) := by
    refine Gap.Apart.findIdx?_congr ?_
    have hsecond := congrArg (List.map fun seen => seen.2.isWoken) hpools
    rwa [List.map_map, List.map_map] at hsecond
  unfold System.byPhase
  rw [hfind, hfind, hstanding, Gap.Apart.findIdx?_congr hjoiners]

theorem System.bodiesFirst_seesThreads {α : Type} :
    Schedule.SeesThreads (System.bodiesFirst : System α → Option Move) :=
  byPhase_seesThreads _ _

theorem System.looksFirst_seesThreads {α : Type} :
    Schedule.SeesThreads (System.looksFirst : System α → Option Move) :=
  byPhase_seesThreads _ _

theorem System.inTurns_seesThreads {α : Type} :
    Schedule.SeesThreads (System.inTurns : System α → Option Move) := by
  intro s t h
  have hruns : s.runsBegun = t.runsBegun := (Prod.mk.inj (Prod.mk.inj h).2).2
  unfold System.inTurns
  rw [hruns, looksFirst_seesThreads s t h, bodiesFirst_seesThreads s t h]

/-- Before the body has ended, it has left no result, and no join of its submission has one. -/
theorem System.Occurs.unended {α : Type} {s : System α} (h : s.Occurs) {i w run : Nat}
    {k : Ticket} {job : Job} (hw : s.phase? i w = some (.executing k job (.past run))) {p : Pool α}
    (hi : s.pools[i]? = some p) :
    p.results[k.number]? = none ∧
      ∀ j ∈ s.joiners, j.submission.place = (i, k.number) → ∀ v, j.answer? ≠ some (.ok v) := by
  obtain ⟨q, hq, -, rfl⟩ := h
  obtain ⟨hmem, life, hlife, hat⟩ := hq.chronicled.executed hq.owned
    (Program.executes hq.poolsSound hw)
  obtain ⟨v, run', rfl⟩ : ∃ v run', life = .begun v run' := by
    cases life <;> simp_all [Life.IsAt]
  refine ⟨(Program.ledger_result hi k.number).symm.trans hlife.result, fun j hj hplace v hv => ?_⟩
  obtain ⟨n, hn⟩ := List.getElem?_of_mem hj
  have hstands := hq.joined n j hn
  obtain ⟨-, hx⟩ := hq.owned.unique _ _ _ hstands.mem _ hmem hplace
  rcases hstands.answered _ hv with ⟨_, _, _, hfinished, -⟩ | ⟨htimeout, -⟩
  · rw [hx] at hfinished
    exact absurd (hlife.status.symm.trans hfinished.status) (by simp [Life.status])
  · cases htimeout

namespace Mishap
namespace Apart

variable {α : Type} {m : Mishap α} {s t : System α}

/-! ## 1. Small changes -/

theorem modifyPool (h : m.Apart s t) (i : Nat) {f g : Pool α → Pool α}
    (hf : ∀ p q, s.pools[i]? = some p → t.pools[i]? = some q → m.Pools i p q →
      m.Pools i (f p) (g q)) : m.Apart (s.modifyPool i f) (t.modifyPool i g) :=
  { h with
    pools := System.rel_modifyPool h.pools i hf
    fresh := fun j hj => h.fresh j (by simpa [System.modifyPool] using hj) }

/-- A section that has nothing to do with results. -/
theorem blindly (h : m.Apart s t) (i : Nat) {f : Pool α → Pool α} (hf : Pool.Blind f)
    (hf' : Pool.Heedless f) : m.Apart (s.modifyPool i f) (t.modifyPool i f) :=
  h.modifyPool i fun _ _ _ _ hpools => hpools.map hf hf'

/-- A change of a task that has nothing to do with its body. -/
theorem modifyTask (h : m.Apart s t) (a : Nat) {f : Task α → Task α}
    (hbody : ∀ b, (f b).body = b.body)
    (hf : ∀ b, f (Task.panickingAt m.run b) = Task.panickingAt m.run (f b)) :
    m.Apart (s.modifyTask a f) (t.modifyTask a f) :=
  { h with
    target := by
      obtain ⟨b, hb, hreturns, hkind⟩ := h.target
      rw [System.tasks_modifyTask, hb]
      split
      · exact ⟨f b, rfl, by rw [hbody]; exact hreturns, by rw [hbody]; exact hkind⟩
      · exact ⟨b, rfl, hreturns, hkind⟩
    tasks := by
      refine List.ext_getElem? fun c => ?_
      rw [System.tasks_modifyTask, h.task_eq, List.getElem?_modify, System.tasks_modifyTask]
      cases s.tasks[c]? with
      | none => split <;> split <;> rfl
      | some b =>
        by_cases hc : c = m.task
        · subst hc
          by_cases ha : m.task = a <;> simp [ha, hf]
        · by_cases ha : c = a
          · subst ha
            simp [hc, Ne.symm hc]
          · simp [ha, hc, Ne.symm hc] }

theorem addEvents (h : m.Apart s t) (es : List (Event α)) :
    m.Apart { s with events := es ++ s.events } { t with events := es ++ t.events } :=
  { h with
    events := by
      obtain ⟨new, hs, ht⟩ := h.events
      refine ⟨es ++ new, ?_, ?_⟩
      · rw [List.append_assoc, ← hs]
      · rw [List.append_assoc, ← ht] }

theorem note (h : m.Apart s t) (n : TaskNote) : m.Apart (s.note n) (t.note n) :=
  { h with journal := congrArg (n :: ·) h.journal }

theorem refuseThreads (h : m.Apart s t) (refusal : Option String) :
    m.Apart { s with refusal } { t with refusal } :=
  { h with refusal := rfl }

/-- Time and joins of both. -/
theorem rejoin (h : m.Apart s t) (clock : Nat) (joiners : List (Joiner α)) :
    m.Apart (s.later clock joiners) (t.later clock (joiners.map (·.reread m.rereads))) :=
  { h with
    joiners := rfl
    clock := rfl }

/-- A join comes to a state, and reads it in its own way in the second system. -/
theorem setJoin (h : m.Apart s t) {n : Nat} {j : Joiner α} (hj : s.joiners[n]? = some j)
    (state : JoinState α) :
    m.Apart (s.setJoin n state) (t.setJoin n (state.reread (m.rereads j.submission))) :=
  { h with
    joiners := by
      refine List.ext_getElem? fun n' => ?_
      rw [System.joiners_setJoin, h.joiners, List.getElem?_map, List.getElem?_map,
        System.joiners_setJoin]
      by_cases hn : n' = n
      · subst hn
        rw [if_pos rfl, if_pos rfl, hj]
        rfl
      · rw [if_neg hn, if_neg hn] }

/-- Something happens to all joins that has nothing to do with their answers. -/
theorem mapJoins (h : m.Apart s t) {f : Joiner α → Joiner α}
    (hf : ∀ j, f (j.reread m.rereads) = (f j).reread m.rereads) :
    m.Apart { s with joiners := s.joiners.map f } { t with joiners := t.joiners.map f } :=
  { h with
    joiners := by
      show t.joiners.map f = (s.joiners.map f).map _
      rw [h.joiners, List.map_map, List.map_map]
      exact List.map_congr_left fun j _ => hf j }

theorem wakeJoiners (h : m.Apart s t) (x : Submission) :
    m.Apart (s.wakeJoiners x) (t.wakeJoiners x) := by
  refine h.mapJoins fun j => ?_
  obtain ⟨task, y, deadline, state⟩ := j
  show (if y = x then _ else _) = Joiner.reread _ (if y = x then _ else _)
  split
  · cases state <;> rfl
  · rfl

/-! ## 2. Operations -/

theorem openGate (h : m.Apart s t) (a run : Nat) :
    m.Apart (s.openGate a run) (t.openGate a run) :=
  { h with
    pools := by
      intro i
      rw [System.openGate_pools, System.openGate_pools]
      rcases h.pool_cases i with ⟨hp, hq⟩ | ⟨p, q, hp, hq, hpools⟩ <;> rw [hp, hq]
      · exact .none
      · exact .some (hpools.map (Pool.blind_mapWorkers _) (Pool.heedless_mapWorkers _))
    fresh := fun i hi => h.fresh i (by simpa [System.openGate] using hi) }

theorem addPool (h : m.Apart s t) (id : String) (plan : Plan) :
    m.Apart (s.addPool id plan) (t.addPool id plan) :=
  { h with
    pools := by
      intro i
      show Option.Rel (m.Pools i) (s.pools ++ [Pool.create id plan])[i]?
        (t.pools ++ [Pool.create id plan])[i]?
      rcases Nat.lt_trichotomy i s.pools.length with hi | rfl | hi
      · rw [List.getElem?_append_left hi, List.getElem?_append_left (h.length_pools ▸ hi)]
        exact h.pools i
      · have hlost := h.fresh s.pools.length (Nat.le_refl _)
        have hnew : m.Pools s.pools.length _ _ :=
          .mk (Pool.create (α := α) id plan) fun n hn => absurd (hlost.symm.trans hn) (by simp)
        rw [notesOf_of_lost hlost, hlost] at hnew
        rw [List.getElem?_concat_length, h.length_pools, List.getElem?_concat_length,
          ← h.length_pools]
        exact .some hnew
      · have hlength : (s.pools ++ [Pool.create (α := α) id plan]).length ≤ i := by
          simpa using Nat.succ_le_of_lt hi
        rw [List.getElem?_eq_none hlength,
          List.getElem?_eq_none (by simpa [h.length_pools] using hlength)]
        exact .none
    fresh := fun i hi => h.fresh i (by
      have hlength : (s.addPool id plan).pools.length = s.pools.length + 1 := by
        simp [System.addPool]
      omega) }

theorem addTask (h : m.Apart s t) (id : String) (body : Body α) :
    m.Apart (s.addTask id body) (t.addTask id body) := by
  obtain ⟨b, hb, htarget⟩ := h.target
  have hlt := (List.getElem?_eq_some_iff.mp hb).1
  exact { h with
    target := ⟨b, (List.getElem?_append_left hlt).trans hb, htarget⟩
    tasks := by
      show t.tasks ++ _ = (s.tasks ++ _).modify _ _
      refine List.ext_getElem? fun c => ?_
      rw [h.tasks, List.getElem?_modify, List.getElem?_append, List.getElem?_append,
        List.length_modify, List.getElem?_modify]
      by_cases hc : m.task = c
      · subst hc
        simp [hlt]
      · simp [hc] }

theorem submit (h : m.Apart s t) (i a : Nat) :
    (s.submit i a).1 = (t.submit i a).1 ∧ m.Apart (s.submit i a).2 (t.submit i a).2 := by
  unfold System.submit
  rw [← h.refusal]
  rcases h.pool_cases i with ⟨hp, hq⟩ | ⟨p, q, hp, hq, hpools⟩ <;> rw [hp, hq]
  · exact ⟨rfl, h⟩
  rcases h.task_cases a with ⟨hb, hb'⟩ | ⟨b, b', hb, hb', hbody⟩ <;> rw [hb, hb']
  · exact ⟨rfl, h⟩
  have hactive : p.isActive = q.isActive := hpools.read (fun _ _ => rfl) fun _ _ => rfl
  have hlive : b.isLive = b'.isLive := by rw [hbody]; split <;> rfl
  obtain ⟨hreply, hsubmitted⟩ := hpools.submit s.refusal ⟨a⟩
  have hset := h.modifyPool i (f := fun _ => (p.submit s.refusal ⟨a⟩).2)
    (g := fun _ => (q.submit s.refusal ⟨a⟩).2) fun _ _ _ _ _ => hsubmitted
  dsimp only
  rw [← hactive, ← hlive, ← hreply]
  cases p.isActive with
  | false => exact ⟨rfl, h⟩
  | true =>
    cases b.isLive with
    | false => exact ⟨rfl, h⟩
    | true =>
      simp only [Bool.not_true, Bool.false_eq_true, if_false]
      cases (p.submit s.refusal ⟨a⟩).1 with
      | error e => exact ⟨rfl, hset⟩
      | ok ticket => exact ⟨rfl, hset.modifyTask a (fun _ => rfl) fun _ => rfl⟩

theorem submitById (h : m.Apart s t) (pool task : String) :
    (s.submitById pool task).1 = (t.submitById pool task).1 ∧
      m.Apart (s.submitById pool task).2 (t.submitById pool task).2 := by
  unfold System.submitById
  rw [← h.alike.findPool?_eq pool, ← h.alike.findTask?_eq]
  cases s.findPool? pool with
  | none => exact ⟨rfl, h⟩
  | some i =>
    cases s.findTask? task with
    | none => exact ⟨rfl, h⟩
    | some a => exact h.submit i a

theorem shutdown (h : m.Apart s t) (i : Nat) :
    (s.shutdown i).1 = (t.shutdown i).1 ∧ m.Apart (s.shutdown i).2 (t.shutdown i).2 := by
  unfold System.shutdown
  rcases h.pool_cases i with ⟨hp, hq⟩ | ⟨p, q, hp, hq, hpools⟩ <;> rw [hp, hq]
  · exact ⟨rfl, h⟩
  have hactive : p.isActive = q.isActive := hpools.read (fun _ _ => rfl) fun _ _ => rfl
  obtain ⟨hrefused, hshut⟩ := hpools.shutdown
  dsimp only
  rw [← hactive]
  cases p.isActive with
  | false => exact ⟨rfl, h⟩
  | true => exact ⟨hrefused, h.modifyPool i fun _ _ _ _ _ => hshut⟩

theorem dropPool (h : m.Apart s t) (i : Nat) : m.Apart (s.dropPool i) (t.dropPool i) :=
  h.blindly i Pool.blind_drop Pool.heedless_drop

theorem unlinkAll (h : m.Apart s t) (xs : List Submission) :
    m.Apart (s.unlinkAll xs) (t.unlinkAll xs) := by
  induction xs generalizing s t with
  | nil => exact h
  | cons x rest ih => exact ih (h.blindly x.pool (Pool.blind_unlink _) (Pool.heedless_unlink _))

theorem detachAll (h : m.Apart s t) (xs : List Submission) :
    m.Apart (s.detachAll xs) (t.detachAll xs) := by
  induction xs generalizing s t with
  | nil => exact h
  | cons x rest ih => exact ih (h.blindly x.pool (Pool.blind_detach _) (Pool.heedless_detach _))

theorem retire (h : m.Apart s t) (a : Nat) (fate : Fate) :
    m.Apart (s.modifyTask a (·.retire fate)) (t.modifyTask a (·.retire fate)) := by
  refine h.modifyTask a (fun b => ?_) fun b => ?_
  · unfold Task.retire
    split <;> rfl
  · unfold Task.retire
    show (if b.isLive then _ else _) = _
    split <;> rfl

theorem release (h : m.Apart s t) (a : Nat) :
    (s.release a).1 = (t.release a).1 ∧ m.Apart (s.release a).2 (t.release a).2 := by
  have hcan : s.canRelease a = t.canRelease a := by
    rw [System.canRelease, System.canRelease, h.alike.submissions_eq, funext h.isSpent_eq]
  unfold System.release
  rw [hcan, h.alike.submissions_eq]
  cases t.canRelease a with
  | true => exact ⟨rfl, (h.unlinkAll _).retire a _⟩
  | false => exact ⟨rfl, h.note _⟩

theorem detach (h : m.Apart s t) (a : Nat) : m.Apart (s.detach a) (t.detach a) := by
  unfold System.detach
  rw [h.alike.submissions_eq]
  refine (Apart.detachAll ?_ _).retire a _
  split
  · exact h
  · exact h.note _

/-! ## 3. Joins -/

/-- A join looks at its record. -/
theorem lookAgain (h : m.Apart s t) (n : Nat) : m.Apart (s.lookAgain n) (t.lookAgain n) := by
  have hjoin : t.joiners[n]? = s.joiners[n]?.map (·.reread m.rereads) := by
    rw [h.joiners, List.getElem?_map]
  cases hj : s.joiners[n]? with
  | none =>
    rw [hj] at hjoin
    simp only [System.lookAgain, hj, hjoin, Option.map_none]
    exact h
  | some j =>
    rw [hj] at hjoin
    have hsubmission : (j.reread m.rereads).submission = j.submission := rfl
    have hdue : (j.reread m.rereads).isDue s.clock = j.isDue s.clock := rfl
    simp only [System.lookAgain, hj, hjoin, Option.map_some, hsubmission, ← h.record?_eq,
      ← h.clock, hdue, h.outcome_eq]
    cases s.record? j.submission with
    | none => exact h.setJoin hj (.answered (.error .notSubmitted))
    | some r =>
      dsimp only
      split
      · exact (h.blindly j.submission.pool (Pool.blind_join _) (Pool.heedless_join _)).setJoin hj
          (.answered (s.outcome j.submission))
      · split
        · exact h.setJoin hj (.answered (.error .timeout))
        · exact h.setJoin hj (.waiting false)

theorem startWait (h : m.Apart s t) (n : Nat) : m.Apart (s.startWait n) (t.startWait n) := by
  unfold System.startWait
  rw [h.joiners, List.getElem?_map]
  cases s.joiners[n]? with
  | none => exact h
  | some j =>
    show m.Apart _ (System.lookAgain
      (if j.deadline.isNone then
        t.modifyPool j.submission.pool fun p => p.join j.submission.ticket else t) n)
    dsimp only
    cases j.deadline.isNone with
    | true =>
      exact (h.blindly j.submission.pool (Pool.blind_join _) (Pool.heedless_join _)).lookAgain n
    | false => exact h.lookAgain n

/-! ## 4. Bodies -/

theorem enterBody (h : m.Apart s t) (i w : Nat) (k : Ticket) (job : Job) :
    m.Apart (s.enterBody i w k job) (t.enterBody i w k job) := by
  unfold System.enterBody
  rcases h.pool_cases i with ⟨hp, hq⟩ | ⟨p, q, hp, hq, hpools⟩ <;> rw [hp, hq]
  · exact h
  rcases h.task_cases job.task with ⟨hb, hb'⟩ | ⟨b, b', hb, hb', hbody⟩ <;> rw [hb, hb']
  · exact h
  obtain ⟨hid, hruns, hgate⟩ : b'.id = b.id ∧ b'.runs = b.runs ∧ b'.body.gate = b.body.gate := by
    rw [hbody]
    split <;> exact ⟨rfl, rfl, rfl⟩
  dsimp only
  rw [hid, hruns, hgate, ← hpools.id_eq]
  have htask := h.modifyTask job.task (f := fun t => { t with runs := b.runs + 1 }) (fun _ => rfl)
    fun _ => rfl
  exact (htask.blindly i (Pool.blind_setPhase w _) (Pool.heedless_setPhase w _)).addEvents [_]

/-- A body gives the same value in both, and submits the same. -/
theorem evaluate (h : m.Apart s t) {i : Nat} {p q : Pool α} (hpools : m.Pools i p q) (w : Nat)
    {b b' : Task α} (hid : b'.id = b.id) (hkind : b'.body.kind = b.body.kind) (run : Nat) :
    (s.evaluate p w b run).1 = (t.evaluate q w b' run).1 ∧
      m.Apart (s.evaluate p w b run).2 (t.evaluate q w b' run).2 := by
  unfold System.evaluate
  rw [hkind, hid]
  cases b.body.kind with
  | const value => exact ⟨rfl, h⟩
  | count => exact ⟨rfl, h⟩
  | affine arg mul add => exact ⟨rfl, h⟩
  | workerName => exact ⟨congrArg Value.workerName (hpools.workerName_eq w), h⟩
  | observe pool other =>
    exact ⟨congrArg₂ Value.seen (h.alike.observePool_eq pool) (h.alike.observeTask_eq _), h⟩
  | submit on pool other =>
    dsimp only
    cases on.has run with
    | false => exact ⟨rfl, h⟩
    | true =>
      obtain ⟨hreply, hsubmitted⟩ := h.submitById pool other
      exact ⟨congrArg Value.submitted hreply, hsubmitted⟩

/-- A body ends that does not panic in the second run only; its own result is not the one that is
lost. -/
theorem endBody (h : m.Apart s t) (i w : Nat) (k : Ticket) (job : Job) (run : Nat)
    (hother : job.task ≠ m.task ∨ run ≠ m.run) (hk : m.lost i ≠ some k.number) :
    m.Apart (s.endBody i w k job run) (t.endBody i w k job run) := by
  unfold System.endBody
  rcases h.pool_cases i with ⟨hp, hq⟩ | ⟨p, q, hp, hq, hpools⟩ <;> rw [hp, hq]
  · exact h
  rcases h.task_cases job.task with ⟨hb, hb'⟩ | ⟨b, b', hb, hb', hbody⟩ <;> rw [hb, hb']
  · exact h
  have hpanics : b'.body.panics.has run = b.body.panics.has run := by
    rw [hbody]
    split
    · next htask =>
      have hrun : (run == m.run) = false := beq_false_of_ne (hother.resolve_left (· htask))
      show (b.body.panics.insert m.run).has run = _
      rw [RunSet.has_insert, hrun, Bool.false_or]
    · rfl
  obtain ⟨hid, hkind, hpayload⟩ : b'.id = b.id ∧ b'.body.kind = b.body.kind ∧
      b'.body.payload = b.body.payload := by
    rw [hbody]
    split <;> exact ⟨rfl, rfl, rfl⟩
  dsimp only
  rw [hpanics, hpayload]
  have hevents (payload : α) : q.panicEvents payload = p.panicEvents payload := by
    rw [Pool.panicEvents, Pool.panicEvents, hpools.plan_eq, hpools.id_eq]
  cases b.body.panics.has run with
  | true =>
    have hended := h.blindly i
      ((Pool.blind_setPhase w (.executing k job .over)).comp
        (Pool.blind_note (.panicked w k.number)))
      ((Pool.heedless_setPhase w _).comp (Pool.heedless_note _))
    rw [if_pos rfl, if_pos rfl, System.reportPanic_eq, System.reportPanic_eq, hevents]
    exact hended.addEvents _
  | false =>
    obtain ⟨hvalue, hevaluated⟩ := h.evaluate hpools w hid hkind run
    rw [if_neg Bool.false_ne_true, if_neg Bool.false_ne_true, ← hvalue]
    exact hevaluated.modifyPool i fun _ _ _ _ hpools =>
      (hpools.putResult hk _).map (Pool.blind_setPhase w _) (Pool.heedless_setPhase w _)

theorem finishBody (h : m.Apart s t) (i w : Nat) (k : Ticket) :
    m.Apart (s.finishBody i w k) (t.finishBody i w k) :=
  (h.blindly i (Pool.blind_finish w k) (Pool.heedless_finish w k)).wakeJoiners _

end Apart

/-! ## 5. The mishap strikes -/

section Strike

variable {α : Type} {s t : System α} {a run : Nat}

/-- A mishap that is still to come. -/
def ahead (a run : Nat) : Mishap α := ⟨a, run, none, ([], []), ([], [])⟩

/-- The mishap from now on, when in system `s` a worker of pool `p` ends the body of task `b` that
it runs for submission `x`. -/
def strike (a run : Nat) (s : System α) (x : Submission) (w : Nat) (p : Pool α) (b : Task α) :
    Mishap α where
  task := a
  run := run
  site := some x
  poolNotes := (p.journal, .panicked w x.ticket.number :: p.journal)
  events := (s.events, p.panicEvents b.body.payload ++ s.events)

theorem lost_strike (x : Submission) (w : Nat) (p : Pool α) (b : Task α) (i : Nat) :
    (strike a run s x w p b).lost i = if x.pool = i then some x.ticket.number else none := rfl

theorem Pools.refl {m : Mishap α} {i : Nat} (hlost : m.lost i = none) (p : Pool α) :
    m.Pools i p p := by
  have hmk := Pools.mk (m := m) (i := i) p fun n hn => absurd (hlost.symm.trans hn) (by simp)
  rw [notesOf_of_lost hlost, hlost] at hmk
  have hsame : p.older [] = p := by rw [Pool.older, List.append_nil]
  have hwithout : p.without none = p := rfl
  rwa [hwithout, hsame] at hmk

/-- Only the answers of the one submission are read in another way. -/
theorem reread_eq_self {m : Mishap α} {j : Joiner α}
    (hj : ∀ v, j.answer? = some (.ok v) →
      m.lost j.submission.pool ≠ some j.submission.ticket.number) :
    j.reread m.rereads = j := by
  obtain ⟨task, x, deadline, state⟩ := j
  rcases state with _ | _ | ⟨e | v⟩
  · rfl
  · rfl
  · rfl
  · show Joiner.mk task x deadline (.answered (m.reads x (.ok v))) = _
    rw [reads, if_neg (hj v rfl)]

/-- Until then there is no difference but the body. -/
theorem Apart.eq_of_ahead (h : (ahead a run).Apart s t) :
    t = { s with tasks := s.tasks.modify a (Task.panickingAt run) } := by
  have hlost (i : Nat) : (ahead a run : Mishap α).lost i = none := rfl
  have hpools : t.pools = s.pools := by
    refine List.ext_getElem? fun i => ?_
    rcases h.pool_cases i with ⟨hp, hq⟩ | ⟨p, q, hp, hq, hpools⟩ <;> rw [hp, hq]
    cases hpools with
    | mk r _ => rfl
  have hjoiners : t.joiners = s.joiners := by
    rw [h.joiners]
    refine (List.map_congr_left fun j _ => ?_).trans (List.map_id _)
    exact reread_eq_self fun v _ => by simp [hlost]
  have hevents : t.events = s.events := by
    obtain ⟨new, hs, ht⟩ := h.events
    rw [hs, ht]
    rfl
  obtain ⟨pools, tasks, joiners, events, journal, clock, refusal, processors⟩ := t
  obtain rfl : pools = s.pools := hpools
  obtain rfl : joiners = s.joiners := hjoiners
  obtain rfl : events = s.events := hevents
  obtain rfl : tasks = s.tasks.modify a (Task.panickingAt run) := h.tasks
  obtain rfl : s.journal = journal := h.journal
  obtain rfl : s.clock = clock := h.clock
  obtain rfl : s.refusal = refusal := h.refusal
  obtain rfl : s.processors = processors := h.processors
  rfl

/-- A body that does not submit changes nothing while it gives its value. -/
theorem evaluate_eq_self (s : System α) (p : Pool α) (w : Nat) {b : Task α}
    (hkind : b.body.kind.isSubmit = false) (run : Nat) : (s.evaluate p w b run).2 = s := by
  unfold System.evaluate
  cases hk : b.body.kind with
  | submit on pool task => rw [hk] at hkind; cases hkind
  | _ => rfl

theorem perform_past {i w : Nat} {k : Ticket} {job : Job}
    (hw : s.phase? i w = some (.executing k job (.past run))) :
    s.perform (.worker i w) = s.endBody i w k job run := by
  simp only [System.perform, hw]

theorem endBody_of_returns {i w : Nat} {k : Ticket} {job : Job} {p : Pool α} {b : Task α}
    (hi : s.pools[i]? = some p) (hb : s.tasks[job.task]? = some b)
    (hreturns : b.body.panics.has run = false) (hkind : b.body.kind.isSubmit = false) :
    s.endBody i w k job run = s.modifyPool i fun q =>
      (q.putResult k (s.evaluate p w b run).1).setPhase w (.executing k job .over) := by
  simp only [System.endBody, hi, hb, hreturns, Bool.false_eq_true, if_false,
    evaluate_eq_self s p w hkind]

theorem endBody_of_panics {i w : Nat} {k : Ticket} {job : Job} {p : Pool α} {b : Task α}
    (hi : s.pools[i]? = some p) (hb : s.tasks[job.task]? = some b)
    (hpanics : b.body.panics.has run = true) :
    s.endBody i w k job run =
      { s.modifyPool i fun q =>
          (q.note (.panicked w k.number)).setPhase w (.executing k job .over) with
        events := p.panicEvents b.body.payload ++ s.events } := by
  simp only [System.endBody, hi, hb, hpanics, if_true, System.reportPanic_eq]
  rfl

/-- The pools in which the body has ended: the one has a result, the other has noted a panic. -/
theorem Pools.strikes {m : Mishap α} {i w : Nat} {k : Ticket} {p : Pool α}
    (hlost : m.lost i = some k.number)
    (hnotes : m.notesOf i = (p.journal, .panicked w k.number :: p.journal))
    (hnone : p.results[k.number]? = none) (v : Value α) (phase : Phase) :
    m.Pools i ((p.putResult k v).setPhase w phase)
      ((p.note (.panicked w k.number)).setPhase w phase) := by
  let fresh : Pool α := { p with journal := [] }
  have hp : p = fresh.older p.journal := rfl
  have hput : (p.putResult k v).setPhase w phase =
      ((fresh.putResult k v).setPhase w phase).older p.journal :=
    (congrArg (·.setPhase w phase) (Pool.blind_putResult k v fresh p.journal)).trans
      (Pool.blind_setPhase w phase _ _)
  have hnoted : (p.note (.panicked w k.number)).setPhase w phase =
      (((fresh.putResult k v).setPhase w phase).without (some k.number)).older
        (.panicked w k.number :: p.journal) := by
    have hwithout := Pool.Heedless.without (Pool.heedless_setPhase w phase) (fresh.putResult k v)
      (some k.number)
    rw [← hwithout, fresh.putResult_without_self hnone v]
    rfl
  rw [hput, hnoted]
  have hmk := Pools.mk (m := m) (i := i) ((fresh.putResult k v).setPhase w phase) fun n hn => ?_
  · rwa [hlost, hnotes] at hmk
  · obtain rfl := Option.some.inj (hlost.symm.trans hn)
    have hcontains : fresh.results.contains k.number = false := by
      rw [Std.ExtTreeMap.contains_eq_isSome_getElem?]
      exact congrArg Option.isSome hnone
    show ((fresh.putResult k v).results[k.number]?).isSome = true
    rw [Pool.putResult, hcontains]
    show ((fresh.results.insert k.number v)[k.number]?).isSome = true
    rw [Std.ExtTreeMap.getElem?_insert_self]
    rfl

/-- **The mishap strikes**: the body ends, with a value in one system and a panic in the other. -/
theorem Apart.strikes (h : (ahead a run).Apart s t) (hs : s.Occurs) {i w : Nat} {k : Ticket}
    {job : Job} (hw : s.phase? i w = some (.executing k job (.past run))) (hjob : job.task = a) :
    ∃ p b, s.pools[i]? = some p ∧ s.tasks[a]? = some b ∧
      (strike a run s ⟨i, k⟩ w p b).Apart (s.perform (.worker i w))
        (t.perform (.worker i w)) := by
  obtain ⟨p, hi, -⟩ := System.phase?_eq_some.mp hw
  obtain ⟨b, hb, hreturns, hkind⟩ := h.target
  replace hb : s.tasks[a]? = some b := hb
  replace hreturns : b.body.panics.has run = false := hreturns
  obtain ⟨hnone, hjoins⟩ := hs.unended hw hi
  refine ⟨p, b, hi, hb, ?_⟩
  have ht := h.eq_of_ahead
  have hw' : t.phase? i w = some (.executing k job (.past run)) := by rw [ht]; exact hw
  have hi' : t.pools[i]? = some p := by rw [ht]; exact hi
  have hb' : t.tasks[a]? = some (b.panickingAt run) := by
    rw [ht]
    simp [hb]
  have hpanics : (b.panickingAt run).body.panics.has run = true := by
    show (b.body.panics.insert run).has run = true
    rw [RunSet.has_insert]
    simp
  subst hjob
  rw [perform_past hw, perform_past hw', endBody_of_returns hi hb hreturns hkind,
    endBody_of_panics hi' hb' hpanics]
  have hsame : t.pools = s.pools ∧ t.joiners = s.joiners ∧ t.events = s.events := by
    rw [ht]
    exact ⟨rfl, rfl, rfl⟩
  obtain ⟨hpools, hjoiners, hevents⟩ := hsame
  exact
    { pools := by
        intro j
        show Option.Rel _ (s.modifyPool i _).pools[j]? (t.modifyPool i _).pools[j]?
        rw [System.pools_modifyPool, System.pools_modifyPool, hpools]
        by_cases hj : j = i
        · subst hj
          rw [if_pos rfl, if_pos rfl, hi]
          have hlost : (strike job.task run s ⟨j, k⟩ w p b).lost j = some k.number := if_pos rfl
          refine .some (Pools.strikes hlost ?_ hnone _ _)
          rw [notesOf, hlost]
          rfl
        · rw [if_neg hj, if_neg hj]
          cases s.pools[j]? with
          | none => exact .none
          | some q =>
            have hother : (strike job.task run s ⟨i, k⟩ w p b).lost j = none :=
              if_neg (Ne.symm hj)
            exact .some (Pools.refl hother q)
      fresh := by
        intro j hj
        have hlt := (List.getElem?_eq_some_iff.mp hi).1
        rw [show (s.modifyPool i _).pools.length = s.pools.length from List.length_modify ..] at hj
        exact if_neg fun he : i = j => absurd hlt (Nat.not_lt.mpr (he ▸ hj))
      target := ⟨b, hb, hreturns, hkind⟩
      tasks := h.tasks
      joiners := by
        show t.joiners = s.joiners.map _
        rw [hjoiners]
        refine ((List.map_congr_left fun j hj => ?_).trans (List.map_id _)).symm
        refine reread_eq_self fun v hv hlost => ?_
        rw [lost_strike] at hlost
        split at hlost
        · next hpool =>
          exact hjoins j hj (Prod.ext hpool.symm (Option.some.inj hlost).symm) v hv
        · cases hlost
      events := ⟨[], rfl, congrArg (p.panicEvents b.body.payload ++ ·) hevents⟩
      journal := h.journal
      clock := h.clock
      refusal := h.refusal
      processors := h.processors }

end Strike

/-! ## 6. Moves -/

namespace Apart

variable {α : Type} {m : Mishap α} {s t : System α}

theorem phase?_eq (h : m.Apart s t) (i w : Nat) : s.phase? i w = t.phase? i w := by
  unfold System.phase?
  rcases h.pool_cases i with ⟨hp, hq⟩ | ⟨p, q, hp, hq, hpools⟩ <;> rw [hp, hq]
  show p.workers[w]? = q.workers[w]?
  rw [hpools.workers_eq]

theorem joinState?_eq (h : m.Apart s t) {n : Nat} {j : Joiner α} (hj : s.joiners[n]? = some j) :
    t.joinState? n = some (j.state.reread (m.rereads j.submission)) := by
  unfold System.joinState?
  rw [h.joiners, List.getElem?_map, hj]
  rfl

/-- The same threads can move in both. -/
theorem threads_eq (h : m.Apart s t) : s.threads = t.threads := by
  have hpools := h.map_pools (f := fun p => (p.workers, p.standing))
    fun hpools => Prod.ext hpools.workers_eq hpools.standing_eq
  refine Prod.ext hpools (Prod.ext ?_ ?_)
  · show s.joiners.map _ = t.joiners.map _
    rw [h.joiners, List.map_map]
    refine List.map_congr_left fun j _ => ?_
    obtain ⟨task, x, deadline, state⟩ := j
    cases state <;> rfl
  · show (s.tasks.map _).sum = (t.tasks.map _).sum
    rw [h.tasks, map_modify_of_eq (f := Task.runs) (g := Task.panickingAt m.run) fun _ => rfl]

/-- A move, unless it ends the one body, or another one whose result would be the one that is
lost. -/
theorem perform (h : m.Apart s t) (move : Move)
    (hspared : ∀ i w k job run, move = .worker i w →
      s.phase? i w = some (.executing k job (.past run)) →
      (job.task ≠ m.task ∨ run ≠ m.run) ∧ m.lost i ≠ some k.number) :
    m.Apart (s.perform move) (t.perform move) := by
  cases move with
  | worker i w =>
    unfold System.perform
    dsimp only
    rw [← h.phase?_eq]
    rcases hphase : s.phase? i w with _ | _ | notified | ⟨k, job, _ | run | run | _⟩ | _
    · exact h
    · exact h.blindly i (Pool.blind_advance w) (Pool.heedless_advance w)
    · cases notified with
      | true => exact h.blindly i (Pool.blind_wake w) (Pool.heedless_wake w)
      | false => exact h
    · exact h.enterBody i w k job
    · exact h
    · obtain ⟨hother, hk⟩ := hspared i w k job run rfl hphase
      exact h.endBody i w k job run hother hk
    · exact h.finishBody i w k
    · exact h
  | joiner n =>
    unfold System.perform
    dsimp only
    cases hj : s.joiners[n]? with
    | none =>
      have hnone : s.joinState? n = none := by rw [System.joinState?, hj]; rfl
      have hnone' : t.joinState? n = none := by
        rw [System.joinState?, h.joiners, List.getElem?_map, hj]
        rfl
      rw [hnone, hnone']
      exact h
    | some j =>
      have hstate : s.joinState? n = some j.state := by rw [System.joinState?, hj]; rfl
      rw [hstate, h.joinState?_eq hj]
      rcases j.state with _ | woken | answer
      · exact h.startWait n
      · cases woken with
        | true => exact h.lookAgain n
        | false => exact h
      · exact h
  | shutdown i =>
    refine h.modifyPool i fun p q _ _ hpools => ?_
    rw [← hpools.standing_eq]
    cases p.standing.isWoken with
    | true => exact hpools.map Pool.blind_awaitWorkers Pool.heedless_awaitWorkers
    | false => exact hpools

end Apart

end Mishap

/-! ## 7. Settling side by side -/

/-- A schedule that chooses as it would without the panic. -/
def Schedule.IgnoresPanics {α : Type} (schedule : Schedule α) : Prop :=
  ∀ (m : Mishap α) (s t : System α), m.Apart s t → schedule s = schedule t

/-- So does every schedule that sees nothing but which threads can move. -/
theorem Schedule.SeesThreads.ignoresPanics {α : Type} {schedule : Schedule α}
    (h : Schedule.SeesThreads schedule) : Schedule.IgnoresPanics schedule :=
  fun _ s t happart => h s t happart.threads_eq

namespace Mishap

variable {α : Type} {m m' m'' : Mishap α} {s s' s'' t : System α} {a run : Nat}
  {schedule : Schedule α}

/-- Between two systems the body has ended, and the mishap has struck. -/
def Struck (a run : Nat) (s s' : System α) (m : Mishap α) : Prop :=
  ∃ (u : System α) (x : Submission) (w : Nat) (p : Pool α) (b : Task α),
    s.Brings u ∧ u.Occurs ∧ u.phase? x.pool w = some (.executing x.ticket ⟨a⟩ (.past run)) ∧
      u.pools[x.pool]? = some p ∧ u.tasks[a]? = some b ∧
      (u.perform (.worker x.pool w)).Brings s' ∧ m = strike a run u x w p b

/-- The mishap is what it was, and the run has not ended, or it has struck. -/
def Becomes (m : Mishap α) (s s' : System α) (m' : Mishap α) : Prop :=
  m' = m ∧ (s'.HasEnded m.task m.run → s.HasEnded m.task m.run) ∨
    m = ahead m.task m.run ∧ Struck m.task m.run s s' m'

/-- The mishap is still to come exactly as long as the run has not ended. -/
def Known (m : Mishap α) (s : System α) : Prop :=
  m = ahead m.task m.run ↔ ¬s.HasEnded m.task m.run

theorem Struck.ne_ahead (h : Struck a run s s' m) (b n : Nat) : m ≠ ahead b n := by
  obtain ⟨u, x, w, p, c, -, -, -, -, -, -, rfl⟩ := h
  exact fun he => absurd (congrArg Mishap.site he) (by simp [strike, ahead])

theorem Struck.run_eq (h : Struck a run s s' m) : m.task = a ∧ m.run = run := by
  obtain ⟨u, x, w, p, c, -, -, -, -, -, -, rfl⟩ := h
  exact ⟨rfl, rfl⟩

theorem Struck.later (h : Struck a run s s' m) (hs : s'.Brings s'') : Struck a run s s'' m := by
  obtain ⟨u, x, w, p, b, hu, hoccurs, hw, hp, hb, hrest, rfl⟩ := h
  exact ⟨u, x, w, p, b, hu, hoccurs, hw, hp, hb, hrest.trans hs, rfl⟩

/-- The run has ended between the two systems. -/
theorem Struck.hasEnded (h : Struck a run s s' m) (hs : s.Occurs) :
    ¬s.HasEnded a run ∧ s'.HasEnded a run := by
  obtain ⟨u, x, w, p, c, hu, hoccurs, hw, -, -, hrest, -⟩ := h
  have hu' := hoccurs
  obtain ⟨q, hq, -, rfl⟩ := hu'
  obtain ⟨hnot, hended⟩ := hq.hasEnded_move hw
  exact ⟨fun hbefore => hnot (hu.hasEnded hs hbefore),
    hrest.hasEnded (hoccurs.brings (q.system.brings_perform _)) hended⟩

/-- It is the same run all the time. -/
theorem Becomes.run_eq (h : m.Becomes s s' m') : m'.task = m.task ∧ m'.run = m.run := by
  rcases h with ⟨rfl, -⟩ | ⟨-, hstruck⟩
  · exact ⟨rfl, rfl⟩
  · exact hstruck.run_eq

theorem Becomes.same (h : s'.HasEnded m.task m.run → s.HasEnded m.task m.run) :
    m.Becomes s s' m :=
  Or.inl ⟨rfl, h⟩

theorem Becomes.refl (m : Mishap α) (s : System α) : m.Becomes s s m := .same id

theorem Becomes.trans (h : m.Becomes s s' m') (hs : s.Brings s') (h' : m'.Becomes s' s'' m'')
    (hs' : s'.Brings s'') : m.Becomes s s'' m'' := by
  rcases h with ⟨rfl, hsame⟩ | ⟨hahead, u, x, w, p, b, hu, hoccurs, hw, hp, hb, hrest, rfl⟩
  · refine h'.imp (And.imp id (hsame ∘ ·)) fun ⟨hahead, hstruck⟩ => ⟨hahead, ?_⟩
    obtain ⟨u, x, w, p, b, hu, hoccurs, hw, hp, hb, hrest, rfl⟩ := hstruck
    exact ⟨u, x, w, p, b, hs.trans hu, hoccurs, hw, hp, hb, hrest, rfl⟩
  · refine Or.inr ⟨hahead, u, x, w, p, b, hu, hoccurs, hw, hp, hb, hrest.trans hs', ?_⟩
    -- it strikes once
    rcases h' with ⟨rfl, -⟩ | ⟨hagain, -⟩
    · rfl
    · exact absurd (congrArg Mishap.site hagain) (by simp [strike, ahead])

theorem Becomes.known (h : m.Becomes s s' m') (hm : m.Known s) (hs : s.Occurs)
    (hbrings : s.Brings s') : m'.Known s' := by
  rcases h with ⟨rfl, hsame⟩ | ⟨-, hstruck⟩
  · exact hm.trans (not_congr ⟨fun hended => hbrings.hasEnded hs hended, hsame⟩)
  · obtain ⟨htask, hrun⟩ := hstruck.run_eq
    rw [Known, htask, hrun]
    exact iff_of_false (hstruck.ne_ahead _ _) (not_not_intro (hstruck.hasEnded hs).2)

/-- **One move of both.** -/
theorem Apart.move (h : m.Apart s t) (hs : s.Occurs) (hm : m.Known s) (move : Move) :
    ∃ m', m.Becomes s (s.perform move) m' ∧ m'.Apart (s.perform move) (t.perform move) := by
  have hspared {i w run : Nat} {k : Ticket} {job : Job}
      (hw : s.phase? i w = some (.executing k job (.past run))) : m.lost i ≠ some k.number := by
    obtain ⟨p, hi, -⟩ := System.phase?_eq_some.mp hw
    obtain ⟨hnone, -⟩ := hs.unended hw hi
    intro hlost
    rcases h.pool_cases i with ⟨hp, -⟩ | ⟨p', q, hp, -, hpools⟩
    · exact absurd (hi.symm.trans hp) (by simp)
    · obtain rfl := Option.some.inj (hp.symm.trans hi)
      cases hpools with
      | mk r hr =>
        have hresult := hr _ hlost
        rw [show r.results[k.number]? = none from hnone] at hresult
        cases hresult
  by_cases hend : ∃ i w k job, move = .worker i w ∧
      s.phase? i w = some (.executing k job (.past m.run)) ∧ job.task = m.task
  · obtain ⟨i, w, k, ⟨a⟩, rfl, hw, rfl⟩ := hend
    have hahead := hm.mpr fun hended => absurd rfl (hended.left i w k _ _ hw rfl).2
    rw [hahead] at h
    obtain ⟨p, b, hp, hb, happart⟩ := h.strikes hs hw rfl
    exact ⟨_, Or.inr ⟨hahead, s, ⟨i, k⟩, w, p, b, .refl s, hs, hw, hp, hb, .refl _, rfl⟩, happart⟩
  · refine ⟨m, .same fun hended => (hs.hasEnded_perform hended).resolve_right hend,
      h.perform move fun i w k job run hmove hw => ⟨?_, hspared hw⟩⟩
    by_contra hsame
    rw [not_or, not_not, not_not] at hsame
    obtain ⟨hjob, rfl⟩ := hsame
    exact hend ⟨i, w, k, job, hmove, hw, hjob⟩

theorem Apart.settleWithin (h : m.Apart s t) (hs : s.Occurs) (hm : m.Known s)
    (hschedule : Schedule.IgnoresPanics schedule) (fuel : Nat) :
    ∃ m', m.Becomes s (s.settleWithin schedule fuel) m' ∧
      m'.Apart (s.settleWithin schedule fuel) (t.settleWithin schedule fuel) := by
  induction fuel generalizing m s t with
  | zero => exact ⟨m, .refl _ _, h⟩
  | succ fuel ih =>
    unfold System.settleWithin
    rw [hschedule m s t h]
    cases schedule t with
    | none => exact ⟨m, .refl _ _, h⟩
    | some move =>
      have hmoves := s.brings_perform move
      have hsettles := (s.perform move).brings_settleWithin schedule fuel
      obtain ⟨m', hbecomes, hmoved⟩ := h.move hs hm move
      obtain ⟨m'', hbecomes', hsettled⟩ :=
        ih hmoved (hs.brings hmoves) (hbecomes.known hm hs hmoves)
      exact ⟨m'', hbecomes.trans hmoves hbecomes' hsettles, hsettled⟩

/-- **Two systems settle side by side**, and the mishap strikes at most once. -/
theorem Apart.settle (h : m.Apart s t) (hs : s.Occurs) (ht : t.Occurs) (hm : m.Known s)
    (hdiligent : Schedule.Diligent schedule) (hschedule : Schedule.IgnoresPanics schedule) :
    ∃ m', m.Becomes s (s.settle schedule) m' ∧
      m'.Apart (s.settle schedule) (t.settle schedule) := by
  have hfuel := hs.settle_eq hdiligent (Nat.le_add_right s.budget t.budget)
  have hfuel' := ht.settle_eq hdiligent (Nat.le_add_left t.budget s.budget)
  rw [hfuel, hfuel']
  exact h.settleWithin hs hm hschedule _

end Mishap
end WorkerPool
