/-
# Systems without marks

Two systems are the same, but for the marks of records and for the deadline of one join, which only
the first of them has.  `System.forget` takes away what they differ in, so they are such a pair
exactly if it makes them equal.

* An operation or a move does the same to a system as to one where this is forgotten
  (`forget_submit`, `forget_perform`, ...): all but a release never look at a mark, and the
  join looks at its deadline only until it has its answer.  As long as the deadline is not over by
  then (`System.Timely`), two such systems remain such a pair when they settle side by side
  (`forget_settle`).
* A release looks at the marks, but is asked for only when no join of the task is in progress, and
  the marks of its records are then the joins that have returned (`Reachable.isSpent_iff`), which
  are the same in both (`Occurs.canRelease_eq`).
-/
import WorkerPool.Proofs.Containment.Moves
import WorkerPool.Proofs.Deferral.Pool
import WorkerPool.Proofs.Marks

namespace WorkerPool

/-- An entry of a list changes as it shows. -/
theorem map_modify {β γ : Type} {f : β → γ} {g : β → β} {k : γ → γ}
    (h : ∀ b, f (g b) = k (f b)) (l : List β) (i : Nat) :
    (l.modify i g).map f = (l.map f).modify i k := by
  refine List.ext_getElem? fun j => ?_
  rw [List.getElem?_map, List.getElem?_modify, List.getElem?_modify, List.getElem?_map]
  cases l[j]? with
  | none => rfl
  | some b =>
    by_cases hj : i = j
    · simp [hj, h]
    · simp [hj]

/-- Two changes of entries that do not hinder each other. -/
theorem modify_modify {β : Type} {f g : β → β} (h : ∀ b, f (g b) = g (f b)) (l : List β)
    (i j : Nat) : (l.modify i g).modify j f = (l.modify j f).modify i g := by
  refine List.ext_getElem? fun k => ?_
  simp only [List.getElem?_modify]
  cases l[k]? with
  | none => rfl
  | some b =>
    by_cases hi : i = k <;> by_cases hj : j = k <;> simp [hi, hj, h]

/-- The join as if it had no deadline. -/
def Joiner.undated {α : Type} (j : Joiner α) : Joiner α := { j with deadline := none }

theorem Pool.face_unmarked {α : Type} (p : Pool α) : p.unmarked.face = p.face := by
  have hsize : p.unmarked.queue.size = p.queue.size := p.queue.size_unmarked
  rw [Pool.face, Pool.counts, hsize]
  rfl

namespace System

variable {α : Type} {s t : System α} {n : Nat} {σ : Schedule α}

/-! ## 1. Forgetting -/

/-- The system as if nothing had been joined, and join `n` had no deadline. -/
def forget (n : Nat) (s : System α) : System α :=
  { s with
    pools := s.pools.map Pool.unmarked
    joiners := s.joiners.modify n Joiner.undated }

/-- The deadline of join `n` is not over before it has its answer. -/
def Timely (n : Nat) (s : System α) : Prop :=
  ∀ j, s.joiners[n]? = some j → j.answer? = none → j.isDue s.clock = false

theorem forget_forget (s : System α) : (s.forget n).forget n = s.forget n := by
  have hpools : (s.pools.map Pool.unmarked).map Pool.unmarked = s.pools.map Pool.unmarked := by
    rw [List.map_map]
    exact List.map_congr_left fun p _ => p.unmarked_unmarked
  have hjoiners : (s.joiners.modify n Joiner.undated).modify n Joiner.undated =
      s.joiners.modify n Joiner.undated := by
    rw [List.modify_modify_eq]
    rfl
  rw [forget, forget]
  simp only [hpools, hjoiners]

@[simp] theorem tasks_forget (s : System α) : (s.forget n).tasks = s.tasks := rfl

@[simp] theorem clock_forget (s : System α) : (s.forget n).clock = s.clock := rfl

@[simp] theorem refusal_forget (s : System α) : (s.forget n).refusal = s.refusal := rfl

@[simp] theorem submissions_forget (s : System α) (a : Nat) :
    (s.forget n).submissions a = s.submissions a := rfl

theorem pools_forget (s : System α) (i : Nat) :
    (s.forget n).pools[i]? = s.pools[i]?.map Pool.unmarked := List.getElem?_map ..

theorem joiners_forget (s : System α) (m : Nat) :
    (s.forget n).joiners[m]? =
      s.joiners[m]?.map fun j => if m = n then j.undated else j := by
  show (s.joiners.modify n Joiner.undated)[m]? = _
  rw [List.getElem?_modify]
  cases s.joiners[m]? with
  | none => rfl
  | some j =>
    by_cases hm : m = n
    · simp [hm]
    · simp [hm, Ne.symm hm]

theorem record?_forget (s : System α) (x : Submission) :
    (s.forget n).record? x = (s.record? x).map Record.unmark := by
  unfold record?
  rw [pools_forget]
  cases s.pools[x.pool]? with
  | none => rfl
  | some p => exact p.queue.get?_unmarked x.ticket

theorem outcome_forget (s : System α) (x : Submission) :
    (s.forget n).outcome x = s.outcome x := by
  unfold outcome
  rw [pools_forget]
  cases s.pools[x.pool]? <;> rfl

theorem phase?_forget (s : System α) (i w : Nat) : (s.forget n).phase? i w = s.phase? i w := by
  unfold phase?
  rw [pools_forget]
  cases s.pools[i]? <;> rfl

/-- Commands ask for nothing that is forgotten. -/
theorem alike_forget (s : System α) : s.Alike (s.forget n) where
  pools := by
    show _ = (s.pools.map _).map _
    rw [List.map_map]
    exact List.map_congr_left fun p _ => p.face_unmarked.symm
  tasks := rfl
  status x := by
    rw [record?_forget, Option.map_map]
    rfl
  blocked a := by
    have hsame : (s.forget n).blockedRuns a = s.blockedRuns a := List.flatMap_map ..
    rw [hsame]
  clock := rfl
  processors := rfl

theorem alike_of_forget (h : s.forget n = t.forget n) : s.Alike t :=
  (h ▸ s.alike_forget).trans t.alike_forget.symm

/-- The same threads can move. -/
theorem threads_forget (s : System α) : (s.forget n).threads = s.threads := by
  refine Prod.ext ?_ (Prod.ext
    (map_modify_of_eq (g := Joiner.undated) (fun _ => rfl) s.joiners n) rfl)
  show (s.pools.map _).map _ = _
  rw [List.map_map]
  rfl

theorem budget_forget (s : System α) : (s.forget n).budget = s.budget := by
  have hpool (p : Pool α) : poolBudget p.unmarked = poolBudget p := by
    have hsize : p.unmarked.queue.size = p.queue.size := p.queue.size_unmarked
    rw [poolBudget, poolBudget, hsize]
    rfl
  unfold budget
  show (s.pools.map _).foldr _ 0 + 2 * (s.joiners.modify n _).length = _
  rw [List.foldr_map, List.length_modify]
  simp only [hpool]

/-! ## 2. Operations -/

theorem forget_modifyPool {f : Pool α → Pool α} (hf : Pool.IgnoresMarks f) (s : System α)
    (i : Nat) : (s.modifyPool i f).forget n = (s.forget n).modifyPool i f := by
  have hpools := map_modify (fun p => (hf p).symm) s.pools i
  simp only [forget, modifyPool, hpools]

/-- A mark is forgotten. -/
theorem forget_mark (s : System α) (x : Submission) :
    (s.modifyPool x.pool (·.join x.ticket)).forget n = s.forget n := by
  have hpools : (s.pools.modify x.pool (·.join x.ticket)).map Pool.unmarked =
      s.pools.map Pool.unmarked := by
    rw [map_modify (k := id) (fun p => p.unmarked_join x.ticket), List.modify_id]
  simp only [forget, modifyPool, hpools]

theorem forget_setPool (s : System α) (i : Nat) (p : Pool α) :
    (s.modifyPool i fun _ => p).forget n = (s.forget n).modifyPool i fun _ => p.unmarked := by
  have hpools := map_modify (f := Pool.unmarked) (g := fun _ => p) (k := fun _ => p.unmarked)
    (fun _ => rfl) s.pools i
  simp only [forget, modifyPool, hpools]

theorem forget_setJoin (s : System α) (m : Nat) (state : JoinState α) :
    (s.setJoin m state).forget n = (s.forget n).setJoin m state := by
  have hjoiners := modify_modify (f := Joiner.undated) (g := fun j => { j with state })
    (fun _ => rfl) s.joiners m n
  simp only [forget, setJoin, hjoiners]

theorem forget_mapJoins {f : Joiner α → Joiner α} (hf : ∀ j, f j.undated = (f j).undated)
    (s : System α) :
    ({ s with joiners := s.joiners.map f } : System α).forget n =
      { s.forget n with joiners := (s.forget n).joiners.map f } := by
  have hjoiners := map_modify hf s.joiners n
  simp only [forget, hjoiners]

theorem forget_wakeJoiners (s : System α) (x : Submission) :
    (s.wakeJoiners x).forget n = (s.forget n).wakeJoiners x := by
  refine s.forget_mapJoins fun j => ?_
  obtain ⟨task, y, deadline, state⟩ := j
  show (if y = x then _ else _) = Joiner.undated (if y = x then _ else _)
  split
  · cases state <;> rfl
  · rfl

theorem forget_addPool (s : System α) (id : String) (plan : Plan) :
    (s.addPool id plan).forget n = (s.forget n).addPool id plan := by
  have hpools : (s.pools ++ [Pool.create id plan]).map Pool.unmarked =
      s.pools.map Pool.unmarked ++ [Pool.create id plan] := by
    rw [List.map_append, List.map_singleton, Pool.unmarked_create]
  simp only [forget, addPool, hpools]

theorem forget_openGate (s : System α) (a run : Nat) :
    (s.openGate a run).forget n = (s.forget n).openGate a run := by
  have hpools : (s.openGate a run).pools.map Pool.unmarked =
      ((s.forget n).openGate a run).pools := by
    refine List.ext_getElem? fun i => ?_
    rw [List.getElem?_map, openGate_pools, openGate_pools, pools_forget, Option.map_map,
      Option.map_map]
    rfl
  exact congrArg (fun pools : List (Pool α) =>
    ({ s with pools, joiners := s.joiners.modify n Joiner.undated } : System α)) hpools

/-- A submission answers the same. -/
theorem forget_submit (s : System α) (i a : Nat) :
    (s.forget n).submit i a = ((s.submit i a).1, (s.submit i a).2.forget n) := by
  unfold submit
  rw [pools_forget, tasks_forget, refusal_forget]
  cases s.pools[i]? with
  | none => rfl
  | some p =>
    cases s.tasks[a]? with
    | none => rfl
    | some t =>
      have hsubmit := p.submit_unmarked s.refusal ⟨a⟩
      dsimp only [Option.map_some]
      rw [Pool.isActive_unmarked, hsubmit]
      cases p.isActive with
      | false => rfl
      | true =>
        cases t.isLive with
        | false => rfl
        | true =>
          simp only [Bool.not_true, Bool.false_eq_true, if_false]
          obtain ⟨reply, p'⟩ := p.submit s.refusal ⟨a⟩
          dsimp only
          rw [← forget_setPool]
          cases reply <;> rfl

theorem forget_submitById (s : System α) (pool task : String) :
    (s.forget n).submitById pool task =
      ((s.submitById pool task).1, (s.submitById pool task).2.forget n) := by
  have halike := s.alike_forget (n := n)
  unfold submitById
  rw [← halike.findPool?_eq, ← halike.findTask?_eq]
  cases s.findPool? pool with
  | none => rfl
  | some i =>
    cases s.findTask? task with
    | none => rfl
    | some a => exact s.forget_submit i a

/-- A shutdown answers the same. -/
theorem forget_shutdown (s : System α) (i : Nat) :
    (s.forget n).shutdown i = ((s.shutdown i).1, (s.shutdown i).2.forget n) := by
  unfold shutdown
  rw [pools_forget]
  cases s.pools[i]? with
  | none => rfl
  | some p =>
    dsimp only [Option.map_some]
    rw [Pool.isActive_unmarked, p.shutdown_unmarked]
    cases p.isActive with
    | false => rfl
    | true =>
      simp only [if_true]
      rw [forget_setPool]

theorem forget_dropPool (s : System α) (i : Nat) :
    (s.dropPool i).forget n = (s.forget n).dropPool i :=
  s.forget_modifyPool Pool.ignoresMarks_drop i

/-- One section after the other, of several pools. -/
theorem forget_foldl {f : Submission → Pool α → Pool α} (hf : ∀ x, Pool.IgnoresMarks (f x))
    (xs : List Submission) (s : System α) :
    (xs.foldl (fun s x => s.modifyPool x.pool (f x)) s).forget n =
      xs.foldl (fun s x => s.modifyPool x.pool (f x)) (s.forget n) := by
  induction xs generalizing s with
  | nil => rfl
  | cons x rest ih => rw [List.foldl_cons, List.foldl_cons, ih, forget_modifyPool (hf x)]

theorem forget_detach (s : System α) (a : Nat) : (s.detach a).forget n = (s.forget n).detach a := by
  have hdetach (s : System α) (xs : List Submission) :
      ((s.detachAll xs).modifyTask a (·.retire .detached)).forget n =
        ((s.forget n).detachAll xs).modifyTask a (·.retire .detached) :=
    congrArg (·.modifyTask a (·.retire .detached))
      (s.forget_foldl (fun x => Pool.ignoresMarks_detach x.ticket) xs)
  unfold detach
  rw [submissions_forget]
  dsimp only
  split <;> exact hdetach _ _

/-! ## 3. Releases -/

/-- What the joins have been answered. -/
theorem answers_eq (h : s.forget n = t.forget n) :
    s.joiners.map (fun j => (j.task, j.submission, j.answer?)) =
      t.joiners.map fun j => (j.task, j.submission, j.answer?) := by
  have hshows (s : System α) :
      (s.forget n).joiners.map (fun j => (j.task, j.submission, j.answer?)) =
        s.joiners.map fun j => (j.task, j.submission, j.answer?) :=
    map_modify_of_eq (g := Joiner.undated) (fun _ => rfl) s.joiners n
  rw [← hshows s, h, hshows t]

/-- A join of the second system, beside the same join of the first. -/
theorem mem_joiners_of_forget (h : s.forget n = t.forget n) {j : Joiner α} (hj : j ∈ s.joiners) :
    ∃ j' ∈ t.joiners, j'.task = j.task ∧ j'.submission = j.submission ∧
      j'.answer? = j.answer? := by
  have hmem : (j.task, j.submission, j.answer?) ∈
      s.joiners.map fun j => (j.task, j.submission, j.answer?) := List.mem_map.mpr ⟨j, hj, rfl⟩
  rw [answers_eq h] at hmem
  obtain ⟨j', hj', he⟩ := List.mem_map.mp hmem
  obtain ⟨htask, hrest⟩ := Prod.mk.inj he
  obtain ⟨hsubmission, hanswer⟩ := Prod.mk.inj hrest
  exact ⟨j', hj', htask, hsubmission, hanswer⟩

theorem isFree_of_forget (h : s.forget n = t.forget n) {a : Nat} (hfree : s.IsFree a) :
    t.IsFree a := by
  intro j hj hja
  obtain ⟨j', hj', htask, -, hanswer⟩ := mem_joiners_of_forget h.symm hj
  exact hanswer ▸ hfree j' hj' (htask.trans hja)

/-- **A task can be released in both or in none**, when no join of it is in progress: the marks
differ only while a join is. -/
theorem Occurs.canRelease_eq (hs : s.Occurs) (ht : t.Occurs) (h : s.forget n = t.forget n) {a : Nat}
    (hfree : s.IsFree a) : s.canRelease a = t.canRelease a := by
  have hfree' := isFree_of_forget h hfree
  have hsubmissions := (alike_of_forget h).submissions_eq a
  obtain ⟨p, hp, -, rfl⟩ := hs
  obtain ⟨q, hq, -, rfl⟩ := ht
  have hreturned {p q : Program α} (h : p.system.forget n = q.system.forget n) {x : Submission} :
      p.HasReturned x → q.HasReturned x := by
    rintro ⟨j, hj, rfl, answer, ha, hne⟩
    obtain ⟨j', hj', -, hsubmission, hanswer⟩ := mem_joiners_of_forget h hj
    exact ⟨j', hj', hsubmission, answer, hanswer.trans ha, hne⟩
  have hspent {x : Submission} (hx : x ∈ q.system.submissions a) :
      p.system.isSpent x = true ↔ q.system.isSpent x = true := by
    rw [hp.isSpent_iff hfree (hsubmissions ▸ hx), hq.isSpent_iff hfree' hx]
    exact ⟨hreturned h, hreturned h.symm⟩
  rw [Bool.eq_iff_iff, canRelease, canRelease, hsubmissions, List.all_eq_true, List.all_eq_true]
  exact forall₂_congr fun _ hx => hspent hx

theorem forget_release (h : s.forget n = t.forget n) {a : Nat}
    (hcan : s.canRelease a = t.canRelease a) :
    (s.release a).1 = (t.release a).1 ∧ (s.release a).2.forget n = (t.release a).2.forget n := by
  have hsubmissions := (alike_of_forget h).submissions_eq a
  unfold release
  rw [hcan, hsubmissions]
  cases t.canRelease a with
  | true =>
    have hunlink := forget_foldl (α := α) (n := n) (fun x => Pool.ignoresMarks_unlink x.ticket)
      (t.submissions a).reverse
    have hunlinked : (s.unlinkAll (t.submissions a).reverse).forget n =
        (t.unlinkAll (t.submissions a).reverse).forget n :=
      (hunlink s).trans (h ▸ (hunlink t).symm)
    exact ⟨rfl, congrArg (·.modifyTask a (·.retire .released)) hunlinked⟩
  | false => exact ⟨rfl, congrArg (·.note (.releaseRefused (t.submissions a).length)) h⟩

/-! ## 4. Moves -/

theorem forget_enterBody (s : System α) (i w : Nat) (k : Ticket) (job : Job) :
    (s.enterBody i w k job).forget n = (s.forget n).enterBody i w k job := by
  unfold enterBody
  rw [pools_forget, tasks_forget]
  cases s.pools[i]? with
  | none => rfl
  | some p =>
    cases s.tasks[job.task]? with
    | none => rfl
    | some t =>
      let stage := if t.body.gate.has (t.runs + 1) then Stage.atGate (t.runs + 1)
        else Stage.past (t.runs + 1)
      let begun := s.modifyTask job.task fun t' => { t' with runs := t.runs + 1 }
      have hphase := begun.forget_modifyPool (n := n)
        (Pool.ignoresMarks_setPhase w (.executing k job stage)) i
      exact congrArg (fun s : System α =>
        { s with events := .started p.id t.id k.number (t.runs + 1) :: s.events }) hphase

/-- A body gives the same value. -/
theorem forget_evaluate (s : System α) (p : Pool α) (w : Nat) (b : Task α) (run : Nat) :
    (s.forget n).evaluate p.unmarked w b run =
      ((s.evaluate p w b run).1, (s.evaluate p w b run).2.forget n) := by
  have halike := s.alike_forget (n := n)
  unfold evaluate
  cases b.body.kind with
  | observe pool other =>
    dsimp only
    rw [← halike.observePool_eq, ← halike.observeTask_eq]
  | submit on pool other =>
    dsimp only
    cases on.has run with
    | false => rfl
    | true =>
      simp only [if_true]
      rw [forget_submitById]
  | _ => rfl

theorem forget_endBody (s : System α) (i w : Nat) (k : Ticket) (job : Job) (run : Nat) :
    (s.endBody i w k job run).forget n = (s.forget n).endBody i w k job run := by
  unfold endBody
  rw [pools_forget, tasks_forget]
  cases s.pools[i]? with
  | none => rfl
  | some p =>
    cases s.tasks[job.task]? with
    | none => rfl
    | some b =>
      dsimp only [Option.map_some]
      rw [forget_evaluate]
      cases b.body.panics.has run with
      | true =>
        have hended := s.forget_modifyPool (n := n)
          ((Pool.ignoresMarks_setPhase w (.executing k job .over)).comp
            (Pool.ignoresMarks_note (.panicked w k.number))) i
        simp only [if_true, reportPanic_eq]
        exact congrArg (fun s : System α =>
          { s with events := p.panicEvents b.body.payload ++ s.events }) hended
      | false =>
        simp only [Bool.false_eq_true, if_false]
        exact forget_modifyPool ((Pool.ignoresMarks_setPhase w (.executing k job .over)).comp
          (Pool.ignoresMarks_putResult k (s.evaluate p w b run).1)) (s.evaluate p w b run).2 i

theorem forget_finishBody (s : System α) (i w : Nat) (k : Ticket) :
    (s.finishBody i w k).forget n = (s.forget n).finishBody i w k :=
  (forget_wakeJoiners _ _).trans
    (congrArg (·.wakeJoiners ⟨i, k⟩) (s.forget_modifyPool (Pool.ignoresMarks_finish w k) i))

/-- A worker does the same. -/
theorem forget_worker (s : System α) (i w : Nat) :
    (s.perform (.worker i w)).forget n = (s.forget n).perform (.worker i w) := by
  unfold perform
  dsimp only
  rw [phase?_forget]
  rcases s.phase? i w with _ | _ | notified | ⟨k, job, _ | run | run | _⟩ | _
  · rfl
  · exact s.forget_modifyPool (Pool.ignoresMarks_advance w) i
  · cases notified with
    | true => exact s.forget_modifyPool (Pool.ignoresMarks_wake w) i
    | false => rfl
  · exact s.forget_enterBody i w k job
  · rfl
  · exact s.forget_endBody i w k job run
  · exact s.forget_finishBody i w k
  · rfl

/-- A shutdown that looks again does the same. -/
theorem forget_await (s : System α) (i : Nat) :
    (s.perform (.shutdown i)).forget n = (s.forget n).perform (.shutdown i) := by
  refine s.forget_modifyPool (fun p => ?_) i
  show (if p.standing.isWoken then _ else _) = Pool.unmarked (if p.standing.isWoken then _ else _)
  split
  · exact Pool.ignoresMarks_awaitWorkers p
  · rfl

/-- A join looks at its record, and marks it in its own time. -/
theorem forget_lookAgain {m : Nat}
    (hdue : ∀ j, s.joiners[m]? = some j → m = n → j.isDue s.clock = false) :
    ((s.forget n).lookAgain m).forget n = (s.lookAgain m).forget n := by
  cases hj : s.joiners[m]? with
  | none =>
    have hj' : (s.forget n).joiners[m]? = none := by rw [joiners_forget, hj]; rfl
    simp only [lookAgain, hj, hj', forget_forget]
  | some j =>
    obtain ⟨j', hj', hsubmission, hsame⟩ : ∃ j', (s.forget n).joiners[m]? = some j' ∧
        j'.submission = j.submission ∧ j'.isDue s.clock = j.isDue s.clock := by
      refine ⟨_, (s.joiners_forget m).trans (congrArg _ hj), ?_⟩
      split
      · next hm => exact ⟨rfl, (hdue j hj hm).symm⟩
      · exact ⟨rfl, rfl⟩
    have hset (s' : System α) (hs' : s'.forget n = s.forget n) (state : JoinState α) :
        (s'.setJoin m state).forget n = (s.forget n).setJoin m state := by
      rw [forget_setJoin, hs']
    have hmark := s.forget_mark (n := n) j.submission
    have hmark' := ((s.forget n).forget_mark (n := n) j.submission).trans s.forget_forget
    simp only [lookAgain, hj, hj', hsubmission, clock_forget, hsame, record?_forget, outcome_forget]
    cases s.record? j.submission with
    | none => exact (hset _ s.forget_forget _).trans (hset s rfl _).symm
    | some r =>
      show forget n (if r.status = .finished then _ else _) = _
      dsimp only
      split
      · exact (hset _ hmark' _).trans (hset _ hmark _).symm
      · split
        · exact (hset _ s.forget_forget _).trans (hset s rfl _).symm
        · exact (hset _ s.forget_forget _).trans (hset s rfl _).symm

/-- The wait of a join begins: whether it marks its record or not, it looks at it next. -/
theorem startWait_eq (s : System α) (m : Nat) :
    ∃ s' : System α, s.startWait m = s'.lookAgain m ∧ s'.forget n = s.forget n ∧
      s'.joiners = s.joiners ∧ s'.clock = s.clock := by
  unfold startWait
  cases hj : s.joiners[m]? with
  | none => exact ⟨s, by simp only [lookAgain, hj], rfl, rfl, rfl⟩
  | some j =>
    dsimp only
    split
    · exact ⟨_, rfl, s.forget_mark j.submission, rfl, rfl⟩
    · exact ⟨s, rfl, rfl, rfl, rfl⟩

theorem forget_startWait {m : Nat}
    (hdue : ∀ j, s.joiners[m]? = some j → m = n → j.isDue s.clock = false) :
    ((s.forget n).startWait m).forget n = (s.startWait m).forget n := by
  obtain ⟨u, he, hu, hjoiners, hclock⟩ := s.startWait_eq (n := n) m
  obtain ⟨v, he', hv, hjoiners', hclock'⟩ := (s.forget n).startWait_eq (n := n) m
  rw [forget_forget] at hv
  have hdue' : ∀ j, u.joiners[m]? = some j → m = n → j.isDue u.clock = false := by
    rw [hjoiners, hclock]
    exact hdue
  have hdue'' : ∀ j, v.joiners[m]? = some j → m = n → j.isDue v.clock = false := by
    rw [hjoiners', joiners_forget]
    rintro j' hj' rfl
    obtain ⟨j, -, rfl⟩ := Option.map_eq_some_iff.mp hj'
    rw [if_pos rfl]
    rfl
  rw [he, he', ← forget_lookAgain hdue', ← forget_lookAgain hdue'', hu, hv]

/-- **A move does the same**, as long as the deadline is not over before its join has its answer. -/
theorem forget_perform (h : s.Timely n) (m : Move) :
    ((s.forget n).perform m).forget n = (s.perform m).forget n := by
  cases m with
  | worker i w => rw [← forget_worker, forget_forget]
  | shutdown i => rw [← forget_await, forget_forget]
  | joiner m =>
    unfold perform
    dsimp only
    have hstate : (s.forget n).joinState? m = s.joinState? m := by
      unfold joinState?
      rw [joiners_forget]
      cases s.joiners[m]? with
      | none => rfl
      | some j =>
        show some (if m = n then j.undated else j).state = some j.state
        split <;> rfl
    rw [hstate]
    cases hj : s.joinState? m with
    | none => exact s.forget_forget
    | some state =>
      obtain ⟨j, hm, rfl⟩ := Option.map_eq_some_iff.mp ((Option.map_eq_bind ..).trans hj)
      have hdue (hp : j.answer? = none) : ∀ j', s.joiners[m]? = some j' → m = n →
          j'.isDue s.clock = false := by
        rintro j' hj' rfl
        obtain rfl := Option.some.inj (hm.symm.trans hj')
        exact h j hm hp
      cases hstate : j.state with
      | called => exact forget_startWait (hdue (by simp [Joiner.answer?, hstate]))
      | waiting woken =>
        cases woken with
        | true => exact forget_lookAgain (hdue (by simp [Joiner.answer?, hstate]))
        | false => exact s.forget_forget
      | answered answer => exact s.forget_forget

/-! ## 5. Settling side by side -/

theorem Timely.perform (h : s.Timely n) (hs : s.Occurs) (m : Move) : (s.perform m).Timely n := by
  obtain ⟨hlength, hclock⟩ := s.perform_untimed m
  intro j' hj' hp
  obtain ⟨hlt, -⟩ := List.getElem?_eq_some_iff.mp hj'
  obtain ⟨j'', hj'', -, hdeadline, hanswer⟩ :=
    hs.joiner (s.brings_perform m) (List.getElem?_eq_getElem (hlength ▸ hlt))
  obtain rfl := Option.some.inj (hj''.symm.trans hj')
  have hpending : s.joiners[n].answer? = none := by
    cases ha : s.joiners[n].answer? with
    | none => rfl
    | some answer => exact absurd ((hanswer answer ha).symm.trans hp) (by simp)
  have hdue := h _ (List.getElem?_eq_getElem (hlength ▸ hlt)) hpending
  rw [hclock]
  unfold Joiner.isDue at hdue ⊢
  rwa [hdeadline]

theorem forget_settleWithin (hsees : Schedule.SeesThreads σ) (hs : s.Occurs) (ht : t.Occurs)
    (hst : s.Timely n) (htt : t.Timely n) (h : s.forget n = t.forget n) (fuel : Nat) :
    (s.settleWithin σ fuel).forget n = (t.settleWithin σ fuel).forget n := by
  induction fuel generalizing s t with
  | zero => exact h
  | succ fuel ih =>
    have hchoice : σ s = σ t :=
      hsees s t (s.threads_forget.symm.trans (h ▸ t.threads_forget))
    unfold settleWithin
    rw [hchoice]
    cases σ t with
    | none => exact h
    | some m =>
      have hmoved : (s.perform m).forget n = (t.perform m).forget n := by
        rw [← forget_perform hst, h, forget_perform htt]
      exact ih (hs.brings (s.brings_perform m)) (ht.brings (t.brings_perform m))
        (hst.perform hs m) (htt.perform ht m) hmoved

/-- **Two systems that are the same but for marks and a deadline settle to two such systems**, as
long as the deadline is not over before its join has its answer. -/
theorem forget_settle (hsees : Schedule.SeesThreads σ) (hs : s.Occurs) (ht : t.Occurs)
    (hst : s.Timely n) (htt : t.Timely n) (h : s.forget n = t.forget n) :
    (s.settle σ).forget n = (t.settle σ).forget n := by
  have hbudget : s.budget = t.budget := by rw [← s.budget_forget (n := n), h, budget_forget]
  unfold settle
  rw [hbudget]
  exact forget_settleWithin hsees hs ht hst htt h t.budget

end System
end WorkerPool
