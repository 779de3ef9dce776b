/-
# The systems that occur

Operations on a system are runs of a program (`System.Brings`), so what is true of every reachable
program is true of every system that operations lead to (`System.Occurs`).  Tasks and joins stay
where they are, time passes only by `elapse`, and a join that was answered stays answered; at rest,
a join that is not answered waits for a record that has not finished (`Occurs.waits`).
-/
import WorkerPool.Proofs.Operations
import WorkerPool.Proofs.Settling
import WorkerPool.Proofs.Wakeups

namespace WorkerPool

/-! ## 1. What a run leaves of tasks and joins -/

/-- The same task later: only its runs, its submissions and its fate have changed. -/
structure Task.Later {α : Type} (t t' : Task α) : Prop where
  id_eq : t'.id = t.id
  body_eq : t'.body = t.body
  runs_le : t.runs ≤ t'.runs

namespace System

variable {α : Type} {s s' s'' : System α}

/-- Every task of `s` is still in its place in `s'`. -/
def TasksStay (s s' : System α) : Prop :=
  ∀ (a : Nat) (t : Task α), s.tasks[a]? = some t →
    ∃ t' : Task α, s'.tasks[a]? = some t' ∧ t.Later t'

theorem TasksStay.of_tasks_eq (h : s'.tasks = s.tasks) : s.TasksStay s' :=
  fun _ t ht => ⟨t, by rwa [h], rfl, rfl, Nat.le_refl _⟩

theorem TasksStay.trans (h : s.TasksStay s') (h' : s'.TasksStay s'') : s.TasksStay s'' := by
  intro a t ht
  obtain ⟨t', ht', hlater⟩ := h a t ht
  obtain ⟨t'', ht'', hlater'⟩ := h' a t' ht'
  exact ⟨t'', ht'', hlater'.id_eq.trans hlater.id_eq, hlater'.body_eq.trans hlater.body_eq,
    Nat.le_trans hlater.runs_le hlater'.runs_le⟩

theorem tasksStay_modifyTask (s : System α) (a : Nat) {f : Task α → Task α}
    (hf : ∀ t, s.tasks[a]? = some t → t.Later (f t)) : s.TasksStay (s.modifyTask a f) := by
  intro b t ht
  rw [tasks_modifyTask, ht]
  split
  · next hb => exact ⟨f t, rfl, hf t (hb ▸ ht)⟩
  · exact ⟨t, rfl, rfl, rfl, Nat.le_refl _⟩

theorem tasksStay_submit (s : System α) (i a : Nat) : s.TasksStay (s.submit i a).2 := by
  rcases s.submit_cases i a with ⟨-, he⟩ | ⟨pool, t, -, -, -, ⟨e, -, -, he⟩ | ⟨k, -, -, he⟩⟩ <;>
    rw [he]
  · exact .of_tasks_eq rfl
  · exact .of_tasks_eq rfl
  · exact tasksStay_modifyTask (s.modifyPool i _) a fun t _ => ⟨rfl, rfl, Nat.le_refl _⟩

theorem tasksStay_enterBody (s : System α) (i w : Nat) (k : Ticket) (job : Job) :
    s.TasksStay (s.enterBody i w k job) := by
  unfold enterBody
  split
  · next p t _ ht =>
    refine tasksStay_modifyTask s job.task fun t' ht' => ⟨rfl, rfl, ?_⟩
    obtain rfl := Option.some.inj (ht'.symm.trans ht)
    exact Nat.le_succ _
  · exact .of_tasks_eq rfl

theorem tasksStay_endBody (s : System α) (i w : Nat) (k : Ticket) (job : Job) (run : Nat) :
    s.TasksStay (s.endBody i w k job run) := by
  unfold endBody
  split
  · next p t _ _ =>
    split
    · rw [reportPanic_eq]
      exact .of_tasks_eq rfl
    · have hevaluate : s.TasksStay (s.evaluate p w t run).2 := by
        rcases s.evaluate_cases p w t run with he | ⟨j, a, he⟩ <;> rw [he]
        · exact .of_tasks_eq rfl
        · exact s.tasksStay_submit j a
      exact hevaluate.trans (.of_tasks_eq rfl)
  · exact .of_tasks_eq rfl

theorem Works.tasksStay {i w : Nat} (h : s.Works i w s') : s.TasksStay s' := by
  cases h with
  | idle => exact .of_tasks_eq rfl
  | look hw hlooks => exact .of_tasks_eq rfl
  | enter hw => exact s.tasksStay_enterBody _ _ _ _
  | leave hw => exact s.tasksStay_endBody _ _ _ _ _
  | finish hw => exact .of_tasks_eq rfl

theorem tasksStay_perform (s : System α) (m : Move) : s.TasksStay (s.perform m) := by
  cases m with
  | worker i w => exact (s.works_worker i w).tasksStay
  | joiner n =>
    obtain ⟨_, _, he⟩ := (s.waits_joiner n).frame
    rw [he]
    exact .of_tasks_eq rfl
  | shutdown i => exact .of_tasks_eq rfl

theorem tasksStay_retire (s : System α) (a : Nat) (fate : Fate) :
    s.TasksStay (s.modifyTask a fun t => t.retire fate) := by
  refine tasksStay_modifyTask s a fun t _ => ?_
  unfold Task.retire
  split <;> exact ⟨rfl, rfl, Nat.le_refl _⟩

end System

namespace Program

variable {α : Type} {p q : Program α}

theorem tasksStay_act (p : Program α) (a : Action α) : p.system.TasksStay (p.act a).system := by
  cases a with
  | addTask id body =>
    intro b t ht
    obtain ⟨hlt, -⟩ := List.getElem?_eq_some_iff.mp ht
    exact ⟨t, (List.getElem?_append_left hlt).trans ht, rfl, rfl, Nat.le_refl _⟩
  | submit i a => exact p.system.tasksStay_submit i a
  | join a limit => exact .of_tasks_eq (p.system.tasks_call a limit)
  | release a =>
    unfold act
    dsimp only
    split
    · exact p.system.tasksStay_retire a .released
    · exact .of_tasks_eq rfl
  | detach a =>
    unfold act
    dsimp only
    split
    · exact p.system.tasksStay_retire a .detached
    · exact System.tasksStay_retire (p.system.note _) a .detached
  | giveBack l =>
    obtain ⟨_, he⟩ := p.giveBack_frame l
    exact .of_tasks_eq (by rw [he])
  | shutdown i => exact .of_tasks_eq (p.system.tasks_shutdown i)
  | move m => exact p.system.tasksStay_perform m
  | addPool _ _ => exact .of_tasks_eq rfl
  | dropPool _ => exact .of_tasks_eq rfl
  | refuseThreads _ => exact .of_tasks_eq rfl
  | openGate _ _ => exact .of_tasks_eq rfl
  | elapse _ => exact .of_tasks_eq rfl

/-- **Tasks stay**, with their ids and their bodies, and their runs only grow in number. -/
theorem Leads.tasksStay (h : Leads p q) : p.system.TasksStay q.system := by
  induction h with
  | refl => exact .of_tasks_eq rfl
  | step a _ _ ih => exact ih.trans (tasksStay_act _ a)

/-- An answered join stays so. -/
theorem Leads.answered (hp : p.Reachable) (h : Leads p q) {n : Nat} {j : Joiner α}
    {answer : Except Failure (Value α)} (hj : p.system.joiners[n]? = some j)
    (ha : j.answer? = some answer) :
    ∃ j', q.system.joiners[n]? = some j' ∧ j'.answer? = some answer := by
  have hticks := h.ticks hp
  have hj : p.ledger.joiner n = some j := hj
  show ∃ j', q.ledger.joiner n = some j' ∧ _
  generalize q.ledger = g at hticks
  induction hticks with
  | refl => exact ⟨j, hj, ha⟩
  | @tail g g' _ ht ih =>
    obtain ⟨j', hj', ha'⟩ := ih
    cases ht with
    | elapse ms =>
      refine ⟨_, Option.map_eq_some_iff.mpr ⟨j', hj', rfl⟩, ?_⟩
      split <;> simpa
    | finish _ _ =>
      refine ⟨_, Option.map_eq_some_iff.mpr ⟨j', hj', rfl⟩, ?_⟩
      split <;> simpa
    | @call a m held x deadline hh hlive hx' hm =>
      have hne : n ≠ m := by
        rintro rfl
        exact absurd (hj'.symm.trans hm) (by simp)
      exact ⟨j', (Function.update_of_ne hne _ _).trans hj', ha'⟩
    | @look m old state hold hp hs =>
      by_cases hne : n = m
      · -- it would not look any more
        subst hne
        obtain rfl := Option.some.inj (hj'.symm.trans hold)
        exact absurd (ha'.symm.trans hp) (by simp)
      · exact ⟨j', (Function.update_of_ne hne _ _).trans hj', ha'⟩
    | _ => exact ⟨j', hj', ha'⟩

end Program

/-! ## 2. Operations bring a system to another -/

namespace System

variable {α : Type} {s s' s'' : System α}

/-- The system of a program that is reached, with nothing on its way back. -/
def Occurs (s : System α) : Prop :=
  ∃ p : Program α, p.Reachable ∧ p.leaving = [] ∧ p.system = s

/-- Some run takes a program with the system `s` to one with the system `s'`. -/
def Brings (s s' : System α) : Prop :=
  ∀ p : Program α, p.system = s → p.leaving = [] → p.Makes s'

theorem Brings.refl (s : System α) : s.Brings s :=
  fun p hp hnone => ⟨p, .refl, hp, hnone⟩

theorem Brings.trans (h : s.Brings s') (h' : s'.Brings s'') : s.Brings s'' :=
  fun p hp hnone => (h p hp hnone).trans h'

theorem Occurs.brings (hs : s.Occurs) (h : s.Brings s') : s'.Occurs := by
  obtain ⟨p, hp, hnone, rfl⟩ := hs
  obtain ⟨q, hq, hs', hnone'⟩ := h p rfl hnone
  exact ⟨q, hp.leads hq, hnone', hs'⟩

theorem Brings.tasksStay (h : s.Brings s') : s.TasksStay s' := by
  obtain ⟨q, hq, rfl, -⟩ := h ⟨s, [], []⟩ rfl rfl
  exact hq.tasksStay

/-- An action that is permitted to all and keeps nothing back. -/
theorem brings_act {a : Action α} {f : System α → System α}
    (hact : ∀ p : Program α, p.act a = p.onSystem f) (hpermits : ∀ p : Program α, p.Permits a) :
    s.Brings (f s) := by
  rintro p rfl hnone
  refine ⟨p.act a, .step a .refl (hpermits p), ?_, ?_⟩
  · rw [hact]
    rfl
  · rw [hact]
    exact hnone

theorem brings_addPool (s : System α) (id : String) (plan : Plan) : s.Brings (s.addPool id plan) :=
  brings_act (a := .addPool id plan) (f := (·.addPool id plan)) (fun _ => rfl) fun _ => trivial

theorem brings_addTask (s : System α) (id : String) (body : Body α) :
    s.Brings (s.addTask id body) :=
  brings_act (a := .addTask id body) (f := (·.addTask id body)) (fun _ => rfl) fun _ => trivial

theorem brings_submit (s : System α) (i a : Nat) : s.Brings (s.submit i a).2 :=
  brings_act (a := .submit i a) (f := fun s => (s.submit i a).2) (fun _ => rfl) fun _ => trivial

theorem brings_submitById (s : System α) (pool task : String) :
    s.Brings (s.submitById pool task).2 := by
  unfold submitById
  split
  · exact s.brings_submit _ _
  · exact .refl s
  · exact .refl s

theorem brings_shutdown (s : System α) (i : Nat) : s.Brings (s.shutdown i).2 :=
  brings_act (a := .shutdown i) (f := fun s => (s.shutdown i).2) (fun _ => rfl) fun _ => trivial

theorem brings_dropPool (s : System α) (i : Nat) : s.Brings (s.dropPool i) :=
  brings_act (a := .dropPool i) (f := (·.dropPool i)) (fun _ => rfl) fun _ => trivial

theorem brings_refuseThreads (s : System α) (refusal : Option String) :
    s.Brings { s with refusal } :=
  brings_act (a := .refuseThreads refusal) (f := ({ · with refusal })) (fun _ => rfl)
    fun _ => trivial

theorem brings_openGate (s : System α) (a run : Nat) : s.Brings (s.openGate a run) :=
  brings_act (a := .openGate a run) (f := (·.openGate a run)) (fun _ => rfl) fun _ => trivial

theorem brings_elapse (s : System α) (ms : Nat) : s.Brings (s.elapse ms) :=
  brings_act (a := .elapse ms) (f := (·.elapse ms)) (fun _ => rfl) fun _ => trivial

theorem brings_perform (s : System α) (m : Move) : s.Brings (s.perform m) := by
  rintro p rfl hnone
  exact Program.makes_move hnone m

theorem brings_settleWithin (s : System α) (schedule : Schedule α) (fuel : Nat) :
    s.Brings (s.settleWithin schedule fuel) := by
  rintro p rfl hnone
  exact Program.makes_settleWithin schedule fuel hnone

theorem brings_settle (s : System α) (schedule : Schedule α) : s.Brings (s.settle schedule) :=
  s.brings_settleWithin schedule s.budget

theorem brings_joinFor (s : System α) (a : Nat) (limit : Option Patience) :
    s.Brings (s.joinFor a limit).2 := by
  rintro p rfl hnone
  exact Program.makes_joinFor a limit hnone

/-- No join of the task is in progress. -/
def IsFree (s : System α) (a : Nat) : Prop := ∀ j ∈ s.joiners, j.task = a → j.answer?.isSome

theorem brings_release {a : Nat} (hfree : s.IsFree a) : s.Brings (s.release a).2 := by
  rintro p rfl hnone
  exact Program.makes_release hfree hnone

theorem brings_detach {a : Nat} (hfree : s.IsFree a) : s.Brings (s.detach a) := by
  rintro p rfl hnone
  exact Program.makes_detach hfree hnone

/-! What is known of a program that is reached is known of its system. -/

theorem Occurs.poolsSound (h : s.Occurs) : s.PoolsSound := by
  obtain ⟨p, hp, -, rfl⟩ := h
  exact hp.poolsSound

theorem Occurs.rests_settle (h : s.Occurs) {schedule : Schedule α}
    (hschedule : Schedule.Diligent schedule) : (s.settle schedule).Rests := by
  obtain ⟨p, hp, -, rfl⟩ := h
  exact hp.rests_settle hschedule

/-- More fuel than the budget does not matter. -/
theorem Occurs.settle_eq (h : s.Occurs) {schedule : Schedule α}
    (hschedule : Schedule.Diligent schedule) {fuel : Nat} (hle : s.budget ≤ fuel) :
    s.settle schedule = s.settleWithin schedule fuel := by
  obtain ⟨d, rfl⟩ := Nat.exists_eq_add_of_le hle
  exact ((h.rests_settle hschedule).settleWithin_eq hschedule d).symm.trans
    (s.settleWithin_add schedule s.budget d).symm

/-- When nobody can move, a join in progress waits untold, its time is not over, and its record has
not finished. -/
theorem Occurs.waits (h : s.Occurs) (hrests : s.Rests) {n : Nat} {j : Joiner α}
    (hj : s.joiners[n]? = some j) (hp : j.answer? = none) :
    j.state = .waiting false ∧ j.isDue s.clock = false ∧
      ∃ r, s.record? j.submission = some r ∧ r.status ≠ .finished := by
  obtain ⟨p, hreach, -, rfl⟩ := h
  have hasleep : j.state = .waiting false := by
    have hnot := hrests (.joiner n)
    rw [ready, hj, Option.any_some] at hnot
    rcases hs : j.state with _ | told | answer
    · simp [Joiner.isWoken, hs] at hnot
    · cases told with
      | false => rfl
      | true => simp [Joiner.isWoken, hs] at hnot
    · simp [Joiner.answer?, hs] at hp
  exact ⟨hasleep, (hreach.prompt n j hj).patient hasleep,
    hreach.record_of_asleep (List.mem_of_getElem? hj) hasleep⟩

/-- A join keeps its place and its deadline, and its answer once there is one. -/
theorem Occurs.joiner (h : s.Occurs) (hs : s.Brings s') {n : Nat} {j : Joiner α}
    (hj : s.joiners[n]? = some j) :
    ∃ j', s'.joiners[n]? = some j' ∧ j'.task = j.task ∧ j'.deadline = j.deadline ∧
      ∀ answer, j.answer? = some answer → j'.answer? = some answer := by
  obtain ⟨p, hreach, hnone, rfl⟩ := h
  obtain ⟨q, hq, rfl, -⟩ := hs p rfl hnone
  obtain ⟨j', hj', htask, -, hdeadline⟩ := hq.joiner hreach hj
  refine ⟨j', hj', htask, hdeadline, fun answer ha => ?_⟩
  obtain ⟨j'', hj'', ha'⟩ := hq.answered hreach hj ha
  rwa [Option.some.inj (hj'.symm.trans hj'')]

/-! ## 3. The joins and the clock -/

/-- A submission concerns neither joins nor the clock. -/
theorem submit_untimed (s : System α) (i a : Nat) :
    (s.submit i a).2.joiners = s.joiners ∧ (s.submit i a).2.clock = s.clock := by
  obtain ⟨_, _, he⟩ := s.submit_frame i a
  rw [he]
  exact ⟨rfl, rfl⟩

theorem shutdown_untimed (s : System α) (i : Nat) :
    (s.shutdown i).2.joiners = s.joiners ∧ (s.shutdown i).2.clock = s.clock := by
  obtain ⟨_, he⟩ := s.shutdown_frame i
  rw [he]
  exact ⟨rfl, rfl⟩

theorem Works.length_joiners {i w : Nat} (h : s.Works i w s') :
    s'.joiners.length = s.joiners.length := by
  cases h with
  | idle => rfl
  | look hw hlooks => rfl
  | enter hw =>
    obtain ⟨_, _, _, he⟩ := s.enterBody_frame i w _ _
    rw [he]
  | leave hw =>
    obtain ⟨_, _, _, he⟩ := s.endBody_frame i w _ _ _
    rw [he]
  | finish hw => exact List.length_map _

theorem Waits.length_joiners {n : Nat} (h : s.Waits n s') :
    s'.joiners.length = s.joiners.length := by
  induction h with
  | refl => rfl
  | mark _ _ ih => exact ih
  | turn _ _ ih => exact (List.length_modify ..).trans ih

/-- No move takes time, or begins a join. -/
theorem perform_untimed (s : System α) (m : Move) :
    (s.perform m).joiners.length = s.joiners.length ∧ (s.perform m).clock = s.clock := by
  refine ⟨?_, ?_⟩
  · cases m with
    | worker i w => exact (s.works_worker i w).length_joiners
    | joiner n => exact (s.waits_joiner n).length_joiners
    | shutdown i => rfl
  · obtain ⟨_, _, _, _, he⟩ := s.perform_frame m
    rw [he]

theorem settleWithin_untimed (s : System α) (schedule : Schedule α) (fuel : Nat) :
    (s.settleWithin schedule fuel).joiners.length = s.joiners.length ∧
      (s.settleWithin schedule fuel).clock = s.clock := by
  induction fuel generalizing s with
  | zero => exact ⟨rfl, rfl⟩
  | succ fuel ih =>
    unfold settleWithin
    split
    · exact ⟨rfl, rfl⟩
    · next m _ =>
      obtain ⟨hjoiners, hclock⟩ := s.perform_untimed m
      obtain ⟨hjoiners', hclock'⟩ := ih (s.perform m)
      exact ⟨hjoiners'.trans hjoiners, hclock'.trans hclock⟩

theorem settle_untimed (s : System α) (schedule : Schedule α) :
    (s.settle schedule).joiners.length = s.joiners.length ∧
      (s.settle schedule).clock = s.clock :=
  s.settleWithin_untimed schedule s.budget

end System
end WorkerPool
