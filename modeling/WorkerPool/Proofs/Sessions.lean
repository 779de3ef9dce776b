/-
# A session is a run, and rests between its commands

Every command of a script is made of operations of its system, and those are runs of a program
(`System.Brings`); the one thing that a caller may not do, to end the use of a task while a join of
it is in progress, no command does either, because the joins in progress are the ones that a session
keeps as pending (`Session.Attended`).  So the system of a session is one that a program reaches,
and as it settles after each command, it rests before the next one (`Session.Settled`).
-/
import WorkerPool.Proofs.AtRest
import WorkerPool.Script.Report

namespace WorkerPool

namespace Session

variable {α : Type} {S R : Session α} {schedule : Schedule α}

/-! ## 1. Between two commands -/

/-- The pending joins are there, and each join in progress is one of them, under the id of its
task. -/
structure Attended (pending : List PendingJoin) (s : System α) : Prop where
  kept : ∀ (n : Nat) (j : Joiner α), s.joiners[n]? = some j → j.answer? = none →
    ∃ e ∈ pending, e.joiner = n ∧ ∃ t : Task α, s.tasks[j.task]? = some t ∧ t.id = e.task
  listed : ∀ e ∈ pending, e.joiner < s.joiners.length

/-- A session between two commands. -/
structure Settled (S : Session α) : Prop where
  occurs : S.system.Occurs
  rests : S.system.Rests
  attended : Attended S.pending S.system

/-- What a command may lead to: a run, and joins in progress that are kept. -/
def Leads (S R : Session α) : Prop := S.system.Brings R.system ∧ Attended R.pending R.system

/-- The session after a list of commands. -/
def after (S : Session α) (schedule : Schedule α) (commands : List (Command α)) : Session α :=
  commands.foldl (fun S c => (step schedule S c).2) S

theorem Settled.start (processors : Nat) : (start processors : Session α).Settled where
  occurs := ⟨.start processors, ⟨processors, .refl⟩, rfl, rfl⟩
  rests := by
    intro m
    cases m <;> simp [System.ready, System.phase?, Session.start, System.start]
  attended := by
    refine ⟨fun n j hj => ?_, fun e he => absurd he List.not_mem_nil⟩
    simp [Session.start, System.start] at hj

/-- The joins that were in progress before are still kept, and so are the new ones. -/
theorem Attended.brings {s s' : System α} {pending pending' : List PendingJoin}
    (h : Attended pending s) (hs : s.Occurs) (hbrings : s.Brings s') (hsub : pending ⊆ pending')
    (hlisted : ∀ e ∈ pending', e ∈ pending ∨ e.joiner < s'.joiners.length)
    (hnew : ∀ n j, s.joiners.length ≤ n → s'.joiners[n]? = some j → j.answer? = none →
      ∃ e ∈ pending', e.joiner = n ∧ ∃ t : Task α, s'.tasks[j.task]? = some t ∧ t.id = e.task) :
    Attended pending' s' := by
  refine ⟨fun n j' hj' hp => ?_, fun e he => ?_⟩
  · rcases Nat.lt_or_ge n s.joiners.length with hn | hn
    · obtain ⟨j, hj⟩ : ∃ j, s.joiners[n]? = some j := ⟨_, List.getElem?_eq_getElem hn⟩
      obtain ⟨j'', hj'', htask, -, hanswer⟩ := hs.joiner hbrings hj
      obtain rfl := Option.some.inj (hj''.symm.trans hj')
      have hpending : j.answer? = none := by
        cases ha : j.answer? with
        | none => rfl
        | some answer => exact absurd (hp.symm.trans (hanswer answer ha)) (by simp)
      obtain ⟨e, he, hen, t, ht, hid⟩ := h.kept n j hj hpending
      obtain ⟨t', ht', hlater⟩ := hbrings.tasksStay j.task t ht
      exact ⟨e, hsub he, hen, t', htask ▸ ht', hlater.id_eq.trans hid⟩
    · exact hnew n j' hn hj' hp
  · rcases hlisted e he with he | hlt
    · obtain ⟨j', hj', -⟩ := hs.joiner hbrings (List.getElem?_eq_getElem (h.listed e he))
      exact (List.getElem?_eq_some_iff.mp hj').1
    · exact hlt

theorem Attended.brings_same {s s' : System α} {pending : List PendingJoin}
    (h : Attended pending s) (hs : s.Occurs) (hbrings : s.Brings s')
    (hlength : s'.joiners.length = s.joiners.length) : Attended pending s' := by
  refine h.brings hs hbrings (fun _ he => he) (fun _ he => Or.inl he) fun n j hn hj => ?_
  rw [← hlength] at hn
  exact absurd (hj.symm.trans (List.getElem?_eq_none hn)) (by simp)

/-- What a command has led to settles. -/
theorem Settled.settle (h : S.Settled) (hschedule : Schedule.Diligent schedule)
    (hR : S.Leads R) : (R.settle schedule).Settled where
  occurs := (h.occurs.brings hR.1).brings (R.system.brings_settle schedule)
  rests := (h.occurs.brings hR.1).rests_settle hschedule
  attended := hR.2.brings_same (h.occurs.brings hR.1) (R.system.brings_settle schedule)
    (R.system.settle_untimed schedule).1

theorem Settled.leads_refl (h : S.Settled) : S.Leads S := ⟨.refl _, h.attended⟩

/-- An operation that begins no join. -/
theorem Settled.leads_system (h : S.Settled) {s : System α} (hs : S.system.Brings s)
    (hlength : s.joiners.length = S.system.joiners.length) : S.Leads { S with system := s } :=
  ⟨hs, h.attended.brings_same h.occurs hs hlength⟩

/-! ## 2. Joins -/

theorem findTask?_eq_some {s : System α} {id : String} {a : Nat} (h : s.findTask? id = some a) :
    ∃ t : Task α, s.tasks[a]? = some t ∧ t.id = id ∧ t.isLive = true := by
  obtain ⟨hlt, hfound, -⟩ := List.findIdx?_eq_some_iff_getElem.mp h
  obtain ⟨hid, hlive⟩ := (Bool.and_eq_true _ _).mp hfound
  exact ⟨_, List.getElem?_eq_getElem hlt, eq_of_beq hid, hlive⟩

/-- A join that has begun, and let the system settle: it is the last of the list. -/
theorem Settled.begun (h : S.Settled) (schedule : Schedule α) {a : Nat}
    {limit : Option Patience} {n : Nat} (hn : (S.system.joinFor a limit).1 = .ok n) :
    let s := (S.system.joinFor a limit).2.settle schedule
    n = S.system.joiners.length ∧ S.system.Brings s ∧ s.joiners.length = n + 1 ∧
      s.clock = S.system.clock ∧ ∃ j, s.joiners[n]? = some j ∧ j.task = a ∧
        j.deadline = limit.bind (·.deadline? S.system.clock) := by
  have hbegins := S.system.brings_joinFor a limit
  rcases h.occurs.joinFor_cases a limit with he | ⟨-, he⟩ | ⟨x, r, -, -, -, he⟩
  · exact absurd hn (by simp [he])
  · exact absurd hn (by simp [he])
  · obtain rfl := Except.ok.inj ((congrArg Prod.fst he).symm.trans hn)
    obtain ⟨state, hjoiners, hclock⟩ : ∃ state,
        (S.system.joinFor a limit).2.joiners =
          S.system.joiners ++ [⟨a, x, limit.bind (·.deadline? S.system.clock), state⟩] ∧
        (S.system.joinFor a limit).2.clock = S.system.clock := by
      rw [he]
      dsimp only
      split
      · exact ⟨_, rfl, rfl⟩
      · exact ⟨_, rfl, S.system.clock_joinWaiting a x _⟩
    have hsettles := (S.system.joinFor a limit).2.brings_settle schedule
    obtain ⟨hlength, hclock'⟩ := (S.system.joinFor a limit).2.settle_untimed schedule
    obtain ⟨j, hj, htask, hdeadline, -⟩ := (h.occurs.brings hbegins).joiner hsettles
      (n := S.system.joiners.length)
      (j := ⟨a, x, limit.bind (·.deadline? S.system.clock), state⟩) (by rw [hjoiners]; simp)
    refine ⟨rfl, hbegins.trans hsettles, ?_, hclock'.trans hclock, j, hj, htask, hdeadline⟩
    rw [hlength, hjoiners]
    simp

theorem leads_onTask (h : S.Settled) {id : String} {f : Nat → Answer α × Session α}
    (hf : ∀ a t, S.system.tasks[a]? = some t → t.id = id → S.Leads (f a).2) :
    S.Leads (S.onTask id f).2 := by
  unfold onTask
  split
  · exact h.leads_refl
  · next a ha =>
    obtain ⟨t, ht, hid, -⟩ := findTask?_eq_some ha
    exact hf a t ht hid

/-- A join that is begun leads wherever what follows its beginning leads. -/
theorem leads_beginJoin (h : S.Settled) {id : String} {limit : Option Patience}
    {next : Nat → Session α → Answer α × Session α}
    (hnext : ∀ a t n, S.system.tasks[a]? = some t → t.id = id →
      (S.system.joinFor a limit).1 = .ok n →
      S.Leads (next n { S with
        system := (S.system.joinFor a limit).2.settle schedule }).2) :
    S.Leads (beginJoin schedule S id (fun a => S.system.joinFor a limit) next).2 := by
  unfold beginJoin
  refine leads_onTask h fun a t ht hid => ?_
  cases hbegun : (S.system.joinFor a limit).1 with
  | error e =>
    have hsame : (S.system.joinFor a limit).2 = S.system := by
      rcases h.occurs.joinFor_cases a limit with he | ⟨-, he⟩ | ⟨x, r, -, -, -, he⟩
      · rw [he]
      · rw [he]
      · exact absurd (hbegun.symm.trans (congrArg Prod.fst he)) (by simp)
    simp only [hbegun, hsame]
    exact h.leads_refl
  | ok n =>
    simp only [hbegun]
    exact hnext a t n ht hid hbegun

/-- A join that waits under a name is kept under it. -/
theorem leads_namedJoin (h : S.Settled) (name id : String) (limit : Option Patience) :
    S.Leads (namedJoin schedule S name id fun a => S.system.joinFor a limit).2 := by
  unfold namedJoin
  split
  · exact h.leads_refl
  refine leads_beginJoin h fun a t n ht hid hn => ?_
  obtain ⟨rfl, hbrings, hlength, -, j, hj, htask, -⟩ := h.begun schedule hn
  obtain ⟨t', ht', hlater⟩ := hbrings.tasksStay a t ht
  have hlast {m : Nat} {j' : Joiner α} (hm : S.system.joiners.length ≤ m)
      (hj' : ((S.system.joinFor a limit).2.settle schedule).joiners[m]? = some j') :
      m = S.system.joiners.length ∧ j' = j := by
    have hlt := (List.getElem?_eq_some_iff.mp hj').1
    obtain rfl : m = S.system.joiners.length := by omega
    exact ⟨rfl, Option.some.inj (hj'.symm.trans hj)⟩
  dsimp only
  split
  · next answer ha =>
    refine ⟨hbrings, h.attended.brings h.occurs hbrings (fun _ he => he) (fun _ he => Or.inl he)
      fun m j' hm hj' hp => ?_⟩
    obtain ⟨rfl, rfl⟩ := hlast hm hj'
    simp [System.answer?, hj, hp] at ha
  · refine ⟨hbrings, h.attended.brings h.occurs hbrings (List.subset_cons_self _ _)
      (fun e he => ?_) fun m j' hm hj' _ => ?_⟩
    · rcases List.mem_cons.mp he with rfl | he
      · exact Or.inr (hlength ▸ Nat.lt_succ_self _)
      · exact Or.inl he
    obtain ⟨rfl, rfl⟩ := hlast hm hj'
    exact ⟨_, List.mem_cons_self, rfl, t', htask ▸ ht', hlater.id_eq.trans hid⟩

/-- How long a session waits for a join, if it has `patience` milliseconds. -/
def timeFor (s : System α) (n patience : Nat) : Nat :=
  match s.joiners[n]? with
  | some j => match j.deadline with
    | some deadline => min (deadline - s.clock) patience
    | none => patience
  | none => 0

theorem awaitJoin_eq (s : System α) (n patience : Nat) :
    awaitJoin schedule s n patience = (s.elapse (timeFor s n patience)).settle schedule := rfl

/-- Time passes for a join, but not beyond its deadline. -/
theorem brings_awaitJoin (s : System α) (n patience : Nat) :
    s.Brings (awaitJoin schedule s n patience) :=
  (s.brings_elapse _).trans (System.brings_settle _ schedule)

theorem length_awaitJoin (s : System α) (n patience : Nat) :
    (awaitJoin schedule s n patience).joiners.length = s.joiners.length :=
  (System.settle_untimed _ schedule).1.trans (List.length_map _)

/-- A bounded join has its answer when its time is over. -/
theorem answer?_awaitJoin (hschedule : Schedule.Diligent schedule) {s : System α} (hs : s.Occurs)
    {n patience : Nat} {j : Joiner α} (hj : s.joiners[n]? = some j)
    (hdeadline : j.deadline = some (s.clock + patience)) :
    ((awaitJoin schedule s n patience).answer? n).isSome := by
  have hbrings : s.Brings (awaitJoin schedule s n patience) := brings_awaitJoin s n patience
  obtain ⟨j', hj', -, hdeadline', -⟩ := hs.joiner hbrings hj
  have hclock : (awaitJoin schedule s n patience).clock = s.clock + patience := by
    refine (System.settle_untimed _ schedule).2.trans ?_
    show s.clock + _ = _
    simp [hj, hdeadline]
  have hrests : (awaitJoin schedule s n patience).Rests :=
    (hs.brings (s.brings_elapse _)).rests_settle hschedule
  rw [System.answer?, hj', Option.bind_eq_bind, Option.bind_some]
  by_contra hnone
  obtain ⟨-, hdue, -⟩ := (hs.brings hbrings).waits hrests hj' (by simpa using hnone)
  rw [Joiner.isDue, hdeadline', hdeadline, hclock] at hdue
  simp at hdue

/-- A short join is answered when it ends. -/
theorem leads_shortJoin (hschedule : Schedule.Diligent schedule) (h : S.Settled) (id : String)
    (patience : Nat) : S.Leads (shortJoin schedule S id patience).2 := by
  refine leads_beginJoin h fun a t n ht hid hn => ?_
  obtain ⟨rfl, hbrings, hlength, hclock, j, hj, htask, hdeadline⟩ :=
    h.begun schedule hn
  generalize (S.system.joinFor a (some (.ms patience))).2.settle schedule = s at *
  -- whatever has come of it, the new join is answered
  have hleads : ∀ s', s.Brings s' → s'.joiners.length = s.joiners.length →
      (s'.answer? S.system.joiners.length).isSome → S.Leads { S with system := s' } := by
    intro s' hs' hlength' hanswered
    have hbrings' := hbrings.trans hs'
    refine ⟨hbrings', h.attended.brings h.occurs hbrings' (fun _ he => he)
      (fun _ he => Or.inl he) fun m j' hm hj' hp => ?_⟩
    have hlt : m < s'.joiners.length := (List.getElem?_eq_some_iff.mp hj').1
    obtain rfl : m = S.system.joiners.length := by omega
    have hj' : s'.joiners[S.system.joiners.length]? = some j' := hj'
    simp [System.answer?, hj', hp] at hanswered
  dsimp only [waitFor]
  split
  · next answer ha =>
    exact hleads s (.refl s) rfl (by rw [ha]; rfl)
  · refine hleads _ (brings_awaitJoin s _ patience) (length_awaitJoin s _ patience) ?_
    refine answer?_awaitJoin hschedule (h.occurs.brings hbrings) hj ?_
    rw [hdeadline, hclock]
    rfl

/-- A join that is collected was answered, or is still kept. -/
theorem leads_collect (h : S.Settled) (name : String) :
    S.Leads (collect schedule S name).2 := by
  unfold collect
  split
  · exact h.leads_refl
  next e _ =>
  -- only an answered join is forgotten
  have hforget : ∀ s, S.Leads { S with system := s } → (s.answer? e.joiner).isSome →
      S.Leads { S with system := s, pending := S.pending.erase e } := by
    intro s ⟨hbrings, hattended⟩ hanswered
    refine ⟨hbrings, fun n j hj hp => ?_, fun e' he' =>
      hattended.listed e' (List.mem_of_mem_erase he')⟩
    obtain ⟨e', he', hn, hid⟩ := hattended.kept n j hj hp
    refine ⟨e', (List.mem_erase_of_ne ?_).mpr he', hn, hid⟩
    rintro rfl
    have hj : s.joiners[e'.joiner]? = some j := hn ▸ hj
    simp [System.answer?, hj, hp] at hanswered
  have hwait : S.Leads { S with system := awaitJoin schedule S.system e.joiner collectPatience } :=
    h.leads_system (brings_awaitJoin _ _ _) (length_awaitJoin _ _ _)
  unfold waitFor
  cases ha : S.system.answer? e.joiner with
  | some answer => exact hforget S.system h.leads_refl (by rw [ha]; rfl)
  | none =>
    dsimp only
    cases ha' : (awaitJoin schedule S.system e.joiner collectPatience).answer? e.joiner with
    | some answer => exact hforget _ hwait (by rw [ha']; rfl)
    | none => exact hwait

/-! ## 3. Tasks -/

/-- A join in progress is kept under the id of its task. -/
theorem Settled.isFree (h : S.Settled) {id : String} {a : Nat}
    (hpending : (S.pending.any fun j => j.task == id) = false)
    (ha : S.system.findTask? id = some a) : S.system.IsFree a := by
  obtain ⟨t, ht, hid, -⟩ := findTask?_eq_some ha
  intro j hj hja
  by_contra hp
  obtain ⟨n, hn⟩ := List.getElem?_of_mem hj
  obtain ⟨e, he, -, t', ht', hid'⟩ := h.attended.kept n j hn (by simpa using hp)
  rw [hja] at ht'
  obtain rfl := Option.some.inj (ht'.symm.trans ht)
  exact absurd (beq_iff_eq.mpr (hid'.symm.trans hid)) (List.any_eq_false.mp hpending e he)

/-- The use of a task ends only when no join of it is in progress. -/
theorem leads_endTask (h : S.Settled) {id : String} {f : Nat → Answer α × Session α}
    (hf : ∀ a, S.system.IsFree a → S.Leads (f a).2) : S.Leads (S.endTask id f).2 := by
  unfold endTask onTask
  split
  · exact h.leads_refl
  next hfree =>
  split
  · exact h.leads_refl
  · next a ha => exact hf a (h.isFree (by simpa using hfree) ha)

theorem joiners_foldl (f : Submission → Pool α → Pool α) (xs : List Submission) (s : System α) :
    (xs.foldl (fun s x => s.modifyPool x.pool (f x)) s).joiners = s.joiners := by
  induction xs generalizing s with
  | nil => rfl
  | cons x xs ih => exact ih (s.modifyPool x.pool (f x))

theorem joiners_release (s : System α) (a : Nat) : (s.release a).2.joiners = s.joiners := by
  unfold System.release
  split
  · exact joiners_foldl (fun x p => p.unlink x.ticket) _ s
  · rfl

theorem joiners_detach (s : System α) (a : Nat) : (s.detach a).joiners = s.joiners := by
  unfold System.detach
  dsimp only
  split
  · exact joiners_foldl (fun x p => p.detach x.ticket) _ s
  · exact joiners_foldl (fun x p => p.detach x.ticket) _ (s.note _)

theorem brings_submitTimes (schedule : Schedule α) (s : System α) (i a times count : Nat) :
    s.Brings (submitTimes schedule i a times count s).2 ∧
      (submitTimes schedule i a times count s).2.joiners.length = s.joiners.length := by
  induction times generalizing s count with
  | zero => exact ⟨.refl s, rfl⟩
  | succ times ih =>
    have hsubmits := s.brings_submit i a
    have hjoiners := congrArg List.length (s.submit_untimed i a).1
    unfold submitTimes
    split
    · next s' hs' =>
      rw [hs'] at hsubmits hjoiners
      obtain ⟨hbrings, hlength⟩ := ih (s'.settle schedule) (count + 1)
      exact ⟨(hsubmits.trans (s'.brings_settle schedule)).trans hbrings,
        hlength.trans ((s'.settle_untimed schedule).1.trans hjoiners)⟩
    · next e s' hs' =>
      rw [hs'] at hsubmits hjoiners
      exact ⟨hsubmits, hjoiners⟩
    · next reply s' _ _ hs' =>
      rw [hs'] at hsubmits hjoiners
      exact ⟨hsubmits, hjoiners⟩

/-! ## 4. Commands -/

theorem leads_onPool (h : S.Settled) {id : String} {f : Nat → Answer α × Session α}
    (hf : ∀ i, S.Leads (f i).2) : S.Leads (S.onPool id f).2 := by
  unfold onPool
  split
  · exact h.leads_refl
  · exact hf _

theorem leads_buildPool (h : S.Settled) (id : String) (settings : Settings) :
    S.Leads (S.buildPool id settings).2 := by
  unfold buildPool
  split
  · exact h.leads_refl
  split
  · exact h.leads_refl
  split
  · exact h.leads_refl
  · exact h.leads_system (S.system.brings_addPool id _) rfl

theorem leads_shutdown (h : S.Settled) (i : Nat) : S.Leads (S.shutdown i).2 := by
  have hlength : (S.system.shutdown i).2.joiners.length = S.system.joiners.length :=
    congrArg List.length (S.system.shutdown_untimed i).1
  have hleads := h.leads_system (S.system.brings_shutdown i) hlength
  unfold shutdown
  generalize S.system.shutdown i = result at hleads
  obtain ⟨_ | e, s⟩ := result <;> exact hleads

theorem leads_openGate (h : S.Settled) (a : Nat) (run : Option Nat) :
    S.Leads (S.openGate a run).2 := by
  unfold openGate
  dsimp only
  split
  · exact h.leads_refl
  · exact h.leads_system (S.system.brings_openGate a _) rfl

theorem leads_boundedJoin (hschedule : Schedule.Diligent schedule) (h : S.Settled) (task : String)
    (patience : Patience) (name : Option String) :
    S.Leads (boundedJoin schedule S task patience name).2 := by
  unfold boundedJoin
  split
  · exact leads_shortJoin hschedule h task _
  · exact leads_namedJoin h _ task (some patience)
  · exact h.leads_refl

theorem leads_release (h : S.Settled) {a : Nat} (hfree : S.system.IsFree a) :
    S.Leads (S.release a).2 := by
  have hleads := h.leads_system (System.brings_release hfree)
    (congrArg List.length (joiners_release S.system a))
  unfold release
  generalize S.system.release a = result at hleads
  obtain ⟨_ | e, s⟩ := result <;> exact hleads

/-- Every command is a run that keeps the joins in progress. -/
theorem leads_execute (hschedule : Schedule.Diligent schedule) (h : S.Settled) (c : Command α) :
    S.Leads (execute schedule S c).2 := by
  cases c with
  | buildPool id settings => exact leads_buildPool h id settings
  | tryPool threads =>
    show S.Leads (S.tryPool threads).2
    unfold tryPool
    split <;> exact h.leads_refl
  | describePool id => exact leads_onPool h fun _ => h.leads_refl
  | shutdown id => exact leads_onPool h fun i => leads_shutdown h i
  | dropPool id => exact leads_onPool h fun i => h.leads_system (S.system.brings_dropPool i) rfl
  | denyThreads on => exact h.leads_system (S.system.brings_refuseThreads _) rfl
  | createTask id body =>
    simp only [execute]
    split
    · exact h.leads_refl
    · exact h.leads_system (S.system.brings_addTask id body) rfl
  | submit pool task =>
    refine h.leads_system (S.system.brings_submitById pool task) ?_
    split
    · exact congrArg List.length (S.system.submit_untimed _ _).1
    · rfl
    · rfl
  | submitTimes pool task times =>
    refine leads_onPool h fun i => leads_onTask h fun a _ _ _ => ?_
    obtain ⟨hbrings, hlength⟩ := brings_submitTimes schedule S.system i a times 0
    exact h.leads_system hbrings hlength
  | openGate task run => exact leads_onTask h fun a _ _ _ => leads_openGate h a run
  | openOrphan =>
    simp only [execute]
    split
    · exact h.leads_refl
    · exact h.leads_system (S.system.brings_openGate _ _) rfl
  | join task name => exact leads_namedJoin h name task none
  | joinWithin task patience name => exact leads_boundedJoin hschedule h task patience name
  | collect name => exact leads_collect h name
  | release id => exact leads_endTask h fun _ hfree => leads_release h hfree
  | detach id =>
    exact leads_endTask h fun a hfree => h.leads_system (System.brings_detach hfree)
      (congrArg List.length (joiners_detach S.system a))
  | describeTask id => exact leads_onTask h fun _ _ _ _ => h.leads_refl
  | unknown => exact h.leads_refl

theorem Settled.brings_step (h : S.Settled) (hschedule : Schedule.Diligent schedule)
    (c : Command α) : S.system.Brings (Session.step schedule S c).2.system :=
  (leads_execute hschedule h c).1.trans (System.brings_settle _ schedule)

/-- **A session settles after each command.** -/
theorem Settled.step (h : S.Settled) (hschedule : Schedule.Diligent schedule) (c : Command α) :
    (Session.step schedule S c).2.Settled :=
  h.settle hschedule (leads_execute hschedule h c)

theorem Settled.after (h : S.Settled) (hschedule : Schedule.Diligent schedule)
    (commands : List (Command α)) : (S.after schedule commands).Settled := by
  induction commands generalizing S with
  | nil => exact h
  | cons c rest ih => exact ih (h.step hschedule c)

theorem Settled.brings_after (h : S.Settled) (hschedule : Schedule.Diligent schedule)
    (commands : List (Command α)) : S.system.Brings (S.after schedule commands).system := by
  induction commands generalizing S with
  | nil => exact .refl _
  | cons c rest ih => exact (h.brings_step hschedule c).trans (ih (h.step hschedule c))

/-! ## 5. Reports -/

theorem reports_cons (schedule : Schedule α) (quiet log : Bool) (S : Session α) (c : Command α)
    (rest : List (Command α)) :
    S.reports schedule quiet log (c :: rest) =
      report (quiet && !rest.isEmpty) log (Session.step schedule S c).1 S
          (Session.step schedule S c).2 ::
        (Session.step schedule S c).2.reports schedule quiet log rest := rfl

/-- The reports on the commands after some others. -/
theorem reports_drop (schedule : Schedule α) (quiet log : Bool) (S : Session α)
    (before after : List (Command α)) :
    (S.reports schedule quiet log (before ++ after)).drop before.length =
      (S.after schedule before).reports schedule quiet log after := by
  induction before generalizing S with
  | nil => rfl
  | cons c rest ih =>
    rw [List.cons_append, reports_cons, List.length_cons, List.drop_succ_cons]
    exact ih _

/-- The same, when the first of them is looked at by itself. -/
theorem reports_drop_succ (schedule : Schedule α) (quiet log : Bool) (S : Session α)
    (before : List (Command α)) (c : Command α) (after : List (Command α)) :
    (S.reports schedule quiet log (before ++ c :: after)).drop (before.length + 1) =
      (Session.step schedule (S.after schedule before) c).2.reports schedule quiet log after := by
  induction before generalizing S with
  | nil => rfl
  | cons c' rest ih =>
    rw [List.cons_append, reports_cons, List.length_cons, List.drop_succ_cons]
    exact ih _

end Session
end WorkerPool
