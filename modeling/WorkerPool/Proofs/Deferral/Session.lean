/-
# Joins with a deadline and joins without

One script is carried out twice, and one of its joins has a deadline in the first run and none in
the second.  If the deadline does not pass before the submission finishes, no report tells the two
runs apart (`Session.deadline_is_unseen`), although the record is marked at different moments: when
the join begins, without a deadline, and when it finds the record finished, with one.

`Deferral.Apart` says what the two systems differ in: in marks, and in this one deadline.  Commands
that join nothing keep it (`Deferral.bond`), and so do joins, as long as the submission is in time
(`Deferral.joinBond`).  A join that runs out of time, for its part, marks nothing and leaves every
task as releasable as it was; whatever is marked, another join has marked.
-/
import WorkerPool.Proofs.Deferral.System
import WorkerPool.Proofs.NoTrace

namespace WorkerPool

/-! ## 1. One deadline less -/

namespace System

variable {α : Type} {s s' t : System α} {n : Nat} {x : Submission}

/-- The submission of a join, and its deadline. -/
def joining? (s : System α) (n : Nat) : Option (Submission × Option Nat) :=
  s.joiners[n]?.map fun j => (j.submission, j.deadline)

/-- The deadline has not come, or the submission has finished. -/
def InTime (x : Submission) (deadline : Nat) (s : System α) : Prop :=
  s.clock < deadline ∨ ∀ r ∈ s.record? x, r.status = .finished

instance (x : Submission) (deadline : Nat) (s : System α) : Decidable (s.InTime x deadline) :=
  inferInstanceAs (Decidable (_ ∨ _))

/-- A join stays what it was called for. -/
theorem Occurs.joining? (h : s.Occurs) (hs : s.Brings s') {join : Submission × Option Nat}
    (hj : s.joining? n = some join) : s'.joining? n = some join := by
  obtain ⟨p, hreach, hnone, rfl⟩ := h
  obtain ⟨q, hq, rfl, -⟩ := hs p rfl hnone
  obtain ⟨j, hn, rfl⟩ := Option.map_eq_some_iff.mp hj
  obtain ⟨j', hn', -, hsubmission, hdeadline⟩ := hq.joiner hreach hn
  exact Option.map_eq_some_iff.mpr ⟨j', hn', by rw [hsubmission, hdeadline]⟩

/-- A submission that a join has returned from is in time, from then on. -/
theorem Occurs.inTime (h : s.Occurs) (hs : s.Brings s') {j : Joiner α}
    (hj : s.joiners[n]? = some j) (hreturned : j.Returned) (deadline : Nat) :
    s'.InTime j.submission deadline := by
  obtain ⟨answer, ha, hne⟩ := hreturned
  obtain ⟨j', hj', -, -, hanswer⟩ := h.joiner hs hj
  have hjoining := h.joining? hs (Option.map_eq_some_iff.mpr ⟨j, hj, rfl⟩)
  have hsubmission : j'.submission = j.submission := by
    rw [System.joining?, hj', Option.map_some] at hjoining
    exact congrArg Prod.fst (Option.some.inj hjoining)
  obtain ⟨p, hreach, -, rfl⟩ := h.brings hs
  refine Or.inr fun r hr => ?_
  exact (hreach.finished_of_returned hj' ⟨answer, hanswer answer ha, hne⟩ (hsubmission ▸ hr)).2

theorem Still.timely (h : s.Still) (n : Nat) : s.Timely n :=
  fun _ hj hp => (h.occurs.waits h.rests hj hp).2.1

/-- What concerns neither joins nor the clock. -/
theorem Timely.congr (h : s.Timely n) (hsame : s'.joiners = s.joiners ∧ s'.clock = s.clock) :
    s'.Timely n := by
  unfold Timely
  rw [hsame.1, hsame.2]
  exact h

/-- One more join does nothing to the others. -/
theorem forget_call {join : Submission × Option Nat} (hn : s.joining? n = some join)
    (j : Joiner α) :
    let s' : System α := { s with joiners := s.joiners ++ [j] }
    s'.forget n = { s.forget n with joiners := (s.forget n).joiners ++ [j] } ∧
      s'.joining? n = some join := by
  obtain ⟨j', hj', rfl⟩ := Option.map_eq_some_iff.mp hn
  obtain ⟨hlt, -⟩ := List.getElem?_eq_some_iff.mp hj'
  have hkept : (s.joiners ++ [j])[n]? = some j' := (List.getElem?_append_left hlt).trans hj'
  have hjoiners : (s.joiners ++ [j]).modify n Joiner.undated =
      s.joiners.modify n Joiner.undated ++ [j] := by
    rw [modify_eq_set hkept, modify_eq_set hj', List.set_append_left _ _ hlt]
  exact ⟨by simp only [forget, hjoiners], Option.map_eq_some_iff.mpr ⟨j', hkept, rfl⟩⟩

theorem answer?_forget (s : System α) (m : Nat) : (s.forget n).answer? m = s.answer? m := by
  unfold answer?
  rw [joiners_forget]
  cases s.joiners[m]? with
  | none => rfl
  | some j =>
    show (if m = n then j.undated else j).answer? = j.answer?
    split <;> rfl

end System

/-- A join of two runs that has a deadline in the first one only. -/
structure Deferral where
  joiner : Nat
  submission : Submission
  deadline : Nat

namespace Deferral

variable {α : Type} {d : Deferral} {s s' t t' : System α} {σ : Schedule α}

/-- The two systems are the same, but for marks and for the deadline. -/
structure Apart (d : Deferral) (s t : System α) : Prop where
  same : s.forget d.joiner = t.forget d.joiner
  dated : s.joining? d.joiner = some (d.submission, some d.deadline)
  undated : t.joining? d.joiner = some (d.submission, none)

namespace Apart

/-- What concerns no joins. -/
theorem operate (h : d.Apart s t) (hsame : s'.forget d.joiner = t'.forget d.joiner)
    (hs : s'.joiners = s.joiners) (ht : t'.joiners = t.joiners) : d.Apart s' t' where
  same := hsame
  dated := by
    unfold System.joining?
    rw [hs]
    exact h.dated
  undated := by
    unfold System.joining?
    rw [ht]
    exact h.undated

theorem brings (h : d.Apart s t) (hs : s.Still) (ht : t.Still) (hs' : s.Brings s')
    (ht' : t.Brings t') (hsame : s'.forget d.joiner = t'.forget d.joiner) : d.Apart s' t' :=
  ⟨hsame, hs.occurs.joining? hs' h.dated, ht.occurs.joining? ht' h.undated⟩

/-- Both settle after an operation that concerns neither joins nor the clock. -/
theorem settle (h : d.Apart s t) (hsees : Schedule.SeesThreads σ) (hs : s.Still) (ht : t.Still)
    (hs' : s.Brings s') (ht' : t.Brings t')
    (hsu : s'.joiners = s.joiners ∧ s'.clock = s.clock)
    (htu : t'.joiners = t.joiners ∧ t'.clock = t.clock)
    (hsame : s'.forget d.joiner = t'.forget d.joiner) :
    d.Apart (s'.settle σ) (t'.settle σ) :=
  h.brings hs ht (hs'.trans (s'.brings_settle σ)) (ht'.trans (t'.brings_settle σ))
    (System.forget_settle hsees (hs.occurs.brings hs') (ht.occurs.brings ht')
      ((hs.timely _).congr hsu) ((ht.timely _).congr htu) hsame)

end Apart

/-- **Commands that join nothing keep the two systems apart by no more than that.** -/
theorem bond (d : Deferral) (hσ : Schedule.Diligent σ) (hsees : Schedule.SeesThreads σ) :
    Bond σ σ (fun _ => True) d.Apart where
  left := hσ
  right := hσ
  alike h := System.alike_of_forget h.same
  ok _ _ _ := trivial
  addPool h id plan :=
    h.operate (by rw [System.forget_addPool, System.forget_addPool, h.same]) rfl rfl
  addTask h id body := h.operate (congrArg (·.addTask id body) h.same) rfl rfl
  refuse h refusal :=
    h.operate (congrArg (fun s : System α => { s with refusal }) h.same) rfl rfl
  release {s t} hs ht h a hfree := by
    obtain ⟨hanswer, hsame⟩ :=
      System.forget_release h.same (hs.occurs.canRelease_eq ht.occurs h.same hfree)
    exact ⟨hanswer, h.operate hsame (Session.joiners_release s a) (Session.joiners_release t a)⟩
  detach {s t} h a _ :=
    h.operate (by rw [System.forget_detach, System.forget_detach, h.same])
      (Session.joiners_detach s a) (Session.joiners_detach t a)
  submit {s t} hs ht h i a _ := by
    have hsubmit : (s.submit i a).1 = (t.submit i a).1 ∧
        (s.submit i a).2.forget d.joiner = (t.submit i a).2.forget d.joiner := by
      have hboth := s.forget_submit (n := d.joiner) i a
      rw [h.same, t.forget_submit] at hboth
      exact ⟨(congrArg Prod.fst hboth).symm, (congrArg Prod.snd hboth).symm⟩
    exact ⟨hsubmit.1, h.settle hsees hs ht (s.brings_submit i a) (t.brings_submit i a)
      (s.submit_untimed i a) (t.submit_untimed i a) hsubmit.2⟩
  shutdown {s t} hs ht h i _ := by
    have hshutdown : (s.shutdown i).1 = (t.shutdown i).1 ∧
        (s.shutdown i).2.forget d.joiner = (t.shutdown i).2.forget d.joiner := by
      have hboth := s.forget_shutdown (n := d.joiner) i
      rw [h.same, t.forget_shutdown] at hboth
      exact ⟨(congrArg Prod.fst hboth).symm, (congrArg Prod.snd hboth).symm⟩
    exact ⟨hshutdown.1, h.settle hsees hs ht (s.brings_shutdown i) (t.brings_shutdown i)
      (s.shutdown_untimed i) (t.shutdown_untimed i) hshutdown.2⟩
  dropPool {s t} hs ht h i _ :=
    h.settle hsees hs ht (s.brings_dropPool i) (t.brings_dropPool i) ⟨rfl, rfl⟩ ⟨rfl, rfl⟩
      (by rw [System.forget_dropPool, System.forget_dropPool, h.same])
  openGate {s t} hs ht h a run _ :=
    h.settle hsees hs ht (s.brings_openGate a run) (t.brings_openGate a run) ⟨rfl, rfl⟩ ⟨rfl, rfl⟩
      (by rw [System.forget_openGate, System.forget_openGate, h.same])

/-! ## 2. Joins meanwhile -/

namespace Apart

/-- One more join in both. -/
theorem call (h : d.Apart s t) (j : Joiner α) :
    d.Apart { s with joiners := s.joiners ++ [j] } { t with joiners := t.joiners ++ [j] } := by
  obtain ⟨hforget, hdated⟩ := System.forget_call h.dated j
  obtain ⟨hforget', hundated⟩ := System.forget_call h.undated j
  exact ⟨by rw [hforget, hforget', h.same], hdated, hundated⟩

/-- Time passes in both, and the deadline does not pass before the join has its answer. -/
theorem elapse (h : d.Apart s t) (hs : s.Still) (ht : t.Still) (hσ : Schedule.Diligent σ) {ms : Nat}
    (hintime : ((s.elapse ms).settle σ).InTime d.submission d.deadline) :
    d.Apart ((s.elapse ms).settle σ) ((t.elapse ms).settle σ) := by
  refine h.brings hs ht ((s.brings_elapse ms).trans (System.brings_settle _ σ))
    ((t.brings_elapse ms).trans (System.brings_settle _ σ)) ?_
  have hclock : s.clock = t.clock := (System.alike_of_forget h.same).clock
  rw [hs.occurs.settle_elapse hs.rests hσ] at hintime ⊢
  rw [ht.occurs.settle_elapse ht.rests hσ, ← hclock]
  generalize hc : s.clock + ms = clock at hintime ⊢
  -- the join does not give up, with or without its deadline
  have hforget {s : System α}
      (hjoin : ∀ j, s.joiners[d.joiner]? = some j → j.isOver clock = false) :
      (s.later clock (s.joiners.map (·.expire clock))).forget d.joiner =
        (s.forget d.joiner).later clock ((s.forget d.joiner).joiners.map (·.expire clock)) := by
    have hjoiners : (s.joiners.map (·.expire clock)).modify d.joiner Joiner.undated =
        (s.joiners.modify d.joiner Joiner.undated).map (·.expire clock) := by
      refine List.ext_getElem? fun m => ?_
      rw [List.getElem?_modify, List.getElem?_map, List.getElem?_map, List.getElem?_modify]
      by_cases hm : d.joiner = m
      · subst hm
        cases hj : s.joiners[d.joiner]? with
        | none => rfl
        | some j =>
          have hover := hjoin j hj
          have hover' : j.undated.isOver clock = false := by
            simp [Joiner.isOver, Joiner.isDue, Joiner.undated]
          simp [Joiner.expire, hover, hover']
      · simp [hm]
    simp only [System.forget, System.later, hjoiners]
  have hleft : ∀ j, s.joiners[d.joiner]? = some j → j.isOver clock = false := by
    intro j hj
    cases ha : j.answer? with
    | some answer => simp [Joiner.isOver, ha]
    | none =>
      have hjoining := h.dated
      rw [System.joining?, hj, Option.map_some, Option.some.injEq, Prod.mk.injEq] at hjoining
      obtain ⟨-, -, r, hr, hunfinished⟩ := hs.occurs.waits hs.rests hj ha
      rcases hintime with hlt | hfinished
      · have hlt : clock < d.deadline := hlt
        simp [Joiner.isOver, Joiner.isDue, hjoining.2, hlt]
      · exact absurd (hfinished r (hjoining.1 ▸ hr)) hunfinished
  have hright : ∀ j, t.joiners[d.joiner]? = some j → j.isOver clock = false := by
    intro j hj
    have hjoining := h.undated
    rw [System.joining?, hj, Option.map_some, Option.some.injEq, Prod.mk.injEq] at hjoining
    simp [Joiner.isOver, Joiner.isDue, hjoining.2]
  rw [hforget hleft, hforget hright, h.same]

/-- A command waits as long for a join in both, if the deadline does not pass meanwhile. -/
theorem timeFor_eq (h : d.Apart s t) (hs : s.Still) {n patience : Nat} (hn : s.answer? n = none)
    (hσ : Schedule.Diligent σ)
    (hintime : (Session.awaitJoin σ s n patience).InTime d.submission d.deadline) :
    Session.timeFor s n patience = Session.timeFor t n patience := by
  have hclock : s.clock = t.clock := (System.alike_of_forget h.same).clock
  by_cases hjoiner : n = d.joiner
  · subst hjoiner
    obtain ⟨j, hj, hdated⟩ := Option.map_eq_some_iff.mp h.dated
    obtain ⟨j', hj', hundated⟩ := Option.map_eq_some_iff.mp h.undated
    obtain ⟨hsubmission, hdeadline⟩ := Prod.mk.inj hdated
    obtain ⟨-, hnone⟩ := Prod.mk.inj hundated
    have hp : j.answer? = none := by
      rw [System.answer?, hj] at hn
      exact hn
    have hleft : Session.timeFor s d.joiner patience = min (d.deadline - s.clock) patience := by
      simp only [Session.timeFor, hj, hdeadline]
    have hright : Session.timeFor t d.joiner patience = patience := by
      simp only [Session.timeFor, hj', hnone]
    -- the record has not finished, so the command gives up before the join does
    obtain ⟨-, -, r, hr, hunfinished⟩ := hs.occurs.waits hs.rests hj hp
    rw [Session.awaitJoin_eq, hleft, hs.occurs.settle_elapse hs.rests hσ] at hintime
    rw [hleft, hright]
    rcases hintime with hlt | hfinished
    · have hlt : s.clock + min (d.deadline - s.clock) patience < d.deadline := hlt
      omega
    · exact absurd (hfinished r (hsubmission ▸ hr)) hunfinished
  · have hother : t.joiners[n]? = s.joiners[n]? := by
      have hsame := congrArg (fun s : System α => s.joiners[n]?) h.same
      rw [System.joiners_forget, System.joiners_forget] at hsame
      simpa [hjoiner] using hsame.symm
    rw [Session.timeFor, Session.timeFor, hother, hclock]

end Apart

/-- **So do commands that join a submission**, as long as the one submission is in time. -/
theorem joinBond (d : Deferral) (hσ : Schedule.Diligent σ) :
    JoinBond σ σ (System.InTime d.submission d.deadline) (fun _ => id) (d.Apart (α := α)) where
  left := hσ
  right := hσ
  alike h := System.alike_of_forget h.same
  errors _ _ := rfl
  length {s t} h := by
    have hlength := congrArg (fun s : System α => s.joiners.length) h.same
    simpa [System.forget, List.length_modify] using hlength.symm
  answer {s t} h {n _} _ := by
    rw [Option.map_id, id, ← s.answer?_forget (n := d.joiner), h.same, t.answer?_forget]
  outcome {s t} h {x _} _ _ := by
    have houtcome := s.outcome_forget (n := d.joiner) x
    rw [h.same, t.outcome_forget] at houtcome
    exact houtcome
  mark {s t} h x := h.operate (by rw [s.forget_mark, t.forget_mark, h.same]) rfl rfl
  call h j := by
    rw [j.reread_id]
    exact h.call j
  wait {s t} hs ht h n patience hn hintime := by
    rw [Session.awaitJoin_eq, Session.awaitJoin_eq, ← h.timeFor_eq hs hn hσ hintime]
    exact h.elapse hs ht hσ hintime

end Deferral

/-! ## 3. Reports -/

namespace Session

variable {α : Type} {S S' T T' : Session α} {d : Deferral} {σ : Schedule α} {n : Nat}

/-- A report shows nothing of what is forgotten. -/
theorem report_forget (brief log : Bool) (answer : Answer α) (S S' : Session α) :
    report brief log answer { S with system := S.system.forget n }
        { S' with system := S'.system.forget n } =
      report brief log answer S S' := by
  have hview : view { S' with system := S'.system.forget n } = S'.view :=
    (view_eq S'.system.alike_forget).symm
  have hjournal (i : Nat) :
      poolJournal { S with system := S.system.forget n } i = S.poolJournal i := by
    unfold poolJournal
    dsimp only
    rw [System.pools_forget]
    cases S.system.pools[i]? <;> rfl
  have hlog : logSince { S with system := S.system.forget n }
      { S' with system := S'.system.forget n } = S.logSince S' := by
    unfold logSince
    simp only [hjournal]
    congr 3
    show (List.map Pool.unmarked S'.system.pools).zipIdx.flatMap _ = _
    rw [List.zipIdx_map, List.flatMap_map]
    rfl
  simp only [report, hview, hlog]
  rfl

/-- Two sessions whose systems are the same but for marks and one deadline report the same. -/
theorem Beside.report_eq (h : Beside (fun s t => s.forget n = t.forget n) S T)
    (h' : Beside (fun s t => s.forget n = t.forget n) S' T') (brief log : Bool)
    (answer : Answer α) : report brief log answer S S' = report brief log answer T T' := by
  have hforget {S T : Session α} (h : Beside (fun s t => s.forget n = t.forget n) S T) :
      ({ S with system := S.system.forget n } : Session α) =
        { T with system := T.system.forget n } := by
    rw [h.system, h.pending, h.unsized, h.passing]
  rw [← report_forget (n := n) brief log answer S S', hforget h, hforget h', report_forget]

/-- **All commands report the same**, as long as the submission is in time. -/
theorem Abreast.reports_deferred (h : Abreast d.Apart S T) (hσ : Schedule.Diligent σ)
    (hsees : Schedule.SeesThreads σ) (commands : List (Command α))
    (hintime : ∀ k ≤ commands.length,
      (S.after σ (commands.take k)).system.InTime d.submission d.deadline) (quiet log : Bool) :
    S.reports σ quiet log commands = T.reports σ quiet log commands := by
  induction commands generalizing S T with
  | nil => rfl
  | cons c rest ih =>
    have hnow := hintime 1 (Nat.le_add_left 1 rest.length)
    obtain ⟨hanswer, hstep⟩ := h.advance (d.bond hσ hsees) (d.joinBond hσ) c trivial hnow
    have hrest := ih hstep fun k hk => hintime (k + 1) (Nat.succ_le_succ hk)
    have hreport := (h.toBeside.mono (·.same)).report_eq (hstep.toBeside.mono (·.same))
    rw [reports_cons, reports_cons, hanswer, hreport, hrest]

/-- A command in the middle of a list is replaced. -/
theorem reports_replace {S : Session α} {c c' : Command α} {quiet log : Bool}
    (before after : List (Command α))
    (h : (S.after σ before).reports σ quiet log (c :: after) =
      (S.after σ before).reports σ quiet log (c' :: after)) :
    S.reports σ quiet log (before ++ c :: after) =
      S.reports σ quiet log (before ++ c' :: after) := by
  induction before generalizing S with
  | nil => exact h
  | cons c₀ rest ih =>
    have hbrief : (rest ++ c :: after).isEmpty = (rest ++ c' :: after).isEmpty := by
      cases rest <;> rfl
    rw [List.cons_append, List.cons_append, reports_cons, reports_cons, hbrief, ih h]

end Session

/-! ## 4. The join that has a deadline in one run -/

namespace Deferral

variable {α : Type} {s u v : System α} {a deadline : Nat} {x : Submission}

/-- A join begins, with a deadline in one of two systems that differ in marks. -/
theorem apart_called (hu : u.forget s.joiners.length = s.forget s.joiners.length)
    (hv : v.forget s.joiners.length = s.forget s.joiners.length) (state : JoinState α) :
    Apart ⟨s.joiners.length, x, deadline⟩
      { u with joiners := s.joiners ++ [⟨a, x, some deadline, state⟩] }
      { v with joiners := s.joiners ++ [⟨a, x, none, state⟩] } := by
  have hforget {u : System α} (hu : u.forget s.joiners.length = s.forget s.joiners.length)
      (j : Joiner α) :
      ({ u with joiners := s.joiners ++ [j] } : System α).forget s.joiners.length =
        { s.forget s.joiners.length with joiners := s.joiners ++ [j.undated] } := by
    rw [← hu]
    simp only [System.forget, modify_concat]
  have hlast (j : Joiner α) : (s.joiners ++ [j])[s.joiners.length]? = some j :=
    List.getElem?_concat_length
  refine ⟨?_, ?_, ?_⟩
  · dsimp only
    rw [hforget hu, hforget hv]
    rfl
  · rw [System.joining?, hlast]
    rfl
  · rw [System.joining?, hlast]
    rfl

theorem apart_joinAnswered (s : System α) (a : Nat) (x : Submission) (deadline : Nat) :
    Apart ⟨s.joiners.length, x, deadline⟩ (s.joinAnswered a x (some deadline))
      (s.joinAnswered a x none) :=
  apart_called (s.forget_mark x) (s.forget_mark x) _

/-- Only a join without a deadline marks its record before it waits. -/
theorem apart_joinWaiting (s : System α) (a : Nat) (x : Submission) (deadline : Nat) :
    Apart ⟨s.joiners.length, x, deadline⟩ (s.joinWaiting a x (some deadline))
      (s.joinWaiting a x none) :=
  apart_called rfl (s.forget_mark x) _

end Deferral

namespace Session

variable {α : Type} {S : Session α} {σ : Schedule α} {name task : String} {a : Nat}
  {x : Submission} {r : Record Job}

theorem step_of_rests {c : Command α} (hσ : Schedule.Diligent σ) {result : Answer α × Session α}
    (he : execute σ S c = result) (hrests : result.2.system.Rests) :
    Session.step σ S c = result := by
  rw [Session.step, he]
  exact congrArg (fun system => (result.1, { result.2 with system })) (hrests.settle_eq hσ)

section Join

variable (h : S.Settled) (hσ : Schedule.Diligent σ) (ha : S.system.findTask? task = some a)
  (hx : (S.system.submissions a).head? = some x) (hr : S.system.record? x = some r)

include h hσ ha hx hr

/-- A join that finds a submission, and has some time. -/
theorem Settled.beginJoin_eq {limit : Option Patience} (hzero : limit ≠ some (.ms 0))
    (next : Nat → Session α → Answer α × Session α) :
    beginJoin σ S task (fun a => S.system.joinFor a limit) next =
      next S.system.joiners.length
        { S with
          system :=
            if r.status = .finished then
              S.system.joinAnswered a x (limit.bind (·.deadline? S.system.clock))
            else S.system.joinWaiting a x (limit.bind (·.deadline? S.system.clock)) } := by
  obtain ⟨r', hr', hjoin⟩ := h.occurs.joinFor_waits hx hzero
  obtain rfl := Option.some.inj (hr.symm.trans hr')
  unfold beginJoin onTask
  rw [ha]
  dsimp only at hjoin ⊢
  rw [hjoin]
  dsimp only [Session.settle]
  split
  · rw [(h.rests.joinAnswered a x _).settle_eq hσ]
  · rw [(h.rests.joinWaiting a x _).settle_eq hσ]

/-- A join that finds its record finished is answered, whatever its time is. -/
theorem Settled.join_of_finished (hname : ∀ e ∈ S.pending, e.name ≠ name)
    (hs : r.status = .finished) {limit : Option Patience} (hzero : limit ≠ some (.ms 0)) :
    (namedJoin σ S name task fun a => S.system.joinFor a limit) =
      (joinAnswer (S.system.outcome x),
        { S with
          system := S.system.joinAnswered a x (limit.bind (·.deadline? S.system.clock)) }) := by
  have hfree : ¬(S.pending.any fun j => j.name == name) = true := by simpa using hname
  unfold namedJoin
  rw [if_neg hfree, h.beginJoin_eq hσ ha hx hr hzero, if_pos hs]
  dsimp only
  rw [answer?_joinAnswered]

theorem Settled.shortJoin_of_finished (hs : r.status = .finished) {ms : Nat} (hms : ms ≠ 0) :
    shortJoin σ S task ms =
      (joinAnswer (S.system.outcome x),
        { S with system := S.system.joinAnswered a x (some (S.system.clock + ms)) }) := by
  have hzero : some (Patience.ms ms) ≠ some (.ms 0) := by simpa using hms
  refine (h.beginJoin_eq hσ ha hx hr hzero _).trans ?_
  rw [if_pos hs]
  dsimp only [Session.waitFor]
  rw [answer?_joinAnswered]
  rfl

/-- Any other join is left waiting under its name. -/
theorem Settled.join_of_unfinished (hname : ∀ e ∈ S.pending, e.name ≠ name)
    (hs : r.status ≠ .finished) {limit : Option Patience} (hzero : limit ≠ some (.ms 0)) :
    (namedJoin σ S name task fun a => S.system.joinFor a limit) =
      (.pending,
        { S with
          system := S.system.joinWaiting a x (limit.bind (·.deadline? S.system.clock))
          pending := ⟨name, task, S.system.joiners.length⟩ :: S.pending }) := by
  have hfree : ¬(S.pending.any fun j => j.name == name) = true := by simpa using hname
  unfold namedJoin
  rw [if_neg hfree, h.beginJoin_eq hσ ha hx hr hzero, if_neg hs]
  dsimp only
  rw [answer?_joinWaiting]

/-- A bounded join that is not left waiting takes its time. -/
theorem Settled.shortJoin_of_unfinished (hs : r.status ≠ .finished) {ms : Nat} (hms : ms ≠ 0) :
    ¬((shortJoin σ S task ms).2.system.settle σ).InTime x (S.system.clock + ms) := by
  have hzero : some (Patience.ms ms) ≠ some (.ms 0) := by simpa using hms
  obtain ⟨r', hr', hjoin⟩ := h.occurs.joinFor_waits hx hzero
  obtain rfl := Option.some.inj (hr.symm.trans hr')
  dsimp only at hjoin
  rw [if_neg hs] at hjoin
  let waiting := S.system.joinWaiting a x (some (S.system.clock + ms))
  have hoccurs : waiting.Occurs := by
    have hbegun := h.occurs.brings (S.system.brings_joinFor a (some (.ms ms)))
    rwa [hjoin] at hbegun
  have hrests : (awaitJoin σ waiting S.system.joiners.length ms).Rests :=
    (hoccurs.brings (waiting.brings_elapse _)).rests_settle hσ
  have hsystem : (shortJoin σ S task ms).2.system =
      awaitJoin σ waiting S.system.joiners.length ms := by
    refine (congrArg (fun result => result.2.system)
      (h.beginJoin_eq hσ ha hx hr hzero _)).trans ?_
    rw [if_neg hs]
    dsimp only [Session.waitFor]
    rw [answer?_joinWaiting]
    rfl
  rw [hsystem, hrests.settle_eq hσ, h.awaitJoin_waiting hσ (congrArg Prod.snd hjoin)]
  rintro (hlt | hfinished)
  · exact absurd hlt (Nat.lt_irrefl _)
  · exact hs (hfinished r hr)

/-- **The two joins answer the same**, and leave the systems apart by marks and the deadline: both
find the record finished, or both are left waiting. -/
theorem Settled.join_deferred (hname : ∀ e ∈ S.pending, e.name ≠ name) {ms : Nat} (hms : ms ≠ 0)
    (hintime : r.status ≠ .finished →
      (Session.step σ S (.joinWithin task (.ms ms) (some name))).2.system.InTime x
        (S.system.clock + ms)) :
    let bounded := Session.step σ S (.joinWithin task (.ms ms) (some name))
    let blocking := Session.step σ S (.join task name)
    bounded.1 = blocking.1 ∧
      Abreast (Deferral.Apart ⟨S.system.joiners.length, x, S.system.clock + ms⟩) bounded.2
        blocking.2 ∧
      (r.status = .finished → ∃ j ∈ bounded.2.system.joiners[S.system.joiners.length]?,
        j.submission = x ∧ j.Returned) := by
  intro bounded blocking
  have hleft : bounded.2.Settled := h.step hσ _
  have hright : blocking.2.Settled := h.step hσ _
  have hzero : some (Patience.ms ms) ≠ some (.ms 0) := by simpa using hms
  have hnone : (none : Option Patience) ≠ some (.ms 0) := by simp
  have hshort {n : Nat} (hs : (Patience.ms ms).short? = some n) : n = ms := by
    simp only [Patience.short?, Option.ite_none_right_eq_some, Option.some.injEq] at hs
    exact hs.2.symm
  by_cases hs : r.status = .finished
  · have hexecute : execute σ S (.joinWithin task (.ms ms) (some name)) =
        (joinAnswer (S.system.outcome x),
          { S with system := S.system.joinAnswered a x (some (S.system.clock + ms)) }) := by
      simp only [execute, boundedJoin]
      cases hpatience : (Patience.ms ms).short? with
      | none => exact h.join_of_finished hσ ha hx hr hname hs hzero
      | some n =>
        obtain rfl := hshort hpatience
        exact h.shortJoin_of_finished hσ ha hx hr hs hms
    have hbounded : bounded = _ := step_of_rests hσ hexecute (h.rests.joinAnswered a x _)
    have hblocking : blocking = _ := step_of_rests hσ
      (h.join_of_finished hσ ha hx hr hname hs hnone) (h.rests.joinAnswered a x _)
    rw [hbounded] at hleft ⊢
    rw [hblocking] at hright ⊢
    refine ⟨rfl, ⟨⟨Deferral.apart_joinAnswered S.system a x _, rfl, rfl, rfl⟩, hleft, hright⟩,
      fun _ => ⟨_, List.getElem?_concat_length, rfl, S.system.outcome x, rfl, ?_⟩⟩
    exact System.outcome_ne_timeout S.system x
  · have hexecute : execute σ S (.joinWithin task (.ms ms) (some name)) =
        (.pending,
          { S with
            system := S.system.joinWaiting a x (some (S.system.clock + ms))
            pending := ⟨name, task, S.system.joiners.length⟩ :: S.pending }) := by
      simp only [execute, boundedJoin]
      cases hpatience : (Patience.ms ms).short? with
      | none => exact h.join_of_unfinished hσ ha hx hr hname hs hzero
      | some n =>
        -- its time would be over by now
        obtain rfl := hshort hpatience
        have hnow := hintime hs
        simp only [Session.step, execute, boundedJoin, hpatience] at hnow
        exact absurd hnow (h.shortJoin_of_unfinished hσ ha hx hr hs hms)
    have hbounded : bounded = _ := step_of_rests hσ hexecute (h.rests.joinWaiting a x _)
    have hblocking : blocking = _ := step_of_rests hσ
      (h.join_of_unfinished hσ ha hx hr hname hs hnone) (h.rests.joinWaiting a x _)
    rw [hbounded] at hleft ⊢
    rw [hblocking] at hright ⊢
    exact ⟨rfl, ⟨⟨Deferral.apart_joinWaiting S.system a x _, rfl, rfl, rfl⟩, hleft, hright⟩,
      fun hfinished => absurd hfinished hs⟩

end Join

/-- Where there is nothing to join, all joins answer the same at once. -/
theorem execute_of_unjoined (hname : ∀ e ∈ S.pending, e.name ≠ name)
    (hnone : S.joined? (.join task name) = none) (patience : Patience) :
    execute σ S (.joinWithin task patience (some name)) = execute σ S (.join task name) := by
  obtain ⟨answer, hanswer⟩ : ∃ answer, ∀ limit next,
      beginJoin σ S task (fun a => S.system.joinFor a limit) next = (answer, S) := by
    unfold beginJoin onTask
    replace hnone : (S.system.findTask? task).bind (fun a => (S.system.submissions a).head?) =
      none := hnone
    cases ha : S.system.findTask? task with
    | none => exact ⟨.refused .noTask, fun _ _ => rfl⟩
    | some a =>
      rw [ha, Option.bind_some] at hnone
      refine ⟨.failed .notSubmitted, fun limit next => ?_⟩
      simp [System.joinFor, System.call, hnone]
  have hfree : ¬(S.pending.any fun j => j.name == name) = true := by simpa using hname
  have hnamed (limit : Option Patience) :
      (namedJoin σ S name task fun a => S.system.joinFor a limit) = (answer, S) := by
    unfold namedJoin
    rw [if_neg hfree]
    exact hanswer limit _
  refine Eq.trans ?_ (hnamed none).symm
  simp only [execute, boundedJoin]
  cases patience.short? with
  | none => exact hnamed (some patience)
  | some n => exact hanswer (some (.ms n)) _

/-- A join with all the time there is has no deadline. -/
theorem execute_of_max (σ : Schedule α) (S : Session α) (task name : String) :
    execute σ S (.joinWithin task .max (some name)) = execute σ S (.join task name) := by
  have hjoin (a : Nat) : S.system.joinWithin a .max = S.system.join a := by
    simp only [System.joinWithin, System.join, System.joinFor, System.call]
    rfl
  simp only [execute, boundedJoin, Patience.short?, hjoin]

theorem reports_of_execute {c c' : Command α} (he : execute σ S c = execute σ S c')
    (quiet log : Bool) (rest : List (Command α)) :
    S.reports σ quiet log (c :: rest) = S.reports σ quiet log (c' :: rest) := by
  rw [reports_cons, reports_cons, Session.step, Session.step, he]

/-- **A join with a deadline, and all commands after it, report the same as one without.** -/
theorem Settled.reports_deferred (h : S.Settled) (hσ : Schedule.Diligent σ)
    (hsees : Schedule.SeesThreads σ) (after : List (Command α)) {patience : Patience}
    (hsome : patience ≠ .ms 0) (hname : ∀ e ∈ S.pending, e.name ≠ name)
    (hintime : ∀ ms x r, patience = .ms ms → S.joined? (.join task name) = some x →
      S.system.record? x = some r → r.status ≠ .finished → ∀ k ≤ after.length,
        ((Session.step σ S (.joinWithin task patience (some name))).2.after σ
          (after.take k)).system.InTime x (S.system.clock + ms))
    (quiet log : Bool) :
    S.reports σ quiet log (.joinWithin task patience (some name) :: after) =
      S.reports σ quiet log (.join task name :: after) := by
  cases hx : S.joined? (.join task name) with
  | none => exact reports_of_execute (execute_of_unjoined hname hx patience) quiet log after
  | some x =>
    cases patience with
    | max => exact reports_of_execute (execute_of_max σ S task name) quiet log after
    | ms ms =>
      have hms : ms ≠ 0 := fun hzero => hsome (by rw [hzero])
      obtain ⟨a, ha, hxa⟩ := Option.bind_eq_some_iff.mp hx
      obtain ⟨r, hr⟩ := h.occurs.record_of_owned (List.mem_of_mem_head? hxa)
      obtain ⟨hanswer, habreast, hreturned⟩ := h.join_deferred hσ ha hxa hr hname hms
        fun hs => hintime ms x r rfl hx hr hs 0 (Nat.zero_le _)
      have hlater : ∀ k ≤ after.length,
          ((Session.step σ S (.joinWithin task (.ms ms) (some name))).2.after σ
            (after.take k)).system.InTime x (S.system.clock + ms) := by
        intro k hk
        by_cases hs : r.status = .finished
        · obtain ⟨j, hj, rfl, hanswered⟩ := hreturned hs
          have hbrings := habreast.left.brings_after hσ (after.take k)
          exact habreast.left.occurs.inTime hbrings hj hanswered _
        · exact hintime ms x r rfl hx hr hs k hk
      have hbeside : Beside (fun s t => s.forget S.system.joiners.length =
          t.forget S.system.joiners.length) S S := ⟨rfl, rfl, rfl, rfl⟩
      have hreport := hbeside.report_eq (habreast.toBeside.mono (·.same))
      have hrest := habreast.reports_deferred hσ hsees after hlater quiet log
      rw [reports_cons, reports_cons, hanswer, hreport, hrest]

/-- **A command that runs out of time marks nothing.** -/
theorem Settled.unmarked_of_timeout (h : S.Settled) (hσ : Schedule.Diligent σ) {c : Command α}
    (htimeout : (Session.step σ S c).1.failure? = some .timeout) :
    let R := (Session.step σ S c).2
    (∀ x, R.system.record? x = S.system.record? x) ∧
      ∀ a, R.system.canRelease a = S.system.canRelease a := by
  intro R
  have hunmoved : S.system.Unmoved R.system :=
    (h.failed_step hσ htimeout).unmoved.resolve_right fun hpanicked => by cases hpanicked.1
  have hqueues (i : Nat) :
      R.system.pools[i]?.map (·.queue) = S.system.pools[i]?.map (·.queue) := by
    have hmap := congrArg (List.map fun p : Pool α => p.queue) hunmoved.pools
    rw [List.map_map, List.map_map] at hmap
    rw [← List.getElem?_map, ← List.getElem?_map]
    exact congrArg (·[i]?) hmap
  have hspent (x : Submission) : R.system.isSpent x = S.system.isSpent x := by
    unfold System.isSpent
    rcases map_eq_cases (hqueues x.pool) with ⟨hp, hq⟩ | ⟨p, q, hp, hq, hsame⟩ <;> rw [hp, hq]
    dsimp only
    rw [hsame]
  refine ⟨fun x => ?_, fun a => ?_⟩
  · unfold System.record?
    rcases map_eq_cases (hqueues x.pool) with ⟨hp, hq⟩ | ⟨p, q, hp, hq, hsame⟩ <;> rw [hp, hq]
    exact congrArg (·.get? x.ticket) hsame
  · rw [System.canRelease, System.canRelease, System.submissions, System.submissions,
      hunmoved.tasks, funext hspent]

/-- **A deadline that does not pass is not seen.**  One join of a script is replaced by a bounded
one, under the same name, which is free.  If it has any time at all, and the deadline does not pass
before the submission finishes, all reports are the same: on the join itself, and on every command
after it.  A submission that has finished before is in time whatever the deadline is, and a join
with all the time there is has none.  Threads go first as before, for a schedule that sees nothing
but threads does not see a mark.

A command that runs out of time leaves every record as it was, and every task as releasable.  And
whatever record is marked, a join that has not run out of time has marked it: one that has returned,
or that cannot but return, because it has no deadline or finds the record finished.  So a task is
released only when from each of its submissions a join has returned. -/
theorem deadline_is_unseen (hσ : Schedule.Diligent σ) (hsees : Schedule.SeesThreads σ)
    (processors : Nat) (before after : List (Command α)) (task name : String)
    (patience : Patience) (hsome : patience ≠ .ms 0)
    (hname : ∀ e ∈ ((start processors).after σ before).pending, e.name ≠ name)
    (hintime : ∀ ms x r, patience = .ms ms →
      let S := (start processors).after σ before
      S.joined? (.join task name) = some x → S.system.record? x = some r → r.status ≠ .finished →
      ∀ k ≤ after.length,
        ((Session.step σ S (.joinWithin task patience (some name))).2.after σ
          (after.take k)).system.InTime x (S.system.clock + ms))
    (quiet log : Bool) :
    Script.runBy processors σ
          ⟨before ++ .joinWithin task patience (some name) :: after, quiet, log⟩ =
        Script.runBy processors σ ⟨before ++ .join task name :: after, quiet, log⟩ ∧
      (∀ (commands : List (Command α)) (c : Command α),
        let S := (start processors).after σ commands
        let R := (Session.step σ S c).2
        (Session.step σ S c).1.failure? = some .timeout →
          (∀ x, R.system.record? x = S.system.record? x) ∧
            ∀ a, R.system.canRelease a = S.system.canRelease a) ∧
      ∀ p : Program α, p.Reachable →
        (∀ x r, p.system.record? x = some r → r.joined = true →
          ∃ j ∈ p.system.joiners, j.submission = x ∧ j.Vouches r) ∧
        ∀ a, p.IsFree a → p.system.canRelease a = true →
          ∀ x ∈ p.system.submissions a, p.HasReturned x := by
  have hS (commands : List (Command α)) : ((start processors).after σ commands).Settled :=
    (Settled.start processors).after hσ commands
  have hreports := (hS before).reports_deferred hσ hsees after hsome hname hintime quiet log
  refine ⟨reports_replace before after hreports,
    fun commands c htimeout => (hS commands).unmarked_of_timeout hσ htimeout,
    fun p hp => ⟨fun x r hr hjoined => ?_, fun a hfree hcan x hx => ?_⟩⟩
  · obtain ⟨n, j, hj, hsubmission, hvouches⟩ := hp.marked.vouched x r hr hjoined
    exact ⟨j, List.mem_of_getElem? hj, hsubmission, hvouches⟩
  · exact (hp.isSpent_iff hfree hx).mp (List.all_eq_true.mp hcan x hx)

/-- A task whose body waits at a gate. -/
def gated : List (Command Nat) :=
  [.buildPool "pool" { threads := some 1 }, .createTask "task" ⟨.const 7, .always, .never, 0⟩,
    .submit "pool" "task"]

/-- Two joins wait for it, and one of them is asked too early; then the gate opens. -/
def collected : List (Command Nat) :=
  [.join "task" "other", .collect "join", .openGate "task" none, .release "task",
    .collect "join", .collect "other", .release "task"]

/-- Half a second is enough for the first join, and nobody sees that it marks its record later than
a join without a deadline would.  150 milliseconds are not enough. -/
theorem half_a_second_is_unseen :
    let bounded := Command.joinWithin "task" (.ms 500) (some "join")
    let blocking := Command.join "task" "join"
    let hurried := Command.joinWithin "task" (.ms 150) (some "join")
    let marked (c : Command Nat) :=
      (((start 1).after System.bodiesFirst (gated ++ [c])).system.record? ⟨0, 0, 0⟩).map
        (·.joined)
    marked bounded = some false ∧ marked blocking = some true ∧
      Script.runBy 1 System.bodiesFirst ⟨gated ++ bounded :: collected, false, true⟩ =
        Script.runBy 1 System.bodiesFirst ⟨gated ++ blocking :: collected, false, true⟩ ∧
      ((Script.runBy 1 System.bodiesFirst ⟨gated ++ hurried :: collected, false, true⟩)[5]?).map
        (·.answer.failure?) = some (some .timeout) := by
  intro bounded blocking hurried marked
  have hjoined : ((start 1).after System.bodiesFirst gated).joined? blocking =
      some ⟨0, 0, 0⟩ := by
    decide
  have hintime : ∀ k ≤ collected.length,
      ((Session.step System.bodiesFirst ((start 1).after System.bodiesFirst gated) bounded).2.after
        System.bodiesFirst (collected.take k)).system.InTime ⟨0, 0, 0⟩ 500 := by
    decide
  have hunseen := deadline_is_unseen System.bodiesFirst_diligent System.bodiesFirst_seesThreads
    1 gated collected "task" "join" (.ms 500) (by decide) (by decide)
    (fun ms x r hms hx _ _ k hk => by
      obtain rfl := Patience.ms.inj hms
      obtain rfl := Option.some.inj (hx.symm.trans hjoined)
      exact hintime k hk) false true
  exact ⟨by decide, by decide, hunseen.1, by decide⟩

end Session
end WorkerPool
