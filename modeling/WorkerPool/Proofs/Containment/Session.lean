/-
# A panic is contained

Two scripts are the same but for one run of one task, which panics in the second where it would
return a value.  Under the same schedule the two sessions go side by side, apart by the mishap that
this panic is (`Mishap.Alongside.step`).  So every report is the same
(`Session.panic_is_contained`), with these exceptions: the command in which the run ends tells of
the panic, in one more event if the pool has a handler and in one more line of its log; and from
then on a join that belongs to the submission of that run answers that its body panicked.
-/
import WorkerPool.Proofs.Containment.Moves
import WorkerPool.Proofs.Lockstep.Session
import WorkerPool.Proofs.LogLines
import WorkerPool.Proofs.Failures
import Mathlib.Data.List.Sort

namespace WorkerPool

/-! ## 1. What has happened is not taken back -/

namespace System

variable {α : Type} {s s' : System α}

theorem events_submit (s : System α) (i a : Nat) : (s.submit i a).2.events = s.events := by
  obtain ⟨_, _, he⟩ := s.submit_frame i a
  rw [he]

theorem events_suffix_endBody (s : System α) (i w : Nat) (k : Ticket) (job : Job) (run : Nat) :
    s.events <:+ (s.endBody i w k job run).events := by
  unfold endBody
  split
  · next p t _ _ =>
    split
    · rw [reportPanic_eq]
      exact List.suffix_append _ _
    · obtain ⟨_, _, he⟩ := s.evaluate_frame p w t run
      have hevaluate : (s.evaluate p w t run).2.events = s.events := by rw [he]
      exact hevaluate ▸ List.suffix_rfl
  · exact List.suffix_rfl

theorem Works.events_suffix {i w : Nat} (h : s.Works i w s') : s.events <:+ s'.events := by
  cases h with
  | idle => exact List.suffix_rfl
  | look hw hlooks => exact List.suffix_rfl
  | enter hw =>
    unfold enterBody
    split
    · exact List.suffix_cons _ _
    · exact List.suffix_rfl
  | leave hw => exact s.events_suffix_endBody _ _ _ _ _
  | finish hw => exact List.suffix_rfl

theorem events_suffix_perform (s : System α) (m : Move) : s.events <:+ (s.perform m).events := by
  cases m with
  | worker i w => exact (s.works_worker i w).events_suffix
  | joiner n =>
    obtain ⟨_, _, he⟩ := (s.waits_joiner n).frame
    exact he ▸ List.suffix_rfl
  | shutdown i => exact List.suffix_rfl

end System

namespace Program

variable {α : Type} {p q : Program α}

theorem events_suffix_act (p : Program α) (a : Action α) :
    p.system.events <:+ (p.act a).system.events := by
  cases a with
  | submit i a => exact (p.system.events_submit i a) ▸ List.suffix_rfl
  | join a limit => exact (p.system.events_call a limit) ▸ List.suffix_rfl
  | release a =>
    obtain ⟨_, _, he⟩ := p.release_frame a
    exact he ▸ List.suffix_rfl
  | detach a =>
    obtain ⟨_, _, he⟩ := p.detach_frame a
    exact he ▸ List.suffix_rfl
  | giveBack l =>
    obtain ⟨_, he⟩ := p.giveBack_frame l
    exact he ▸ List.suffix_rfl
  | shutdown i => exact (p.system.events_shutdown i) ▸ List.suffix_rfl
  | move m => exact p.system.events_suffix_perform m
  | addPool _ _ => exact List.suffix_rfl
  | addTask _ _ => exact List.suffix_rfl
  | dropPool _ => exact List.suffix_rfl
  | refuseThreads _ => exact List.suffix_rfl
  | openGate _ _ => exact List.suffix_rfl
  | elapse _ => exact List.suffix_rfl

theorem Leads.events_suffix (h : Leads p q) : p.system.events <:+ q.system.events := by
  induction h with
  | refl => exact List.suffix_rfl
  | step a _ _ ih => exact ih.trans (events_suffix_act _ a)

end Program

/-- Events only grow in number. -/
theorem System.Brings.events_suffix {α : Type} {s s' : System α} (h : s.Brings s') :
    s.events <:+ s'.events := by
  obtain ⟨q, hq, rfl, -⟩ := h ⟨s, [], []⟩ rfl rfl
  exact hq.events_suffix

/-! ## 2. Steps -/

namespace Mishap

open Session (Abreast Beside Same)

variable {α : Type} {m m' : Mishap α} {s₀ s s' t t' : System α} {schedule : Schedule α}
  {S T : Session α}

/-- Since `s₀`, where the mishap was `m`, the first system has come to `s`, and the two are apart
by what has become of the mishap. -/
structure Parted (m : Mishap α) (s₀ s t : System α) : Prop where
  brings : s₀.Brings s
  apart : ∃ m', m.Becomes s₀ s m' ∧ m'.Apart s t

namespace Parted

/-- An operation that ends no run. -/
theorem operate (h : m.Parted s₀ s t) (hs : s.Brings s')
    (hended : ∀ {a run}, s'.HasEnded a run → s.HasEnded a run)
    (happart : ∀ m' : Mishap α, m'.Apart s t → m'.Apart s' t') : m.Parted s₀ s' t' := by
  obtain ⟨m', hbecomes, hm'⟩ := h.apart
  exact ⟨h.brings.trans hs, m', hbecomes.trans h.brings (.same hended) hs, happart m' hm'⟩

variable (hs₀ : s₀.Occurs) (hm : m.Known s₀)

include hs₀ hm

theorem settle (h : m.Parted s₀ s t) (ht : t.Occurs) (hdiligent : Schedule.Diligent schedule)
    (hschedule : Schedule.IgnoresPanics schedule) :
    m.Parted s₀ (s.settle schedule) (t.settle schedule) := by
  obtain ⟨m', hbecomes, hm'⟩ := h.apart
  obtain ⟨m'', hbecomes', hsettled⟩ := hm'.settle (hs₀.brings h.brings) ht
    (hbecomes.known hm hs₀ h.brings) hdiligent hschedule
  have hsettles := s.brings_settle schedule
  exact ⟨h.brings.trans hsettles, m'', hbecomes.trans h.brings hbecomes' hsettles, hsettled⟩

/-- An operation, after which both settle. -/
theorem operate_settle (h : m.Parted s₀ s t) (hs : s.Brings s') (ht : t.Still)
    (ht' : t.Brings t') (hended : ∀ {a run}, s'.HasEnded a run → s.HasEnded a run)
    (happart : ∀ m' : Mishap α, m'.Apart s t → m'.Apart s' t')
    (hdiligent : Schedule.Diligent schedule) (hschedule : Schedule.IgnoresPanics schedule) :
    m.Parted s₀ (s'.settle schedule) (t'.settle schedule) :=
  (h.operate hs hended happart).settle hs₀ hm (ht.occurs.brings ht') hdiligent hschedule

end Parted

/-- The end of a task ends no run. -/
theorem hasEnded_release {a b run : Nat} (hended : (s.release a).2.HasEnded b run) :
    s.HasEnded b run :=
  hended.congr (s.runs_release a)
    (by simpa [Function.comp_def] using congrArg (List.map Prod.fst) (s.workers_release a))

theorem hasEnded_detach {a b run : Nat} (hended : (s.detach a).HasEnded b run) :
    s.HasEnded b run :=
  hended.congr (s.runs_detach a)
    (by simpa [Function.comp_def] using congrArg (List.map Prod.fst) (s.workers_detach a))

/-- Commands that join nothing. -/
theorem bond (hs₀ : s₀.Occurs) (hm : m.Known s₀) (hdiligent : Schedule.Diligent schedule)
    (hschedule : Schedule.IgnoresPanics schedule) :
    Bond schedule schedule (fun _ => True) (m.Parted s₀) where
  left := hdiligent
  right := hdiligent
  alike h := by
    obtain ⟨m', -, hm'⟩ := h.apart
    exact hm'.alike
  ok _ _ _ := trivial
  addPool h id plan := h.operate (System.brings_addPool _ id plan)
    ((hs₀.brings h.brings).hasEnded_act (.addPool id plan) (·.addPool id plan)
      (fun _ => rfl) (fun _ => trivial) nofun)
    fun _ happart => happart.addPool id plan
  addTask h id body := h.operate (System.brings_addTask _ id body)
    ((hs₀.brings h.brings).hasEnded_act (.addTask id body) (·.addTask id body)
      (fun _ => rfl) (fun _ => trivial) nofun)
    fun _ happart => happart.addTask id body
  refuse h refusal := h.operate (System.brings_refuseThreads _ refusal)
    ((hs₀.brings h.brings).hasEnded_act (.refuseThreads refusal)
      ({ · with refusal }) (fun _ => rfl) (fun _ => trivial) nofun)
    fun _ happart => happart.refuseThreads refusal
  release _ _ h a hfree := by
    obtain ⟨m', -, hm'⟩ := h.apart
    exact ⟨(hm'.release a).1, h.operate (System.brings_release hfree) hasEnded_release
      fun _ happart => (happart.release a).2⟩
  detach h a hfree := h.operate (System.brings_detach hfree) hasEnded_detach
    fun _ happart => happart.detach a
  submit {s t} hs ht h i a _ := by
    obtain ⟨m', -, hm'⟩ := h.apart
    exact ⟨(hm'.submit i a).1, h.operate_settle hs₀ hm (s.brings_submit i a) ht
      (t.brings_submit i a)
      (hs.occurs.hasEnded_act (.submit i a) (fun s => (s.submit i a).2)
        (fun _ => rfl) (fun _ => trivial) nofun)
      (fun _ happart => (happart.submit i a).2) hdiligent hschedule⟩
  shutdown {s t} hs ht h i _ := by
    obtain ⟨m', -, hm'⟩ := h.apart
    exact ⟨(hm'.shutdown i).1, h.operate_settle hs₀ hm (s.brings_shutdown i) ht
      (t.brings_shutdown i)
      (hs.occurs.hasEnded_act (.shutdown i) (fun s => (s.shutdown i).2)
        (fun _ => rfl) (fun _ => trivial) nofun)
      (fun _ happart => (happart.shutdown i).2) hdiligent hschedule⟩
  dropPool {s t} hs ht h i _ := h.operate_settle hs₀ hm (s.brings_dropPool i) ht
    (t.brings_dropPool i)
    (hs.occurs.hasEnded_act (.dropPool i) (·.dropPool i)
      (fun _ => rfl) (fun _ => trivial) nofun)
    (fun _ happart => happart.dropPool i) hdiligent hschedule
  openGate {s t} hs ht h a run _ := h.operate_settle hs₀ hm (s.brings_openGate a run) ht
    (t.brings_openGate a run)
    (hs.occurs.hasEnded_act (.openGate a run) (·.openGate a run)
      (fun _ => rfl) (fun _ => trivial) nofun)
    (fun _ happart => happart.openGate a run) hdiligent hschedule

/-- No run has ended since `s₀`, and the mishap is what it was. -/
structure Kept (m : Mishap α) (s₀ s t : System α) : Prop where
  ended : ∀ {a run}, s.HasEnded a run → s₀.HasEnded a run
  apart : m.Apart s t

/-- Commands that join a submission. -/
theorem joinable (m : Mishap α) (s₀ : System α) : Joinable m.rereads (m.Kept s₀) where
  alike h := h.apart.alike
  errors _ _ := rfl
  joiners h := h.apart.joiners
  outcome h _ _ _ _ := h.apart.outcome_eq _
  mark h x :=
    ⟨fun hended => h.ended (hended.congr rfl
        (map_modify_of_eq (g := fun p : Pool α => p.join x.ticket) (fun _ => rfl) _ x.pool)),
      h.apart.blindly x.pool (Pool.blind_join _) (Pool.heedless_join _)⟩
  rejoin h clock joiners :=
    ⟨fun hended => h.ended (hended.congr rfl rfl), h.apart.rejoin clock joiners⟩

/-- Two sessions after the same commands, apart by a mishap. -/
structure Alongside (m : Mishap α) (S T : Session α) : Prop where
  abreast : Abreast m.Apart S T
  known : m.Known S.system
  struck : m = ahead m.task m.run ∨ ∃ s₀, Struck m.task m.run s₀ S.system m

/-- A command that joins nothing has no answer to read. -/
theorem joined?_eq_none {c : Command α} (hc : c.isJoin = false) (S : Session α) :
    S.joined? c = none := by
  cases c <;> first | rfl | cases hc

/-- **One command, carried out in both.** -/
theorem Alongside.step (h : m.Alongside S T) (hdiligent : Schedule.Diligent schedule)
    (hschedule : Schedule.IgnoresPanics schedule) (c : Command α) :
    ∃ m', m.Becomes S.system (Session.step schedule S c).2.system m' ∧
      m'.Alongside (Session.step schedule S c).2 (Session.step schedule T c).2 ∧
      (Session.step schedule T c).1 = (Session.step schedule S c).1.reread
        (Joinable.through m.rereads (S.joined? c)) := by
  have hleft := h.abreast.left.step hdiligent c
  have hright := h.abreast.right.step hdiligent c
  have hbrings := h.abreast.left.brings_step hdiligent c
  -- what is left of each case is how the systems compare
  have halongside {m' : Mishap α}
      (hbecomes : m.Becomes S.system (Session.step schedule S c).2.system m')
      (hbeside : Beside m'.Apart (Session.step schedule S c).2 (Session.step schedule T c).2) :
      m'.Alongside (Session.step schedule S c).2 (Session.step schedule T c).2 := by
    refine ⟨⟨hbeside, hleft, hright⟩, hbecomes.known h.known h.abreast.left.occurs hbrings, ?_⟩
    obtain ⟨htask, hrun⟩ := hbecomes.run_eq
    rcases hbecomes with ⟨rfl, -⟩ | ⟨-, hstruck⟩
    · exact h.struck.imp id fun ⟨s₀, hs₀⟩ => ⟨s₀, hs₀.later hbrings⟩
    · exact Or.inr ⟨S.system, htask.symm ▸ hrun.symm ▸ hstruck⟩
  cases hc : c.isJoin with
  | false =>
    have hparted : Abreast (m.Parted S.system) S T :=
      ⟨h.abreast.toBeside.mono fun happart => ⟨.refl _, m, .refl _ _, happart⟩, h.abreast.left,
        h.abreast.right⟩
    have hbond := bond h.abreast.left.occurs h.known hdiligent hschedule
    have hsame := hbond.execute hparted hc trivial
    obtain ⟨m', hbecomes, hm'⟩ := hsame.session.system.apart
    refine ⟨m', hbecomes, halongside hbecomes (hsame.session.mono fun _ => hm'), ?_⟩
    rw [joined?_eq_none hc]
    exact hsame.answer.symm.trans (Answer.reread_id _).symm
  | true =>
    have hkept : Abreast (m.Kept S.system) S T :=
      ⟨h.abreast.toBeside.mono fun happart => ⟨id, happart⟩, h.abreast.left, h.abreast.right⟩
    have hread := ((joinable m S.system).bond hdiligent hdiligent).execute hkept hc trivial
    have hS : (Session.step schedule S c).2 = (Session.execute schedule S c).2 :=
      congrArg (fun s => { (Session.execute schedule S c).2 with system := s })
        (hread.left.settle_eq hdiligent)
    have hT : (Session.step schedule T c).2 = (Session.execute schedule T c).2 :=
      congrArg (fun s => { (Session.execute schedule T c).2 with system := s })
        (hread.right.settle_eq hdiligent)
    have hbecomes : m.Becomes S.system (Session.step schedule S c).2.system m :=
      .same fun hended => hread.session.system.ended (hS ▸ hended)
    exact ⟨m, hbecomes, halongside hbecomes (by rw [hS, hT]; exact hread.session.mono (·.apart)),
      hread.answer⟩

end Mishap

/-! ## 3. What a panic leaves the same -/

/-- All that the threads, the counters and the records of two systems show is the same, and so are
the values of all runs; but the submission `lost`, if there is one, has none in the second. -/
structure System.Spared {α : Type} (lost : Option Submission) (s t : System α) : Prop where
  pools : (s.pools.map fun p => (p.face, p.workers, p.standing)) =
    t.pools.map fun p => (p.face, p.workers, p.standing)
  tasks : (s.tasks.map fun b => (b.face, b.runs, s.taskStatus b)) =
    t.tasks.map fun b => (b.face, b.runs, t.taskStatus b)
  records : ∀ x, s.record? x = t.record? x
  values : ∀ x, t.outcome x =
    if lost.map Submission.place = some x.place then .error .taskPanicked else s.outcome x

theorem System.Spared.refl {α : Type} (s : System α) : s.Spared none s :=
  ⟨rfl, rfl, fun _ => rfl, fun _ => rfl⟩

/-- A submission without a value has panicked. -/
theorem System.eq_taskPanicked {α : Type} {s : System α} {x : Submission} {e : Failure}
    (he : s.outcome x = .error e) : e = .taskPanicked := by
  unfold System.outcome at he
  split at he
  · unfold Pool.outcome at he
    split at he
    · cases he
    · exact (Except.error.inj he).symm
  · exact (Except.error.inj he).symm

/-- The lines of a session, if one pool has noted one more. -/
theorem perm_flatMap_set {β : Type} {g : β → List String} {l : List β} {i : Nat} {b c : β}
    {line : String} (hi : l[i]? = some b) (h : (g c).Perm (line :: g b)) :
    ((l.set i c).flatMap g).Perm (line :: l.flatMap g) := by
  obtain ⟨hlt, rfl⟩ := List.getElem?_eq_some_iff.mp hi
  have hl : l.flatMap g = (l.take i).flatMap g ++ (g l[i] ++ (l.drop (i + 1)).flatMap g) := by
    rw [← List.flatMap_cons, ← List.flatMap_append, List.getElem_cons_drop, List.take_append_drop]
  rw [List.set_eq_take_append_cons_drop, if_pos hlt, List.flatMap_append, List.flatMap_cons, hl]
  refine ((h.append_right _).append_left _).trans ?_
  rw [List.cons_append]
  exact List.perm_middle

namespace Mishap

variable {α : Type} {m : Mishap α} {s t : System α} {S T : Session α}

theorem lost_eq_some {x : Submission} :
    m.lost x.pool = some x.ticket.number ↔ m.site.map Submission.place = some x.place := by
  unfold lost
  cases m.site with
  | none => simp
  | some y =>
    show (if y.pool = x.pool then some y.ticket.number else none) = _ ↔ _
    rw [Option.map_some, Option.some.injEq, Submission.place, Submission.place, Prod.mk.injEq]
    split
    · next hpool => simp [hpool]
    · next hpool => simp [hpool]

theorem rereads_eq (x : Submission) (answer : Except Failure (Value α)) :
    m.rereads x answer = match answer with
      | .ok v =>
        if m.site.map Submission.place = some x.place then .error .taskPanicked else .ok v
      | .error e => .error e := by
  cases answer with
  | error e => rfl
  | ok v =>
    show m.reads x (.ok v) = _
    unfold reads
    simp only [lost_eq_some]

theorem Apart.spared (h : m.Apart s t) : s.Spared m.site t where
  pools := h.map_pools fun hpools =>
    Prod.ext hpools.face_eq (Prod.ext hpools.workers_eq hpools.standing_eq)
  tasks := by
    simp only [System.taskStatus_eq_statusOf, funext h.alike.statusOf_eq]
    exact (h.map_tasks fun _ => rfl).symm
  records := h.record?_eq
  values x := by
    rw [h.outcome_eq, rereads_eq]
    cases he : s.outcome x with
    | ok v => rfl
    | error e =>
      rw [System.eq_taskPanicked he]
      exact (ite_self _).symm

/-! ## 4. What is reported -/

/-- What a session has noted, pool by pool and then by its tasks. -/
theorem lines_eq (S : Session α) :
    S.lines = (((S.system.pools ++ S.passing).map fun p => (p.plan.name, p.journal)).flatMap
      fun seen => seen.2.map (·.render seen.1)) ++ S.system.journal.map TaskNote.render := by
  simp only [Session.lines, Session.notes, List.map_flatMap, List.map_map, List.flatMap_map,
    Function.comp_def]

/-- Before the panic, nothing else was noted. -/
theorem Apart.lines_ahead {a run : Nat} (h : (ahead a run).Apart S.system T.system)
    (hpassing : S.passing = T.passing) : T.lines = S.lines := by
  rw [lines_eq, lines_eq, ← hpassing, h.eq_of_ahead]

/-- After it, one line more was noted. -/
theorem Apart.lines_strike {a run w : Nat} {u : System α} {x : Submission} {p : Pool α}
    {b : Task α} (h : (strike a run u x w p b).Apart S.system T.system)
    (hpassing : S.passing = T.passing) {name : String}
    (hname : ∀ q, S.system.pools[x.pool]? = some q → q.plan.name = name) :
    T.lines.Perm ((PoolNote.panicked w x.ticket.number).render name :: S.lines) := by
  have hlost (i : Nat) (hi : i ≠ x.pool) : (strike a run u x w p b).lost i = none :=
    if_neg (Ne.symm hi)
  have hlost' : (strike a run u x w p b).lost x.pool = some x.ticket.number := if_pos rfl
  rcases h.pool_cases x.pool with ⟨hnone, -⟩ | ⟨q, q', hq, hq', hpools⟩
  · exact absurd (h.fresh x.pool (List.getElem?_eq_none_iff.mp hnone)) (by simp [hlost'])
  -- only the journal of that pool is longer
  have hset : T.system.pools.map (fun p => (p.plan.name, p.journal)) =
      (S.system.pools.map fun p => (p.plan.name, p.journal)).set x.pool
        (q'.plan.name, q'.journal) := by
    refine List.ext_getElem? fun i => ?_
    rw [List.getElem?_map, List.getElem?_set, List.getElem?_map, List.length_map]
    have hlt := (List.getElem?_eq_some_iff.mp hq).1
    by_cases hi : i = x.pool
    · subst hi
      rw [hq', if_pos rfl, if_pos hlt]
      rfl
    · rw [if_neg (Ne.symm hi)]
      rcases h.pool_cases i with ⟨hr, hr'⟩ | ⟨r, r', hr, hr', hsame⟩ <;> rw [hr, hr']
      cases hsame with
      | mk r _ =>
        rw [notesOf_of_lost (hlost i hi), hlost i hi]
        rfl
  have hjournal : (q'.journal.map (·.render q'.plan.name)).Perm
      ((PoolNote.panicked w x.ticket.number).render name ::
        q.journal.map (·.render q.plan.name)) := by
    rw [← hname q hq, ← List.map_cons (f := fun n : PoolNote => n.render q.plan.name),
      ← hpools.plan_eq]
    refine List.Perm.map _ ?_
    cases hpools with
    | mk r _ =>
      have hnotes : (strike a run u x w p b).notesOf x.pool =
          (p.journal, .panicked w x.ticket.number :: p.journal) := by
        rw [notesOf, hlost']
        rfl
      rw [hnotes, hlost']
      show (r.journal ++ .panicked w x.ticket.number :: p.journal).Perm
        (.panicked w x.ticket.number :: (r.journal ++ p.journal))
      exact List.perm_middle
  rw [lines_eq, lines_eq, ← hpassing, ← h.journal, List.map_append, List.map_append, hset,
    List.flatMap_append, List.flatMap_append, List.append_assoc, List.append_assoc,
    ← List.cons_append]
  refine List.Perm.append_right _ (perm_flatMap_set (b := (q.plan.name, q.journal)) ?_ hjournal)
  rw [List.getElem?_map, hq]
  rfl

end Mishap

/-- What happened, if some events more are told of. -/
inductive Happenings.Adds {α : Type} (new : List (Event α)) :
    Happenings α → Happenings α → Prop where
  | all (earlier later : List (Event α)) :
      Adds new (.all (earlier ++ later)) (.all (earlier ++ new ++ later))
  | count (n : Nat) : Adds new (.count n) (.count (n + new.length))

/-- The answer of a join whose submission has panicked; no other command answers with a value. -/
def Answer.panicked {α : Type} : Answer α → Answer α
  | .value _ => .failed .taskPanicked
  | answer => answer

/-- On the way from `s` to `s'`, worker `w` of pool `p` ends run number `run` of task `a`, which it
runs for submission `x`. -/
def System.Ends {α : Type} (a run : Nat) (x : Submission) (w : Nat) (p : Pool α)
    (s s' : System α) : Prop :=
  ∃ u : System α, s.Brings u ∧ u.pools[x.pool]? = some p ∧
    p.workers[w]? = some (.executing x.ticket ⟨a⟩ (.past run)) ∧
    (u.perform (.worker x.pool w)).Brings s'

/-- A command takes a session `S` to `S'` and reports `r`; where run number `run` of task `a`, which
is the run of submission `x`, panics with `payload`, it comes to `T'` and reports `r'`. -/
inductive Report.Contained {α : Type} (a run : Nat) (payload : α) (x : Submission) (S : Session α)
    (c : Command α) (S' T' : Session α) (r r' : Report α) : Prop where
  /-- Until the run ends, nothing is different. -/
  | before (hrun : ¬S'.system.HasEnded a run) (hspared : S'.system.Spared none T'.system)
      (hreport : r' = r)
  /-- The command in which it ends tells of the panic. -/
  | ends (hrun : ¬S.system.HasEnded a run) (hended : S'.system.HasEnded a run) (w : Nat)
      (p : Pool α) (hends : System.Ends a run x w p S.system S'.system)
      (hspared : S'.system.Spared (some x) T'.system) (hanswer : r'.answer = r.answer)
      (hview : r'.view = r.view)
      (hevents : Happenings.Adds (p.panicEvents payload) r.happenings r'.happenings)
      (hlog : r'.log = r.log.map fun lines =>
        ((PoolNote.panicked w x.ticket.number).render p.plan.name :: lines).mergeSort
          fun a b => decide (a ≤ b))
  /-- After that, its submission has no value. -/
  | after (hrun : S.system.HasEnded a run) (hspared : S'.system.Spared (some x) T'.system)
      (hreport : r' = { r with
        answer :=
          if (S.joined? c).map Submission.place = some x.place then r.answer.panicked
          else r.answer })

namespace Session

variable {α : Type} {S S' T T' : Session α}

/-- The lines of a log are in order. -/
theorem logSince_eq_of_perm {lines : List String} (h : (S.logSince S').Perm lines) :
    S.logSince S' = lines.mergeSort fun a b => decide (a ≤ b) := by
  have hsorted (l : List String) : (l.mergeSort fun a b => decide (a ≤ b)).Pairwise (· ≤ ·) :=
    List.pairwise_mergeSort' (· ≤ ·) l
  have hlog : (S.logSince S').Pairwise (· ≤ ·) := hsorted _
  exact (h.trans (List.mergeSort_perm lines _).symm).eq_of_pairwise' hlog (hsorted lines)

/-- The log of a step shows the lines that the sessions after it have and those before it had
not. -/
theorem perm_logSince (h : S.NotesStay S') (h' : T.NotesStay T') (old new : List String)
    (hold : T.lines.Perm (old ++ S.lines)) (hnew : T'.lines.Perm (new ++ (old ++ S'.lines))) :
    (T.logSince T').Perm (new ++ S.logSince S') := by
  refine List.perm_iff_count.mpr fun line => ?_
  have hS := List.perm_iff_count.mp h.lines_perm line
  have hT := List.perm_iff_count.mp h'.lines_perm line
  have hcount := List.perm_iff_count.mp hold line
  have hcount' := List.perm_iff_count.mp hnew line
  simp only [List.count_append] at hS hT hcount hcount' ⊢
  omega

/-- So the log is the same, if one session is ahead by the same lines all the time. -/
theorem logSince_congr (h : S.NotesStay S') (h' : T.NotesStay T') (old : List String)
    (hold : T.lines.Perm (old ++ S.lines)) (hnew : T'.lines.Perm (old ++ S'.lines)) :
    T.logSince T' = S.logSince S' :=
  (logSince_eq_of_perm (perm_logSince h h' old [] hold hnew)).trans
    (logSince_eq_of_perm (.refl _)).symm

end Session

/-- What is in front of a list is what is new. -/
theorem newest_front {β : Type} (new older : List β) : newest older (new ++ older) = new := by
  rw [newest, List.length_append, Nat.add_sub_cancel, List.take_left]

namespace Mishap

open Session (Abreast Beside)

variable {α : Type} {m m' : Mishap α} {S S' T T' : Session α} {x : Submission}
  {a run : Nat} {schedule : Schedule α}

/-- The panic has happened before, or is still to come: nothing else happens. -/
theorem Apart.eventsSince_eq (h : m.Apart S.system T.system) (h' : m.Apart S'.system T'.system) :
    T.eventsSince T' = S.eventsSince S' := by
  obtain ⟨new, hS, hT⟩ := h.events
  obtain ⟨new', hS', hT'⟩ := h'.events
  rw [Session.eventsSince, Session.eventsSince, hS, hT, hS', hT', newest_append, newest_append]

/-- The panic happens meanwhile. -/
theorem Apart.eventsSince_strike {w : Nat} {u : System α} {p : Pool α} {b : Task α}
    (h : (ahead a run).Apart S.system T.system)
    (h' : (strike a run u x w p b).Apart S'.system T'.system) (hu : S.system.Brings u) :
    ∃ earlier later, S.eventsSince S' = earlier ++ later ∧
      T.eventsSince T' = earlier ++ p.panicEvents b.body.payload ++ later := by
  obtain ⟨between, hbetween⟩ := hu.events_suffix
  obtain ⟨new, hS', hT'⟩ := h'.events
  have hT : T.system.events = S.system.events := by rw [h.eq_of_ahead]
  have hS' : S'.system.events = new ++ between ++ S.system.events := by
    rw [hS', List.append_assoc, hbetween]
    rfl
  have hT' : T'.system.events =
      new ++ p.panicEvents b.body.payload ++ between ++ S.system.events := by
    rw [hT', List.append_assoc, List.append_assoc, hbetween]
    rfl
  have hpanic : (p.panicEvents b.body.payload).reverse = p.panicEvents b.body.payload := by
    unfold Pool.panicEvents
    split <;> rfl
  refine ⟨between.reverse, new.reverse, ?_, ?_⟩
  · rw [Session.eventsSince, hS', newest_front, List.reverse_append]
  · rw [Session.eventsSince, hT', hT, newest_front, List.reverse_append, List.reverse_append,
      hpanic, List.append_assoc]

/-- After the panic, only the joins of its submission answer in another way. -/
theorem reread_through {j? : Option Submission} (hx : m.site = some x) (answer : Answer α) :
    answer.reread (Joinable.through m.rereads j?) =
      if j?.map Submission.place = some x.place then answer.panicked else answer := by
  cases j? with
  | none =>
    rw [if_neg (by simp)]
    exact answer.reread_id
  | some y =>
    have hplace : m.site.map Submission.place = some y.place ↔
        (some y).map Submission.place = some x.place := by
      rw [hx, Option.map_some, Option.map_some, Option.some.injEq, Option.some.injEq]
      exact eq_comm
    cases answer with
    | value v =>
      show Session.joinAnswer (m.rereads y (.ok v)) = _
      rw [rereads_eq]
      simp only [hplace]
      split <;> rfl
    | _ => exact (ite_self _).symm

/-- Before the panic, all answer alike. -/
theorem reread_of_ahead (h : m = ahead a run) (j? : Option Submission) (answer : Answer α) :
    answer.reread (Joinable.through m.rereads j?) = answer := by
  subst h
  cases j? with
  | none => exact answer.reread_id
  | some y => cases answer <;> rfl

/-- What the second session has noted more, as long as it goes on. -/
theorem strike_lines {u : System α} {w : Nat} {p : Pool α} {b : Task α}
    (h : (strike a run u x w p b).Apart S.system T.system) (hu : u.Occurs)
    (hp : u.pools[x.pool]? = some p) (hbrings : u.Brings S.system)
    (hpassing : S.passing = T.passing) :
    T.lines.Perm ((PoolNote.panicked w x.ticket.number).render p.plan.name :: S.lines) := by
  refine h.lines_strike hpassing fun q hq => ?_
  obtain ⟨q', hq', hplan, -⟩ := (hu.notesStay hbrings).pools x.pool p hp
  obtain rfl := Option.some.inj (hq'.symm.trans hq)
  rw [hplan]

/-- Reports tell no difference while the mishap stays what it is, if the logs do not. -/
theorem Apart.report_eq (h : m.Apart S.system T.system) (h' : m.Apart S'.system T'.system)
    (hlog : T.logSince T' = S.logSince S') (brief log : Bool) (answer : Answer α) :
    Session.report brief log answer T T' = Session.report brief log answer S S' := by
  have hview : T'.view = S'.view := (Session.view_eq h'.alike).symm
  simp only [Session.report, hview, hlog, h.eventsSince_eq h']

/-- What is told of the panic, if it happens meanwhile. -/
theorem Apart.adds_strike {w : Nat} {u : System α} {p : Pool α} {b : Task α}
    (h : (ahead a run).Apart S.system T.system)
    (h' : (strike a run u x w p b).Apart S'.system T'.system) (hu : S.system.Brings u)
    (brief log : Bool) (answer : Answer α) :
    Happenings.Adds (p.panicEvents b.body.payload)
      (Session.report brief log answer S S').happenings
      (Session.report brief log answer T T').happenings := by
  obtain ⟨earlier, later, he, he'⟩ := h.eventsSince_strike h' hu
  simp only [Session.report, he, he']
  cases brief with
  | true =>
    have hcount : Happenings.Adds (p.panicEvents b.body.payload) _ _ :=
      .count (earlier ++ later).length
    simpa [Nat.add_assoc, Nat.add_comm, Nat.add_left_comm] using hcount
  | false => exact .all earlier later

section Contained

variable (h : m.Alongside S T) (h' : m'.Alongside S' T')
  (hbecomes : m.Becomes S.system S'.system m') (hbrings : S.system.Brings S'.system)
  (hS : S.NotesStay S') (hT : T.NotesStay T') {c : Command α} {payload : α}

include h h' hbecomes hS hT

/-- A command before the end of the run. -/
theorem Alongside.contained_before (hbefore : ¬S.system.HasEnded m.task m.run)
    (hafter : ¬S'.system.HasEnded m.task m.run) (brief log : Bool) (answer : Answer α) :
    Report.Contained m.task m.run payload x S c S' T'
      (Session.report brief log answer S S')
      (Session.report brief log
        (answer.reread (Joinable.through m.rereads (S.joined? c))) T T') := by
  obtain ⟨htask, hrun⟩ := hbecomes.run_eq
  have hahead : m = ahead m.task m.run := h.known.mpr hbefore
  have hahead' : m' = ahead m.task m.run := by
    have hnot := h'.known.mpr (htask.symm ▸ hrun.symm ▸ hafter)
    rwa [htask, hrun] at hnot
  have happart := h.abreast.system
  have happart' := h'.abreast.system
  rw [hahead] at happart
  rw [hahead'] at happart'
  have hlog : T.logSince T' = S.logSince S' :=
    Session.logSince_congr hS hT [] (.of_eq (happart.lines_ahead h.abreast.passing))
      (.of_eq (happart'.lines_ahead h'.abreast.passing))
  rw [reread_of_ahead hahead]
  exact .before hafter happart'.spared (happart.report_eq happart' hlog brief log answer)

/-- The command in which the run ends. -/
theorem Alongside.contained_ends (hbefore : ¬S.system.HasEnded m.task m.run)
    (hafter : S'.system.HasEnded m.task m.run)
    (hpayload : ∃ b, S.system.tasks[m.task]? = some b ∧ b.body.payload = payload)
    (hx : m'.site = none ∨ m'.site = some x) (brief log : Bool) (answer : Answer α) :
    Report.Contained m.task m.run payload x S c S' T'
      (Session.report brief log answer S S')
      (Session.report brief log
        (answer.reread (Joinable.through m.rereads (S.joined? c))) T T') := by
  obtain ⟨htask, hrun⟩ := hbecomes.run_eq
  have hahead : m = ahead m.task m.run := h.known.mpr hbefore
  have hstruck : m' ≠ ahead m'.task m'.run := fun he => h'.known.mp he (htask ▸ hrun ▸ hafter)
  obtain ⟨-, u, y, w, p, b, hu, hoccurs, hw, hp, hb, hrest, rfl⟩ :=
    hbecomes.resolve_left fun hnow => hstruck (by rw [hnow.1]; exact hahead)
  obtain rfl : x = y := by simpa [strike, eq_comm] using hx
  obtain ⟨q, hq, hphase⟩ := System.phase?_eq_some.mp hw
  obtain rfl := Option.some.inj (hq.symm.trans hp)
  have hbody : b.body.payload = payload := by
    obtain ⟨b₀, hb₀, rfl⟩ := hpayload
    obtain ⟨b', hb', hlater⟩ := hu.tasksStay _ _ hb₀
    obtain rfl := Option.some.inj (hb'.symm.trans hb)
    rw [hlater.body_eq]
  have hpast := (u.brings_perform (.worker x.pool w)).trans hrest
  have hlines' := strike_lines h'.abreast.system hoccurs hp hpast h'.abreast.passing
  have happart := h.abreast.system
  rw [hahead] at happart
  have hlines := happart.lines_ahead h.abreast.passing
  have hlog := Session.logSince_eq_of_perm
    (Session.perm_logSince hS hT [] [_] (.of_eq hlines) hlines')
  rw [reread_of_ahead hahead]
  refine .ends hbefore hafter w q ⟨u, hu, hp, hphase, hrest⟩ h'.abreast.system.spared rfl
    ?_ (hbody ▸ happart.adds_strike h'.abreast.system hu brief log answer) ?_
  · have hview : T'.view = S'.view := (Session.view_eq h'.abreast.system.alike).symm
    simp only [Session.report, hview]
  · simp only [Session.report, hlog, List.singleton_append]
    cases log <;> rfl

include hbrings

/-- A command after the end of the run. -/
theorem Alongside.contained_after (hbefore : S.system.HasEnded m.task m.run)
    (hx : m'.site = none ∨ m'.site = some x) (brief log : Bool) (answer : Answer α) :
    Report.Contained m.task m.run payload x S c S' T'
      (Session.report brief log answer S S')
      (Session.report brief log
        (answer.reread (Joinable.through m.rereads (S.joined? c))) T T') := by
  have hstruck : m ≠ ahead m.task m.run := fun he => h.known.mp he hbefore
  obtain ⟨rfl, -⟩ := hbecomes.resolve_right fun hnow => hstruck hnow.1
  obtain ⟨s₀, u, y, w, p, b, -, hu, -, hp, -, hrest, he⟩ := h.struck.resolve_left hstruck
  have hsite : m'.site = some y := congrArg Mishap.site he
  obtain rfl : x = y := by simpa [hsite, eq_comm] using hx
  have hpast := (u.brings_perform (.worker x.pool w)).trans hrest
  have hlog : T.logSince T' = S.logSince S' := by
    rw [he] at h h'
    exact Session.logSince_congr hS hT [_]
      (strike_lines h.abreast.system hu hp hpast h.abreast.passing)
      (strike_lines h'.abreast.system hu hp (hpast.trans hbrings) h'.abreast.passing)
  refine .after hbefore (hsite ▸ h'.abreast.system.spared) ?_
  rw [h.abreast.system.report_eq h'.abreast.system hlog, reread_through hsite]
  rfl

/-- **What two reports show of one command**, carried out in both. -/
theorem Alongside.contained
    (hpayload : ∃ b, S.system.tasks[m.task]? = some b ∧ b.body.payload = payload)
    (hx : m'.site = none ∨ m'.site = some x) (brief log : Bool) (answer : Answer α) :
    Report.Contained m.task m.run payload x S c S' T'
      (Session.report brief log answer S S')
      (Session.report brief log
        (answer.reread (Joinable.through m.rereads (S.joined? c))) T T') := by
  by_cases hbefore : S.system.HasEnded m.task m.run
  · exact h.contained_after h' hbecomes hbrings hS hT hbefore hx brief log answer
  by_cases hafter : S'.system.HasEnded m.task m.run
  · exact h.contained_ends h' hbecomes hS hT hbefore hafter hpayload hx brief log answer
  · exact h.contained_before h' hbecomes hS hT hbefore hafter brief log answer

end Contained

/-- **All commands, one after the other.** -/
theorem Alongside.reports (h : m.Alongside S T) (hdiligent : Schedule.Diligent schedule)
    (hschedule : Schedule.IgnoresPanics schedule) (payload : α)
    (hpayload : ∃ b, S.system.tasks[m.task]? = some b ∧ b.body.payload = payload)
    (commands : List (Command α)) :
    ∃ x, (m.site = none ∨ m.site = some x) ∧ ∀ (k : Nat) (c : Command α),
      commands[k]? = some c → ∀ brief log,
        let S₁ := S.after schedule (commands.take k)
        let T₁ := T.after schedule (commands.take k)
        let r := Session.step schedule S₁ c
        let r' := Session.step schedule T₁ c
        Report.Contained m.task m.run payload x S₁ c r.2 r'.2
          (Session.report brief log r.1 S₁ r.2) (Session.report brief log r'.1 T₁ r'.2) := by
  induction commands generalizing m S T with
  | nil =>
    cases hsite : m.site with
    | none => exact ⟨⟨0, ⟨0, 0⟩⟩, Or.inl rfl, fun k c hk => absurd hk (by simp)⟩
    | some x => exact ⟨x, Or.inr rfl, fun k c hk => absurd hk (by simp)⟩
  | cons c rest ih =>
    have hleft := h.abreast.left
    have hright := h.abreast.right
    have hbrings := hleft.brings_step hdiligent c
    obtain ⟨m', hbecomes, h', hanswer⟩ := h.step hdiligent hschedule c
    obtain ⟨htask, hrun⟩ := hbecomes.run_eq
    have hpayload' : ∃ b, (Session.step schedule S c).2.system.tasks[m'.task]? = some b ∧
        b.body.payload = payload := by
      obtain ⟨b, hb, rfl⟩ := hpayload
      obtain ⟨b', hb', hlater⟩ := hbrings.tasksStay _ _ hb
      exact ⟨b', htask ▸ hb', by rw [hlater.body_eq]⟩
    obtain ⟨x, hx, hrest⟩ := ih h' hpayload'
    refine ⟨x, ?_, fun k c' hk brief log => ?_⟩
    · rcases hbecomes with ⟨rfl, -⟩ | ⟨hahead, -⟩
      · exact hx
      · exact Or.inl (by rw [hahead]; rfl)
    · cases k with
      | zero =>
        obtain rfl := Option.some.inj hk
        have hnotes := hleft.notesStay_step hdiligent c
        have hnotes' := hright.notesStay_step hdiligent c
        have hcontained := h.contained (c := c) h' hbecomes hbrings hnotes hnotes' hpayload hx
          brief log (Session.step schedule S c).1
        rw [← hanswer] at hcontained
        exact hcontained
      | succ k =>
        have hcontained := hrest k c' hk brief log
        rw [htask, hrun] at hcontained
        exact hcontained

end Mishap

/-! ## 5. Scripts -/

namespace Session

variable {α : Type} {S : Session α} {schedule : Schedule α} {id : String}

/-- The report on a command of a list, with the session before it and the one after it. -/
theorem reports_getElem? (quiet log : Bool) (S : Session α) (commands : List (Command α))
    (k : Nat) :
    (S.reports schedule quiet log commands)[k]? = commands[k]?.map fun c =>
      let R := S.after schedule (commands.take k)
      report (quiet && k + 1 != commands.length) log (step schedule R c).1 R
        (step schedule R c).2 := by
  induction commands generalizing S k with
  | nil => rfl
  | cons c rest ih =>
    rw [reports_cons]
    cases k with
    | zero =>
      have hbrief : (!rest.isEmpty) = (0 + 1 != (c :: rest).length) := by
        cases rest <;> simp
      rw [hbrief]
      rfl
    | succ k =>
      rw [List.getElem?_cons_succ, List.getElem?_cons_succ, ih]
      have hbrief : (k + 1 != rest.length) = (k + 1 + 1 != (c :: rest).length) := by
        rw [Bool.eq_iff_iff]
        simp
      rw [hbrief]
      rfl

theorem after_take_succ {commands : List (Command α)} {k : Nat} {c : Command α}
    (hk : commands[k]? = some c) :
    S.after schedule (commands.take (k + 1)) =
      (step schedule (S.after schedule (commands.take k)) c).2 := by
  rw [List.take_add_one, hk, after_append]
  rfl

/-- The report on a command of a script, with the session before it and the one after it. -/
theorem runBy_getElem? {processors : Nat} {quiet log : Bool} {commands : List (Command α)}
    {k : Nat} {c : Command α} (hk : commands[k]? = some c) :
    (Script.runBy processors schedule ⟨commands, quiet, log⟩)[k]? =
      some (report (quiet && k + 1 != commands.length) log
        (step schedule ((start processors).after schedule (commands.take k)) c).1
        ((start processors).after schedule (commands.take k))
        ((start processors).after schedule (commands.take (k + 1)))) := by
  rw [Script.runBy, reports_getElem?, hk, after_take_succ hk]
  rfl

/-- A task with a new id is added, and nobody moves. -/
theorem Settled.step_createTask (h : S.Settled) (hdiligent : Schedule.Diligent schedule)
    (hfree : S.system.findTask? id = none) (body : Body α) :
    Session.step schedule S (.createTask id body) =
      (.done, { S with system := S.system.addTask id body }) := by
  have hrests : (S.system.addTask id body).Rests := h.rests.of_pools rfl h.rests.asleep
  simp only [Session.step, execute, hfree, Session.settle, hrests.settle_eq hdiligent]

end Session

/-- Two systems are apart by a mishap that is still to come, when the task is added. -/
theorem Mishap.apart_addTask {α : Type} (s : System α) (id : String) {body : Body α} {run : Nat}
    (hkind : body.kind.isSubmit = false) (hreturns : body.panics.has run = false) :
    (Mishap.ahead s.tasks.length run).Apart (s.addTask id body)
      (s.addTask id (body.panickingAt run)) where
  pools i := by
    show Option.Rel _ s.pools[i]? s.pools[i]?
    cases s.pools[i]? with
    | none => exact .none
    | some p => exact .some (Mishap.Pools.refl rfl p)
  fresh _ _ := rfl
  target := ⟨_, List.getElem?_concat_length, hreturns, hkind⟩
  tasks := (modify_concat s.tasks ⟨id, body, 0, [], .live⟩ (Task.panickingAt run)).symm
  joiners := by
    refine ((List.map_congr_left fun j _ => ?_).trans (List.map_id _)).symm
    exact Mishap.reread_eq_self fun v _ => by simp [Mishap.lost, Mishap.ahead]
  events := ⟨s.events, (List.append_nil _).symm, (List.append_nil _).symm⟩
  journal := rfl
  clock := rfl
  refusal := rfl
  processors := rfl

/-- A run of a task that is not there yet has not ended. -/
theorem System.not_hasEnded {α : Type} {s s' : System α} (h : s'.Brings s) (run : Nat) :
    ¬s'.HasEnded s.tasks.length run := by
  rintro ⟨⟨t, ht, -⟩, -⟩
  obtain ⟨t', ht', -⟩ := h.tasksStay _ _ ht
  simp at ht'

namespace Session

variable {α : Type} {S : Session α} {schedule : Schedule α} {id : String}

/-- The task is created in both sessions, and its body will panic in the second. -/
theorem Settled.alongside_createTask (h : S.Settled) (hdiligent : Schedule.Diligent schedule)
    (hfree : S.system.findTask? id = none) {body : Body α} {run : Nat}
    (hkind : body.kind.isSubmit = false) (hreturns : body.panics.has run = false) :
    (Mishap.ahead S.system.tasks.length run).Alongside
      (Session.step schedule S (.createTask id body)).2
      (Session.step schedule S (.createTask id (body.panickingAt run))).2 := by
  have hstep (body : Body α) := h.step_createTask hdiligent hfree body
  refine ⟨⟨?_, h.step hdiligent _, h.step hdiligent _⟩, ?_, Or.inl rfl⟩
  · rw [hstep, hstep]
    exact ⟨Mishap.apart_addTask _ id hkind hreturns, rfl, rfl, rfl⟩
  · refine iff_of_true rfl ?_
    rw [hstep]
    rintro ⟨⟨t, ht, hpos, hle⟩, -⟩
    obtain rfl : _ = t := Option.some.inj (List.getElem?_concat_length.symm.trans ht)
    exact absurd (Nat.le_trans hpos hle) (by simp)

/-- **A panic is contained.**  A script creates a task, and one run of it, which does not submit,
gives a value; in a second script, that run panics instead.  Then every report of the second script
is the one of the first, but for those of the command in which the run ends and of the joins that
belong to its submission. -/
theorem panic_is_contained {α : Type} {schedule : Schedule α}
    (hdiligent : Schedule.Diligent schedule) (hschedule : Schedule.IgnoresPanics schedule)
    (processors : Nat) (before after : List (Command α)) {id : String}
    (hfree : ((start processors).after schedule before).system.findTask? id = none)
    {body : Body α} {run : Nat} (hkind : body.kind.isSubmit = false)
    (hreturns : body.panics.has run = false) (quiet log : Bool) :
    let a := ((start processors).after schedule before).system.tasks.length
    let commands := before ++ .createTask id body :: after
    let commands' := before ++ .createTask id (body.panickingAt run) :: after
    ∃ x : Submission, ∀ (k : Nat) (c : Command α), commands[k]? = some c →
      ∃ r r', (Script.runBy processors schedule ⟨commands, quiet, log⟩)[k]? = some r ∧
        (Script.runBy processors schedule ⟨commands', quiet, log⟩)[k]? = some r' ∧
        Report.Contained a run body.payload x
          ((start processors).after schedule (commands.take k)) c
          ((start processors).after schedule (commands.take (k + 1)))
          ((start processors).after schedule (commands'.take (k + 1))) r r' := by
  intro a commands commands'
  have hstart : ((start processors).after schedule before).Settled :=
    (Settled.start processors).after hdiligent before
  have hlength : commands'.length = commands.length := by simp [commands, commands']
  have hstep (body : Body α) := hstart.step_createTask hdiligent hfree body
  have hbase := hstart.alongside_createTask hdiligent hfree hkind hreturns
  obtain ⟨x, -, hrest⟩ := hbase.reports hdiligent hschedule body.payload
    ⟨⟨id, body, 0, [], .live⟩, by rw [hstep]; exact List.getElem?_concat_length, rfl⟩ after
  refine ⟨x, fun k c hk => ?_⟩
  rcases Nat.lt_trichotomy k before.length with hlt | rfl | hgt
  · -- the task is not there yet
    have htake {n : Nat} (hn : n ≤ before.length) : commands'.take n = commands.take n := by
      rw [List.take_append_of_le_length hn, List.take_append_of_le_length hn]
    have hbefore : commands.take (k + 1) = before.take (k + 1) :=
      List.take_append_of_le_length hlt
    have hk' : commands'[k]? = some c := by
      rw [← hk, List.getElem?_append_left hlt, List.getElem?_append_left hlt]
    refine ⟨_, _, runBy_getElem? hk, runBy_getElem? hk', .before ?_ ?_ ?_⟩
    · have hbrings := ((Settled.start processors).after hdiligent
        (before.take (k + 1))).brings_after hdiligent (before.drop (k + 1))
      rw [← after_append, List.take_append_drop] at hbrings
      rw [hbefore]
      exact System.not_hasEnded hbrings run
    · rw [htake hlt]
      exact .refl _
    · rw [htake hlt, htake (Nat.le_of_lt hlt), hlength]
  · -- the task is created
    have hget (c : Command α) : (before ++ c :: after)[before.length]? = some c := by simp
    have hk' : commands'[before.length]? = some (.createTask id (body.panickingAt run)) := hget _
    obtain rfl : c = .createTask id body := Option.some.inj (hk.symm.trans (hget _))
    have htake : commands.take before.length = before := List.take_left
    have htake' : commands'.take before.length = before := List.take_left
    have hview := Session.view_eq hbase.abreast.system.alike
    refine ⟨_, _, runBy_getElem? hk, runBy_getElem? hk', .before ?_ ?_ ?_⟩
    · rw [after_take_succ hk, htake]
      exact hbase.known.mp rfl
    · rw [after_take_succ hk, after_take_succ hk', htake, htake']
      exact hbase.abreast.system.spared
    · rw [after_take_succ hk, after_take_succ hk', htake, htake', hlength]
      rw [hstep, hstep] at hview ⊢
      simp only [report, ← hview]
      rfl
  · -- all further commands
    obtain ⟨j, rfl⟩ : ∃ j, k = before.length + (j + 1) :=
      ⟨k - before.length - 1, by omega⟩
    have htake (c : Command α) : (before ++ c :: after).take (before.length + (j + 1)) =
        before ++ c :: after.take j := by
      rw [List.take_length_add_append, List.take_succ_cons]
    have hget (c : Command α) : (before ++ c :: after)[before.length + (j + 1)]? = after[j]? := by
      rw [List.getElem?_append_right (Nat.le_add_right _ _), Nat.add_sub_cancel_left,
        List.getElem?_cons_succ]
    have hk' : commands'[before.length + (j + 1)]? = some c :=
      (hget _).trans ((hget _).symm.trans hk)
    have hcontained := hrest j c ((hget _).symm.trans hk)
      (quiet && before.length + (j + 1) + 1 != commands.length) log
    refine ⟨_, _, runBy_getElem? hk, runBy_getElem? hk', ?_⟩
    rw [after_take_succ hk, after_take_succ hk', htake, htake, after_append, after_append, hlength]
    exact hcontained

/-- What follows the creation of a task that is submitted once. -/
def submitted : List (Command Nat) :=
  [.submit "pool" "task", .join "task" "join", .release "task"]

/-- One worker runs a body that gives a value, or panics under a handler: the join tells of it, and
the release succeeds all the same. -/
theorem submitted_contains_panic :
    let before : List (Command Nat) :=
      [.buildPool "pool" { threads := some 1, handler := some .reportsThenPanics }]
    let body : Body Nat := ⟨.count, .never, .never, 7⟩
    let commands := before ++ .createTask "task" body :: submitted
    let commands' := before ++ .createTask "task" (body.panickingAt 1) :: submitted
    let reports := Script.runBy 1 System.bodiesFirst ⟨commands, false, true⟩
    let reports' := Script.runBy 1 System.bodiesFirst ⟨commands', false, true⟩
    (∃ x : Submission, ∀ (k : Nat) (c : Command Nat), commands[k]? = some c →
      ∃ r r', reports[k]? = some r ∧ reports'[k]? = some r' ∧
        Report.Contained 0 1 7 x ((start 1).after System.bodiesFirst (commands.take k)) c
          ((start 1).after System.bodiesFirst (commands.take (k + 1)))
          ((start 1).after System.bodiesFirst (commands'.take (k + 1))) r r') ∧
      (reports.map fun r => r.answer.failure?) = [none, none, none, none, none] ∧
      (reports'.map fun r => r.answer.failure?) = [none, none, none, some .taskPanicked, none] := by
  intro before body commands commands' reports reports'
  exact ⟨panic_is_contained System.bodiesFirst_diligent
    System.bodiesFirst_seesThreads.ignoresPanics 1 before submitted (by decide) rfl rfl false true,
    by decide, by decide⟩

end Session
end WorkerPool
