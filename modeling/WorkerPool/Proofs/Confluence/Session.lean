/-
# All schedules answer the same

Two schedules carry out the same script.  No body submits a task or gives the name of its worker.
Then it does not matter which thread goes first: after every command both sessions have settled, and
are the same up to the names of workers (`Session.Abreast.step_renamed`), so every command answers
the same, the joins return the same, and the same events happen in the same order
(`Session.schedules_agree`).

The reason is that after one action of a caller there is work for one worker at most, whoever moves
(`Program.Reachable.underWay_le`).  Time is no matter of schedules either: what it does to a system
where nobody can move is decided (`System.Occurs.settle_elapse`), so bounded joins may as well
expire.
-/
import WorkerPool.Proofs.Confluence.Renamed

namespace WorkerPool

/-! ## 1. Operations settle to the same -/

namespace System

variable {α : Type} {s s' t t' u : System α} {σ τ : Schedule α}

theorem Still.calm_openGate (h : s.Still) (a run : Nat) : (s.openGate a run).Calm := by
  have hrests := h.rests
  obtain ⟨p, hp, -, rfl⟩ := h.occurs
  exact hp.calm_openGate hrests a run

/-- What one action of a caller has made of a system where nobody could move: there is work for one
worker at most, and joins wait. -/
structure Stirred (s : System α) : Prop where
  occurs : s.Occurs
  calm : s.Calm
  patient : s.Patient

/-- An operation that concerns neither joins nor the clock. -/
theorem Still.stirred (h : s.Still) (hbrings : s.Brings s') (hcalm : s'.Calm)
    (huntimed : s'.joiners = s.joiners ∧ s'.clock = s.clock) : s'.Stirred :=
  ⟨h.occurs.brings hbrings, hcalm, h.patient.of_joiners huntimed.1 huntimed.2⟩

/-- **Two schedules settle the same.** -/
theorem Renamed.settle (h : Renamed s t) (hσ : Schedule.Diligent σ) (hτ : Schedule.Diligent τ)
    (hs : s.Stirred) (ht : t.Stirred) (hlocal : (s.settle σ).Local) :
    Renamed (s.settle σ) (t.settle τ) := by
  obtain ⟨ms, hms⟩ := moves_settleWithin hσ s s.budget
  obtain ⟨ns, hns⟩ := moves_settleWithin hτ t t.budget
  exact h.moves hms hns hs.occurs ht.occurs hs.calm ht.calm hs.patient ht.patient
    (.settle hs.occurs hσ) (.settle ht.occurs hτ) hlocal

/-- **Commands that join nothing keep two systems the same up to the names of workers.** -/
theorem bond_renamed (hσ : Schedule.Diligent σ) (hτ : Schedule.Diligent τ) :
    Bond σ τ Local Renamed where
  left := hσ
  right := hτ
  alike := Renamed.alike
  ok hs hbrings hlocal := hlocal.of_brings hs hbrings
  addPool h := h.addPool
  addTask h := h.addTask
  refuse h := h.refuseThreads
  release _ _ h a _ := h.release a
  detach h a _ := h.detach a
  submit := by
    intro s t hs ht h i a hlocal
    obtain ⟨hreply, hsubmitted⟩ := h.submit i a
    have hstirred {s : System α} (hs : s.Still) : (s.submit i a).2.Stirred :=
      hs.stirred (s.brings_submit i a) (hs.rests.calm_submit hs.occurs.poolsSound i a)
        (s.submit_untimed i a)
    exact ⟨hreply, hsubmitted.settle hσ hτ (hstirred hs) (hstirred ht) hlocal⟩
  shutdown := by
    intro s t hs ht h i hlocal
    obtain ⟨hanswer, hshut⟩ := h.shutdown i
    have hstirred {s : System α} (hs : s.Still) : (s.shutdown i).2.Stirred :=
      hs.stirred (s.brings_shutdown i) (hs.rests.calm_shutdown hs.occurs.poolsSound i)
        (s.shutdown_untimed i)
    exact ⟨hanswer, hshut.settle hσ hτ (hstirred hs) (hstirred ht) hlocal⟩
  dropPool := by
    intro s t hs ht h i hlocal
    have hstirred {s : System α} (hs : s.Still) : (s.dropPool i).Stirred :=
      hs.stirred (s.brings_dropPool i) (hs.rests.calm_dropPool hs.occurs.poolsSound i) ⟨rfl, rfl⟩
    exact (h.dropPool i).settle hσ hτ (hstirred hs) (hstirred ht) hlocal
  openGate := by
    intro s t hs ht h a run hlocal
    have hstirred {s : System α} (hs : s.Still) : (s.openGate a run).Stirred :=
      hs.stirred (s.brings_openGate a run) (hs.calm_openGate a run) ⟨rfl, rfl⟩
    exact (h.openGate a run).settle hσ hτ (hstirred hs) (hstirred ht) hlocal

theorem map_reread_id (joiners : List (Joiner α)) :
    joiners.map (·.reread fun _ => id) = joiners :=
  (List.map_congr_left fun j _ => j.reread_id).trans (List.map_id _)

/-- Joins find the same in both systems. -/
theorem joinable_renamed : Joinable (fun _ => id) (Renamed (α := α)) where
  alike := Renamed.alike
  errors _ _ := rfl
  joiners h := by rw [map_reread_id, h.joiners]
  outcome h _ _ _ _ := (h.toMatches.outcome_eq _).symm
  mark h := h.mark
  rejoin h clock joiners := by
    rw [map_reread_id]
    exact h.rejoin clock joiners

end System

namespace Program

variable {α : Type} {p : Program α}

/-- **One body at a time.**  Whatever a caller does where nobody can move, and whoever moves then:
one body at most is under way, as long as none submits a task. -/
theorem Reachable.underWay_le (h : p.Reachable) (hnone : p.leaving = [])
    (hrests : p.system.Rests) {a : Action α} (hpermits : p.Permits a) {ms : List Move}
    {u : System α} (hmoves : (p.act a).system.Moves ms u) (hu : u.Local) : u.underWay ≤ 1 := by
  have hcalm := h.calm_act hrests a
  have hleads : (p.act a).Reachable := h.leads (.step a .refl hpermits)
  -- to take a task out of use wakes nobody
  have hstays (hsame : (p.act a).system.pools = p.system.pools)
      (hjoiners : (p.act a).system.joiners = p.system.joiners) : u.underWay ≤ 1 := by
    have hstill : (p.act a).system.Rests :=
      hrests.of_pools (by rw [hsame]) (hjoiners ▸ hrests.asleep)
    cases hmoves with
    | rest => exact hcalm.underWay_le
    | move hm _ => exact absurd (hm.symm.trans (hstill _)) (by simp)
  have hgoes (hnone : (p.act a).leaving = []) : u.underWay ≤ 1 :=
    (hcalm.moves hmoves ⟨p.act a, hleads, hnone, rfl⟩ hu).underWay_le
  cases a with
  | release task =>
    obtain ⟨_, _, he⟩ := p.release_frame task
    exact hstays (by rw [he]) (by rw [he])
  | detach task =>
    obtain ⟨_, _, he⟩ := p.detach_frame task
    exact hstays (by rw [he]) (by rw [he])
  | giveBack l =>
    refine hgoes ?_
    simp [act, hnone]
  | _ => exact hgoes hnone

end Program

/-! ## 2. Commands -/

namespace Session

variable {α : Type} {S T : Session α} {σ τ : Schedule α}

/-- **A command answers the same under both schedules**, and leaves two sessions that are the same
up to the names of workers. -/
theorem Abreast.step_renamed (h : Abreast System.Renamed S T) (hσ : Schedule.Diligent σ)
    (hτ : Schedule.Diligent τ) (c : Command α) (hlocal : (step σ S c).2.system.Local) :
    (step σ S c).1 = (step τ T c).1 ∧
      Abreast System.Renamed (step σ S c).2 (step τ T c).2 :=
  h.advance (System.bond_renamed hσ hτ) (System.joinable_renamed.bond hσ hτ) c hlocal trivial

/-- What a report on the command tells, apart from its log, is the same. -/
theorem Abreast.report_eq {S' T' : Session α} (h : Abreast System.Renamed S T)
    (h' : Abreast System.Renamed S' T') (brief : Bool) (answer : Answer α) :
    report brief false answer S S' = report brief false answer T T' := by
  have hview : S'.view = T'.view := view_eq h'.system.alike
  have hevents : S.eventsSince S' = T.eventsSince T' := by
    rw [eventsSince, eventsSince, h.system.events, h'.system.events]
  simp only [report, hview, hevents, Bool.false_eq_true, if_false]

/-- **All commands, one after the other.** -/
theorem Abreast.after_renamed (h : Abreast System.Renamed S T) (hσ : Schedule.Diligent σ)
    (hτ : Schedule.Diligent τ) (commands : List (Command α))
    (hlocal : (S.after σ commands).system.Local) (quiet : Bool) :
    Abreast System.Renamed (S.after σ commands) (T.after τ commands) ∧
      S.reports σ quiet false commands = T.reports τ quiet false commands := by
  induction commands generalizing S T with
  | nil => exact ⟨h, rfl⟩
  | cons c rest ih =>
    have hsettled := h.left.step hσ c
    have hnow := hlocal.of_brings hsettled.occurs (hsettled.brings_after hσ rest)
    obtain ⟨hanswer, hstep⟩ := h.step_renamed hσ hτ c hnow
    obtain ⟨hrest, hreports⟩ := ih hstep hlocal
    refine ⟨hrest, ?_⟩
    rw [reports_cons, reports_cons, hanswer, h.report_eq hstep, hreports]

/-! ## 3. Scripts -/

/-- **Schedules make no difference.**  Two schedules carry out one script, in which no run that ends
submits a task or gives the name of its worker.  After any number of commands, both sessions have
settled, and are the same up to the names of workers: the same joins are left waiting, the same is
counted of every pool, and every task has come as far.  All reports are the same, but for their
logs.  And after one action of a caller on a system where nobody can move, one body at most is under
way, whoever moves. -/
theorem schedules_agree (processors : Nat) (hσ : Schedule.Diligent σ) (hτ : Schedule.Diligent τ)
    (commands : List (Command α))
    (hlocal : ((start processors).after σ commands).system.Local) (quiet : Bool) :
    (∀ k : Nat,
      let S := (start processors).after σ (commands.take k)
      let T := (start processors).after τ (commands.take k)
      S.Settled ∧ T.Settled ∧ System.Renamed S.system T.system ∧ S.pending = T.pending ∧
        (S.system.pools.map fun p => p.counts) = T.system.pools.map (fun p => p.counts) ∧
        S.system.tasks.map S.system.taskStatus = T.system.tasks.map T.system.taskStatus) ∧
      Script.runBy processors σ ⟨commands, quiet, false⟩ =
        Script.runBy processors τ ⟨commands, quiet, false⟩ ∧
      ∀ (p : Program α) (a : Action α) (ms : List Move) (u : System α), p.Reachable →
        p.leaving = [] → p.system.Rests → p.Permits a → (p.act a).system.Moves ms u → u.Local →
        u.underWay ≤ 1 := by
  have hstart : Abreast System.Renamed (start processors : Session α) (start processors) :=
    ⟨⟨.refl _, rfl, rfl, rfl⟩, .start _, .start _⟩
  refine ⟨fun k => ?_, (hstart.after_renamed hσ hτ commands hlocal quiet).2,
    fun p a ms u hp hnone hrests hpermits hmoves hu =>
      hp.underWay_le hnone hrests hpermits hmoves hu⟩
  intro S T
  have hnow : S.system.Local := by
    have hS : S.Settled := (Settled.start processors).after hσ (commands.take k)
    have hrest := hS.brings_after hσ (commands.drop k)
    rw [← after_append, List.take_append_drop] at hrest
    exact hlocal.of_brings hS.occurs hrest
  obtain ⟨h, -⟩ := hstart.after_renamed hσ hτ (commands.take k) hnow quiet
  refine ⟨h.left, h.right, h.system, h.pending, ?_, ?_⟩
  · exact h.system.alike.map_pools fun face => face.2.2.2.1
  · rw [h.system.tasks]
    refine List.map_congr_left fun a _ => ?_
    rw [System.taskStatus_eq_statusOf, System.taskStatus_eq_statusOf,
      h.system.alike.statusOf_eq]

end Session

/-! ## 4. Another schedule -/

namespace System

variable {α : Type} {s : System α} {m : Move}

/-- All threads of a system. -/
def movers (s : System α) : List Move :=
  (List.range s.pools.length).map .shutdown ++ (List.range s.joiners.length).map .joiner ++
    (List.range s.pools.length).flatMap fun i =>
      match s.pools[i]? with
      | some p => (List.range p.workers.length).map (.worker i)
      | none => []

theorem mem_movers (h : s.ready m = true) : m ∈ s.movers := by
  have hlt {β : Type} {l : List β} {i : Nat} {f : β → Bool} (h : l[i]?.any f = true) :
      i < l.length := by
    obtain ⟨b, hb, -⟩ := (Option.any_eq_true _ _).mp h
    exact (List.getElem?_eq_some_iff.mp hb).1
  unfold movers
  cases m with
  | shutdown i => simp [hlt h]
  | joiner n => simp [hlt h]
  | worker i w =>
    obtain ⟨phase, hphase, -⟩ := (Option.any_eq_true _ _).mp h
    obtain ⟨p, hi, hw⟩ := phase?_eq_some.mp hphase
    have hi' : i < s.pools.length := (List.getElem?_eq_some_iff.mp hi).1
    have hw' : w < p.workers.length := (List.getElem?_eq_some_iff.mp hw).1
    refine List.mem_append_right _ (List.mem_flatMap.mpr ⟨i, List.mem_range.mpr hi', ?_⟩)
    rw [hi]
    exact List.mem_map_of_mem (List.mem_range.mpr hw')

/-- The schedule in which the last worker of the last pool goes first, whatever it is about to
do. -/
def lastFirst (s : System α) : Option Move := s.movers.reverse.find? s.ready

theorem lastFirst_diligent : Schedule.Diligent (lastFirst (α := α)) where
  ready _ _ hm := List.find?_some hm
  exhausts s hnone m := by
    by_contra hready
    have hready : s.ready m = true := by simpa using hready
    exact List.find?_eq_none.mp hnone m (List.mem_reverse.mpr (mem_movers hready)) hready

/-- Bodies that never submit and never give the name of their worker are local. -/
theorem local_of_bodies (h : ∀ t ∈ s.tasks, ∀ run, t.body.isLocal run = true) : s.Local :=
  fun _ run t ht _ => h t (List.mem_of_getElem? ht) run

end System

namespace Session

/-- Two workers, a body that waits at its gate, and one that looks around; the join of the second
run of the first body waits. -/
def observed : List (Command Nat) :=
  [.buildPool "pool" { threads := some 2 }, .createTask "held" ⟨.count, .always, .never, 0⟩,
    .createTask "look" ⟨.observe "pool" (some "held"), .never, .never, 0⟩, .submit "pool" "held",
    .submit "pool" "look", .join "look" "seen", .openGate "held" none, .submit "pool" "held",
    .join "held" "waits"]

/-- The first worker has the second run under one schedule, and the second worker under the other;
nothing else tells. -/
theorem observed_agree :
    let S := (start 1).after System.bodiesFirst observed
    let T := (start 1).after System.lastFirst observed
    System.Renamed S.system T.system ∧
      Script.runBy 1 System.bodiesFirst ⟨observed, false, false⟩ =
        Script.runBy 1 System.lastFirst ⟨observed, false, false⟩ ∧
      S.system.phase? 0 0 ≠ T.system.phase? 0 0 := by
  intro S T
  have hkinds : (S.system.tasks.map fun t => t.body.kind) =
      [.count, .observe "pool" (some "held")] := by decide
  have hlocal : S.system.Local := by
    refine System.local_of_bodies fun t ht run => ?_
    have hkind : t.body.kind ∈ [Kind.count, .observe "pool" (some "held")] :=
      hkinds ▸ List.mem_map_of_mem ht
    rcases List.mem_pair.mp hkind with he | he <;> simp [Body.isLocal, he]
  obtain ⟨hsessions, hreports, -⟩ := schedules_agree 1 System.bodiesFirst_diligent
    System.lastFirst_diligent observed hlocal false
  have hafter := hsessions observed.length
  rw [List.take_length] at hafter
  exact ⟨hafter.2.2.1, hreports, by decide⟩

end Session
end WorkerPool
