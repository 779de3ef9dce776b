/-
# Dropping a pool loses nothing

When a pool is dropped between two commands, its parked workers leave, and that is all
(`Occurs.settle_dropPool`).  What it had to do it does: no submission is lost, whatever else happens
(`Program.Draining`).  Beside a session that did not drop the pool it stays a twin of the pool
there, and so nobody who does not ask for the pool by its id can tell whether it was dropped
(`dropping_loses_nothing`).
-/
import WorkerPool.Proofs.Draining
import WorkerPool.Proofs.Lockstep.Session

namespace WorkerPool

/-! ## 1. The parked workers leave -/

/-- Where a worker of a pool is that is dropped, and where it was before. -/
inductive Phase.Closing : Phase → Phase → Prop where
  | beside {phase phase' : Phase} (h : phase.Beside phase') : Closing phase phase'
  /-- It is told to look, and will leave. -/
  | told : Closing (parked true) (parked false)

namespace Pool

variable {α : Type} {p q : Pool α}

/-- Pool `p` is pool `q` after it was dropped; some workers may have yet to leave. -/
structure Closing (p q : Pool α) : Prop where
  id_eq : p.id = q.id
  plan_eq : p.plan = q.plan
  queue_eq : p.queue = q.queue
  results_eq : p.results = q.results
  dropped : p.standing = .dropped
  workers : ∀ w : Nat, Option.Rel Phase.Closing p.workers[w]? q.workers[w]?

theorem Closing.inactive (h : Closing p q) : p.isActive = false := by
  rw [isActive, h.dropped]
  rfl

/-- When all have left that had to, the two are twins. -/
theorem Closing.twin (h : Closing p q) (hactive : q.isActive = true)
    (hleft : ∀ w : Nat, p.workers[w]? ≠ some (.parked true)) : DroppedTwin q.id p q where
  id_left := h.id_eq
  id_right := rfl
  plan_eq := h.plan_eq
  queue_eq := h.queue_eq
  results_eq := h.results_eq
  dropped := h.dropped
  active := eq_of_beq hactive
  workers := by
    intro w
    rcases rel_cases (h.workers w) with ⟨hp, hq⟩ | ⟨phase, phase', hp, hq, hclosing⟩ <;> rw [hp, hq]
    · exact .none
    · cases hclosing with
      | beside hb => exact .some hb
      | told => exact absurd hp (hleft w)

/-- A pool is dropped when nobody of it can move. -/
theorem closing_drop (hactive : q.isActive = true)
    (hrests : ∀ phase ∈ q.workers, (phase.isUnderWay || phase.isLooking) = false) :
    Closing q.drop q := by
  have he : q.drop = ({ q with standing := .dropped }.notifyWorkers).note (.closed q.queue.size) :=
    if_pos hactive
  rw [he]
  refine ⟨rfl, rfl, rfl, rfl, rfl, fun w => ?_⟩
  show Option.Rel _ (q.workers.map Phase.notify)[w]? q.workers[w]?
  rw [List.getElem?_map]
  cases hw : q.workers[w]? with
  | none => exact .none
  | some phase =>
    refine .some ?_
    have hrest := hrests phase (List.mem_of_getElem? hw)
    rcases phase with _ | notified | _ | _
    · exact absurd hrest (by simp [Phase.isUnderWay, Phase.isLooking])
    · cases notified with
      | true => exact absurd hrest (by simp [Phase.isUnderWay, Phase.isLooking])
      | false => exact .told
    · exact .beside (.same rfl)
    · exact .beside (.same rfl)

/-- A worker that was told leaves, because nobody is parked while a record waits. -/
theorem Closing.wake (h : Closing p q) (hq : q.Sound) {w : Nat}
    (hw : p.workers[w]? = some (.parked true)) : Closing (p.wake w) q := by
  have hparked : q.workers[w]? = some (.parked false) := by
    rcases rel_cases (h.workers w) with ⟨hnone, -⟩ | ⟨phase, phase', hp, hq, hclosing⟩
    · exact absurd (hw.symm.trans hnone) (by simp)
    · obtain rfl := Option.some.inj (hp.symm.trans hw)
      cases hclosing with
      | beside hb => exact absurd hb.isLooking_eq.1 (by simp [Phase.isLooking])
      | told => exact hq
  have hwait : q.queue.waiting = [] := by
    by_contra hne
    exact hq.alert.told (Or.inl hne) w hparked
  have hleave : p.wake w = { p with busy := p.busy + 1 }.leave w := by
    refine advance_eq_leave (p := { p with busy := p.busy + 1 }) ?_ h.inactive ?_ w
    · exact h.queue_eq ▸ hq.queue
    · show ∀ k, p.queue.status? k ≠ some .queued
      rw [h.queue_eq]
      exact hq.queue.waiting_eq_nil_iff.mp hwait
  rw [hleave]
  refine ⟨h.id_eq, h.plan_eq, h.queue_eq, h.results_eq, congrArg Standing.notify h.dropped,
    fun v => ?_⟩
  show Option.Rel _ (p.workers.set w .exited)[v]? q.workers[v]?
  rw [List.getElem?_set]
  split
  · next hv =>
    rw [← hv, if_pos (List.getElem?_eq_some_iff.mp hw).1, hparked]
    exact .some (.beside .idle)
  · exact h.workers v

end Pool

namespace System

variable {α : Type} {s : System α} {schedule : Schedule α} {i : Nat} {p q : Pool α}

/-- Nobody else can move in a system at rest in which a pool is dropped. -/
theorem Rests.closing (h : s.Rests) (hi : s.pools[i]? = some q) (hclosing : p.Closing q) {m : Move}
    (hready : (s.modifyPool i fun _ => p).ready m = true) :
    ∃ w, m = .worker i w ∧ p.workers[w]? = some (.parked true) := by
  have hpools : ∀ j : Nat, (s.modifyPool i fun _ => p).pools[j]? =
      if j = i then some p else s.pools[j]? := by
    intro j
    rw [pools_modifyPool]
    split
    · next hj => rw [hj, hi, Option.map_some]
    · rfl
  cases m with
  | worker j w =>
    by_cases hj : j = i
    · subst hj
      have hp : (s.modifyPool j fun _ => p).phase? j w = p.workers[w]? := by
        simp [phase?, hpools]
      have hq : s.phase? j w = q.workers[w]? := by simp [phase?, hi]
      have hrest := h (.worker j w)
      rw [ready, hp] at hready
      rw [ready, hq] at hrest
      rcases rel_cases (hclosing.workers w) with
        ⟨hpw, -⟩ | ⟨phase, phase', hpw, hqw, hphases⟩
      · exact absurd hready (by simp [hpw])
      · rw [hpw] at hready
        rw [hqw] at hrest
        cases hphases with
        | told => exact ⟨w, rfl, hpw⟩
        | beside hb =>
          rw [Option.any_some, hb.isUnderWay_eq, hb.isLooking_eq.1] at hready
          rw [Option.any_some, hb.isLooking_eq.2] at hrest
          exact absurd (hready.symm.trans hrest) (by simp)
    · have hsame : (s.modifyPool i fun _ => p).ready (.worker j w) = s.ready (.worker j w) := by
        simp [ready, phase?, hpools, hj]
      exact absurd (hready.symm.trans (hsame.trans (h _))) (by simp)
  | joiner n => exact absurd (hready.symm.trans (h (.joiner n))) (by simp)
  | shutdown j =>
    by_cases hj : j = i
    · subst hj
      simp [ready, hpools, hclosing.dropped, Standing.isWoken] at hready
    · have hsame : (s.modifyPool i fun _ => p).ready (.shutdown j) = s.ready (.shutdown j) := by
        simp [ready, hpools, hj]
      exact absurd (hready.symm.trans (hsame.trans (h _))) (by simp)

/-- **When a pool is dropped in a system at rest, its parked workers leave, and that is all.** -/
theorem Occurs.settle_dropPool (h : s.Occurs) (hrests : s.Rests)
    (hschedule : Schedule.Diligent schedule) (hi : s.pools[i]? = some q)
    (hactive : q.isActive = true) :
    ∃ p, (s.dropPool i).settle schedule = s.modifyPool i (fun _ => p) ∧
      p.DroppedTwin q.id q := by
  have hq : q.Sound := h.poolsSound i q hi
  obtain ⟨p, hsettled, hclosing⟩ : ∃ p : Pool α,
      (s.dropPool i).settle schedule = s.modifyPool i (fun _ => p) ∧ p.Closing q := by
    refine settle_induct hschedule (P := fun u => ∃ p : Pool α,
      u = s.modifyPool i (fun _ => p) ∧ p.Closing q) ?_ ?_
    · rintro u m ⟨p, rfl, hclosing⟩ hready
      obtain ⟨w, rfl, hw⟩ := hrests.closing hi hclosing hready
      refine ⟨p.wake w, ?_, hclosing.wake hq hw⟩
      have hphase : (s.modifyPool i fun _ => p).phase? i w = some (.parked true) := by
        simp [phase?, pools_modifyPool, hi, hw]
      simp only [perform, hphase]
      exact modifyPool_modifyPool s i _ _
    · refine ⟨q.drop, modifyPool_congr hi rfl, Pool.closing_drop hactive fun phase hmem => ?_⟩
      obtain ⟨w, hw⟩ := List.getElem?_of_mem hmem
      have hrest := hrests (.worker i w)
      rwa [ready, phase?_eq_some.mpr ⟨q, hi, hw⟩, Option.any_some] at hrest
  refine ⟨p, hsettled, hclosing.twin hactive fun w hw => ?_⟩
  -- at the end nobody can move
  have hends := (h.brings (s.brings_dropPool i)).rests_settle hschedule (.worker i w)
  have hphase : (s.modifyPool i fun _ => p).phase? i w = some (.parked true) := by
    simp [phase?, pools_modifyPool, hi, hw]
  rw [hsettled, ready, hphase] at hends
  exact absurd hends (by simp [Phase.isLooking])

end System

/-! ## 2. A session that drops a pool, beside one that does not -/

namespace Session

variable {α : Type} {S : Session α} {schedule : Schedule α} {i : Nat} {p q : Pool α}

/-- How far a session that has just dropped pool `i`, with the id `name`, is apart from itself
before that. -/
def dropGap (S : Session α) (i : Nat) (name : String) : Gap where
  hidden := some (i, name)
  before := S.system.joiners.length
  extra := 0
  lead := 0
  poolNotes _ := ([], [])
  taskNotes := ([], [])

theorem spares_dropGap {name id : String} : (S.dropGap i name).Spares id ↔ id ≠ name := by
  constructor
  · exact fun h => h i name rfl
  · rintro h i' name' hhidden rfl
    obtain ⟨-, rfl⟩ := Prod.mk.inj (Option.some.inj hhidden)
    exact h rfl

theorem place_dropGap (n : Nat) {name : String} : (S.dropGap i name).place n = n := ite_self _

theorem sessions_dropPool (hi : S.system.pools[i]? = some q) (htwin : p.DroppedTwin q.id q) :
    (S.dropGap i q.id).Sessions
      { S with system := S.system.modifyPool i fun _ => p } S where
  system :=
    { pools := by
        intro j
        rw [System.pools_modifyPool]
        by_cases hj : j = i
        · subst hj
          rw [if_pos rfl, hi]
          exact .some (.dropped rfl htwin)
        · rw [if_neg hj]
          cases hr : S.system.pools[j]? with
          | none => exact .none
          | some r =>
            have halike : (S.dropGap i q.id).Pools j (r.older []) (r.older []) :=
              .alike r fun name hhidden => hj (Prod.mk.inj (Option.some.inj hhidden)).1.symm
            rw [show r.older [] = r from
              congrArg (fun journal => { r with journal }) (List.append_nil _)] at halike
            exact .some halike
      fresh := by
        intro j hj
        refine ⟨rfl, fun name hhidden => ?_⟩
        obtain ⟨rfl, -⟩ := Prod.mk.inj (Option.some.inj hhidden)
        have hlt := (List.getElem?_eq_some_iff.mp hi).1
        rw [System.modifyPool, List.length_modify] at hj
        omega
      tasks := rfl
      joins := by
        intro n
        rw [place_dropGap]
        show Option.Rel _ S.system.joiners[n]? S.system.joiners[n]?
        cases S.system.joiners[n]? with
        | none => exact .none
        | some j => exact .some ⟨rfl, rfl, rfl, fun _ => Option.map_id'.symm⟩
      before_le := Nat.le_refl _
      length_joiners := rfl
      answered := fun n j hle hlt => absurd hlt (Nat.not_lt.mpr hle)
      events := rfl
      journal := ⟨S.system.journal, (List.append_nil _).symm, (List.append_nil _).symm⟩
      clock := rfl
      refusal := rfl
      processors := rfl }
  pending := by
    refine ((List.map_congr_left fun e _ => ?_).trans (List.map_id _)).symm
    exact congrArg (fun joiner => { e with joiner }) (place_dropGap e.joiner)
  unsized := rfl
  passing := rfl

/-- What is reported after a command that drops a pool is reported without it, too, but for the
counters of the pool and the log, if nobody asks for the pool by its id any more. -/
theorem reports_dropPool (hS : S.Settled) (hdiligent : Schedule.Diligent schedule) (id : String)
    (hblind : ∀ i, S.system.findPool? id = some i → (S.dropGap i id).Overlooks schedule)
    {after : List (Command α)} (hnames : ∀ c ∈ after, c.pool? ≠ some id)
    (hbodies : let R := (Session.step schedule S (.dropPool id)).2
      ∀ a run task, (R.after schedule after).system.tasks[a]? = some task →
        (R.after schedule after).system.HasEnded a run → ¬R.system.HasEnded a run →
        task.body.poolOf? run ≠ some id) (quiet log : Bool) :
    ((Session.step schedule S (.dropPool id)).2.reports schedule quiet log after).map
        (·.hiding id) =
      (S.reports schedule quiet log after).map (·.hiding id) := by
  have hR := hS.step hdiligent (.dropPool id)
  dsimp only at hbodies
  cases hfind : S.system.findPool? id with
  | none =>
    -- there is no such pool to drop
    have hsame : (Session.step schedule S (.dropPool id)).2 = S := by
      simp only [Session.step, execute, onPool, hfind, Session.settle,
        hS.rests.settle_eq hdiligent]
    rw [hsame]
  | some i =>
    obtain ⟨hlt, hfound, -⟩ := List.findIdx?_eq_some_iff_getElem.mp hfind
    obtain ⟨hid, hactive⟩ := (Bool.and_eq_true _ _).mp hfound
    have hi : S.system.pools[i]? = some S.system.pools[i] := List.getElem?_eq_getElem hlt
    obtain ⟨p, hsettled, htwin⟩ := hS.occurs.settle_dropPool hS.rests hdiligent hi hactive
    have hstep : (Session.step schedule S (.dropPool id)).2 =
        { S with system := S.system.modifyPool i fun _ => p } := by
      simp only [Session.step, execute, onPool, hfind, Session.settle, hsettled]
    have hid : S.system.pools[i].id = id := eq_of_beq hid
    rw [hstep] at hR hbodies ⊢
    have hsessions := sessions_dropPool hi htwin
    rw [hid] at hsessions
    have hallows : ∀ c ∈ after, (S.dropGap i id).Allows c := fun c hc id' hid' =>
      spares_dropGap.mpr fun he => hnames c hc (he ▸ hid')
    have hshows : (S.dropGap i id).shows = fun r : Report α => r.hiding id := rfl
    rw [← hshows]
    refine hsessions.reports_eq hdiligent (hblind i hfind) hR hS hallows
      (fun a run task id' htask hended hnot hpool => ?_) quiet log
    exact spares_dropGap.mpr fun he => hbodies a run task htask hended hnot (he ▸ hpool)

end Session

/-! ## 3. Nothing is lost -/

namespace Program

variable {α : Type} {p : Program α} {i : Nat} {pool : Pool α}

/-- **Dropping a pool loses nothing.**  Whatever is done after a pool in use was dropped, it takes
no more submissions and runs those that it has, newest first, as `Draining` says, and its workers
need no more moves for that than the backlog.  And in a script, nobody who does not ask for the pool
by its id notices that it was dropped: without the command that drops it, all later answers, all
that is seen of tasks and of other pools, and all that happens in any pool, are the same, if the
threads go on in the same order. -/
theorem dropping_loses_nothing (h : p.Reachable) (hi : p.system.pools[i]? = some pool)
    (hactive : pool.isActive = true) :
    (∀ as, (p.act (.dropPool i)).Allows as →
      let q := (p.act (.dropPool i)).run as
      ∃ pool', q.system.pools[i]? = some pool' ∧ q.Draining i pool' ∧
        pool'.queue.next = pool.queue.next ∧
        (p.act (.dropPool i)).movesOf i as + pool'.backlog ≤ pool.drop.backlog) ∧
    ∀ schedule : Schedule α, schedule.Diligent → ∀ (processors : Nat) (before : List (Command α))
      (id : String) (after : List (Command α)),
      let S := (Session.start processors).after schedule before
      let R := (Session.step schedule S (.dropPool id)).2
      let E := R.after schedule after
      (∀ i, S.system.findPool? id = some i → (S.dropGap i id).Overlooks schedule) →
      (∀ c ∈ after, c.pool? ≠ some id) →
      (∀ a run task, E.system.tasks[a]? = some task → E.system.HasEnded a run →
        ¬R.system.HasEnded a run → task.body.poolOf? run ≠ some id) →
      ∀ quiet log : Bool,
        ((Script.runBy processors schedule ⟨before ++ .dropPool id :: after, quiet, log⟩).drop
            (before.length + 1)).map (·.hiding id) =
          ((Script.runBy processors schedule ⟨before ++ after, quiet, log⟩).drop
            before.length).map (·.hiding id) := by
  constructor
  · intro as has q
    have hdropped : pool.drop.standing = .dropped := by simp [Pool.drop, hactive, Pool.note]; rfl
    have hreach : (p.act (.dropPool i)).Reachable :=
      h.leads (Leads.refl.step (.dropPool i) trivial)
    have hi' : (p.act (.dropPool i)).system.pools[i]? = some pool.drop := by
      show (p.system.modifyPool i Pool.drop).pools[i]? = _
      rw [System.pools_modifyPool, if_pos rfl, hi]
      rfl
    obtain ⟨pool', hq, hebbs, hle⟩ := hreach.ebbs_run hi' hdropped has
    exact ⟨pool', hq, (hreach.leads (leads_run as _ has)).draining hq hebbs.standing,
      hebbs.next_eq.trans (Pool.next_drop pool), hle⟩
  · intro schedule hdiligent processors before id after S R E hblind hnames hbodies quiet log
    have hS : S.Settled := (Session.Settled.start processors).after hdiligent before
    have hwith : (Script.runBy processors schedule
        ⟨before ++ .dropPool id :: after, quiet, log⟩).drop (before.length + 1) =
          R.reports schedule quiet log after :=
      Session.reports_drop_succ schedule quiet log (.start processors) before (.dropPool id) after
    have hwithout : (Script.runBy processors schedule ⟨before ++ after, quiet, log⟩).drop
        before.length = S.reports schedule quiet log after :=
      Session.reports_drop schedule quiet log (.start processors) before after
    rw [hwith, hwithout]
    exact Session.reports_dropPool hS hdiligent id hblind hnames hbodies quiet log

/-- A pool for one worker that holds three submissions of one task, the first run of which waits at
a gate. -/
def backed : List (Command Nat) :=
  [.buildPool "pool" { threads := some 1, limit := some 4 },
    .createTask "task" ⟨.count, .only [1], .never, 0⟩, .submitTimes "pool" "task" 3]

/-- A pool with two submissions is dropped when its worker has claimed the newer one; six moves
later both have finished.  And a script that drops a pool with three submissions. -/
theorem backed_loses_nothing :
    let p := counting.run [.submit 0 0, .submit 0 0, .move (.worker 0 0)]
    let q := (p.act (.dropPool 0)).run (List.replicate 6 (.move (.worker 0 0)))
    let after := [.openGate "task" none, .join "task" "join"]
    (∃ pool, q.system.pools[0]? = some pool ∧ pool.threads = 0 ∧ q.Draining 0 pool ∧
      ∀ t ∈ q.system.tasks, ∀ x ∈ t.submissions, x.pool = 0 → q.hasFinished x = true) ∧
    ((Script.runBy 1 System.inTurns ⟨backed ++ .dropPool "pool" :: after, false, false⟩).drop
        4).map (·.hiding "pool") =
      ((Script.runBy 1 System.inTurns ⟨backed ++ after, false, false⟩).drop 3).map
        (·.hiding "pool") := by
  intro p q after
  have hopen : p.system.pools[0]?.map (·.isActive) = some true := by decide
  obtain ⟨pool, hi, hactive⟩ := Option.map_eq_some_iff.mp hopen
  obtain ⟨hdrains, hscripts⟩ :=
    dropping_loses_nothing (counting_reachable (by decide)) hi hactive
  constructor
  · obtain ⟨pool', hi', hdraining, -⟩ :=
      hdrains (List.replicate 6 (.move (.worker 0 0))) (by decide)
    have hthreads : q.system.pools[0]?.map (·.threads) = some 0 := by decide
    rw [hi', Option.map_some, Option.some.injEq] at hthreads
    exact ⟨pool', hi', hthreads, hdraining, (hdraining.ended hthreads).2⟩
  · refine hscripts System.inTurns System.inTurns_diligent 1 backed "pool" after
      (fun i _ => Gap.overlooks_inTurns _) (by decide) (fun a run task htask _ _ => ?_) false false
    -- no body of the script has to do with a pool
    have hbodies : ((Session.step System.inTurns
        ((Session.start 1).after System.inTurns backed) (.dropPool "pool")).2.after
          System.inTurns after).system.tasks.map (·.body) = [⟨.count, .only [1], .never, 0⟩] := by
      decide
    have hbody : task.body = ⟨.count, .only [1], .never, 0⟩ := by
      rw [← List.mem_singleton, ← hbodies]
      exact List.mem_map_of_mem (List.mem_of_getElem? htask)
    simp [hbody, Body.poolOf?, RunSet.has]

end Program
end WorkerPool
