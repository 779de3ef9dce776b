/-
# All schedules do the same

`System.Matches` compares two systems: their pools match, and all the rest is the same but for their
joins.  From there two schedules may go their own ways until nobody can move.  Of their moves only
those count that do something (`System.Does`): a worker claims a record or goes on with its body.

* A move that does nothing leaves a system that matches the one before (`Occurs.matches_perform`).
* Where there is work for one worker at most, two moves that do something do the same
  (`Calm.deed_eq`), leave systems that match again (`Matches.perform`), and what one of two systems
  that match can do, the other can do as well (`Matches.does`).

So two systems that match come to match again when nobody can move any more, whoever moves first
(`Matches.moves`): of all orders of moves, only the deeds and not the idle moves matter, and there
is one order of deeds.
-/
import WorkerPool.Proofs.Confluence.Pool
import WorkerPool.Proofs.SideBySide

namespace WorkerPool

namespace System

variable {α : Type} {s s' t u v : System α} {i w : Nat} {p q : Pool α}

/-! ## 1. Systems that match -/

/-- Two systems that differ in who idles, in what their joins have seen, and in what the pools
noted. -/
structure Matches (s t : System α) : Prop where
  pools : ∀ i : Nat, Option.Rel Pool.Matches s.pools[i]? t.pools[i]?
  tasks : s.tasks = t.tasks
  events : s.events = t.events
  journal : s.journal = t.journal
  clock : s.clock = t.clock
  refusal : s.refusal = t.refusal
  processors : s.processors = t.processors

/-- What is known of every pool of a system that occurs. -/
theorem Occurs.pool (h : s.Occurs) (hi : s.pools[i]? = some p) :
    p.Sound ∧ p.Enlisted ∧ p.Cleared := by
  obtain ⟨program, hreach, -, rfl⟩ := h
  exact ⟨hreach.poolsSound i p hi, hreach.enlisted hi, hreach.cleared hi⟩

namespace Matches

theorem pool_cases (h : Matches s t) (i : Nat) :
    s.pools[i]? = none ∧ t.pools[i]? = none ∨
      ∃ p q, s.pools[i]? = some p ∧ t.pools[i]? = some q ∧ p.Matches q :=
  rel_cases (h.pools i)

/-- A pool of the second system, beside the one of the first. -/
theorem pool (h : Matches s t) (hi : s.pools[i]? = some p) :
    ∃ q, t.pools[i]? = some q ∧ p.Matches q := by
  rcases h.pool_cases i with ⟨hp, -⟩ | ⟨p', q, hp, hq, hpools⟩
  · exact absurd (hi.symm.trans hp) (by simp)
  · obtain rfl := Option.some.inj (hi.symm.trans hp)
    exact ⟨q, hq, hpools⟩

theorem refl (s : System α) : Matches s s where
  pools j := by
    cases s.pools[j]? with
    | none => exact .none
    | some p => exact .some (.refl p)
  tasks := rfl
  events := rfl
  journal := rfl
  clock := rfl
  refusal := rfl
  processors := rfl

theorem symm (h : Matches s t) : Matches t s where
  pools j := by
    rcases h.pool_cases j with ⟨hp, hq⟩ | ⟨p, q, hp, hq, hpools⟩ <;> rw [hp, hq]
    · exact .none
    · exact .some hpools.symm
  tasks := h.tasks.symm
  events := h.events.symm
  journal := h.journal.symm
  clock := h.clock.symm
  refusal := h.refusal.symm
  processors := h.processors.symm

theorem trans (h : Matches s t) (h' : Matches t u) : Matches s u where
  pools j := by
    rcases h.pool_cases j with ⟨hp, hq⟩ | ⟨p, q, hp, hq, hpools⟩
    · rcases h'.pool_cases j with ⟨-, hr⟩ | ⟨q, r, hq', -, -⟩
      · rw [hp, hr]
        exact .none
      · exact absurd (hq.symm.trans hq') (by simp)
    · obtain ⟨r, hr, hpools'⟩ := h'.pool hq
      rw [hp, hr]
      exact .some (hpools.trans hpools')
  tasks := h.tasks.trans h'.tasks
  events := h.events.trans h'.events
  journal := h.journal.trans h'.journal
  clock := h.clock.trans h'.clock
  refusal := h.refusal.trans h'.refusal
  processors := h.processors.trans h'.processors

/-- Joins are not compared. -/
theorem rejoin (h : Matches s t) (joiners joiners' : List (Joiner α)) :
    Matches { s with joiners := joiners } { t with joiners := joiners' } :=
  ⟨h.pools, h.tasks, h.events, h.journal, h.clock, h.refusal, h.processors⟩

theorem modifyPool (h : Matches s t) {i : Nat} (hp : s.pools[i]? = some p)
    (hq : t.pools[i]? = some q) {f g : Pool α → Pool α}
    (hf : p.Matches q → (f p).Matches (g q)) :
    Matches (s.modifyPool i f) (t.modifyPool i g) :=
  { h with
    pools := rel_modifyPool h.pools i fun p' q' hp' hq' hpools => by
      obtain rfl := Option.some.inj (hp'.symm.trans hp)
      obtain rfl := Option.some.inj (hq'.symm.trans hq)
      exact hf hpools }

theorem modifyTask (h : Matches s t) (a : Nat) (f : Task α → Task α) :
    Matches (s.modifyTask a f) (t.modifyTask a f) :=
  { h with tasks := congrArg (List.modify · a f) h.tasks }

theorem report (h : Matches s t) (es : List (Event α)) :
    Matches { s with events := es ++ s.events } { t with events := es ++ t.events } :=
  { h with events := congrArg (es ++ ·) h.events }

/-- A change of one pool that is not seen. -/
theorem of_modifyPool (s : System α) (i : Nat) {f : Pool α → Pool α}
    (hf : ∀ p, s.pools[i]? = some p → p.Matches (f p)) : Matches s (s.modifyPool i f) :=
  { refl s with
    pools := by
      intro j
      rw [pools_modifyPool]
      cases hj : s.pools[j]? with
      | none => split <;> exact .none
      | some p =>
        split
        · next hji => exact .some (hf p (hji ▸ hj))
        · exact .some (.refl p) }

/-! ### What bodies see -/

/-- The record of a submission, but for its mark. -/
theorem record? (h : Matches s t) {x : Submission} {r : Record Job} (hr : s.record? x = some r) :
    ∃ r', t.record? x = some r' ∧ r'.unmark = r.unmark := by
  obtain ⟨p, hp, hr⟩ := Option.bind_eq_some_iff.mp hr
  obtain ⟨q, hq, hpools⟩ := h.pool hp
  obtain ⟨r', hr', hunmark⟩ := Queue.get?_of_unmarked hpools.queue hr
  exact ⟨r', Option.bind_eq_some_iff.mpr ⟨q, hq, hr'⟩, hunmark⟩

theorem status_eq (h : Matches s t) (x : Submission) :
    (s.record? x).map (·.status) = (t.record? x).map (·.status) := by
  have hsome {s t : System α} (h : Matches s t) {r : Record Job} (hr : s.record? x = some r) :
      (t.record? x).map (·.status) = some r.status := by
    obtain ⟨r', hr', hunmark⟩ := h.record? hr
    have hstatus := congrArg Record.status hunmark
    rw [hr']
    exact congrArg some hstatus
  cases hs : s.record? x with
  | some r => exact (hsome h hs).symm
  | none =>
    cases ht : t.record? x with
    | none => rfl
    | some r =>
      have hnone := hsome h.symm ht
      rw [hs] at hnone
      cases hnone

theorem observePool_eq (h : Matches s t) (hs : s.Occurs) (ht : t.Occurs) (id : String) :
    s.observePool id = t.observePool id := by
  have hmap : (s.pools.map fun p => p.id == id && p.isActive) =
      t.pools.map fun p => p.id == id && p.isActive := by
    refine List.ext_getElem? fun j => ?_
    rw [List.getElem?_map, List.getElem?_map]
    rcases h.pool_cases j with ⟨hp, hq⟩ | ⟨p, q, hp, hq, hpools⟩ <;> rw [hp, hq]
    show some (p.id == id && p.isActive) = some (q.id == id && q.isActive)
    rw [hpools.id, hpools.isActive_eq]
  have hfind : s.findPool? id = t.findPool? id := Gap.Apart.findIdx?_congr hmap
  unfold observePool
  rw [← hfind]
  cases hi : s.findPool? id with
  | none => rfl
  | some i =>
    obtain ⟨hlt, hfound, -⟩ := List.findIdx?_eq_some_iff_getElem.mp hi
    have hp := List.getElem?_eq_getElem hlt
    have hactive := (Bool.and_eq_true_iff.mp hfound).2
    obtain ⟨q, hq, hpools⟩ := h.pool hp
    obtain ⟨hsound, henlisted, -⟩ := hs.pool hp
    obtain ⟨hsound', henlisted', -⟩ := ht.pool hq
    show (s.pools[i]? >>= _) = (t.pools[i]? >>= _)
    rw [hp, hq]
    exact congrArg some (hpools.counts_eq hsound hsound' henlisted henlisted' hactive)

theorem observeTask_eq (h : Matches s t) (id : String) : s.observeTask id = t.observeTask id := by
  unfold observeTask findTask?
  rw [← h.tasks]
  refine congrArg (Option.bind _) (funext fun a => congrArg (Option.bind _) (funext fun b => ?_))
  rw [taskStatus_eq_statusOf, taskStatus_eq_statusOf, statusOf, statusOf, funext h.status_eq]

/-- The same bodies have ended. -/
theorem toLocal (h : Matches s t) (hs : s.Local) : t.Local := by
  intro a run b hb hended
  refine hs a run b (h.tasks ▸ hb) ⟨h.tasks ▸ hended.begun, fun i w k job stage hphase htask => ?_⟩
  obtain ⟨p, hi, hw⟩ := phase?_eq_some.mp hphase
  obtain ⟨q, hq, hpools⟩ := h.pool hi
  obtain ⟨w', hw'⟩ := hpools.executing hw
  exact hended.left i w' k job stage (phase?_eq_some.mpr ⟨q, hq, hw'⟩) htask

/-- A local body ends in the same way, whichever worker runs it. -/
theorem ending_eq (h : Matches s t) (hs : s.Occurs) (ht : t.Occurs) (p q : Pool α) (v w : Nat)
    {b : Task α} {run : Nat} (hlocal : b.body.isLocal run = true) :
    s.ending p v b run = t.ending q w b run := by
  unfold ending
  cases hpanics : b.body.panics.has run with
  | true => rfl
  | false =>
    rw [Body.isLocal, hpanics, Bool.false_or] at hlocal
    refine congrArg Ending.returned ?_
    unfold evaluate
    cases hkind : b.body.kind with
    | workerName =>
      rw [hkind] at hlocal
      cases hlocal
    | submit on pool task =>
      rw [hkind] at hlocal
      have hnot : on.has run = false := by simpa using hlocal
      dsimp only
      rw [hnot]
      rfl
    | observe pool task =>
      dsimp only
      rw [h.observePool_eq hs ht, h.observeTask_eq]
    | _ => rfl

end Matches

/-! ## 2. Deeds -/

end System

/-- What a worker does that does something: it claims a record, or goes on with its body. -/
inductive Deed where
  | claim (pool : Nat)
  | body (pool : Nat) (ticket : Ticket) (job : Job) (stage : Stage)

namespace System

variable {α : Type} {s s' t u v : System α} {i w : Nat} {p q : Pool α} {m m' : Move}
  {d d' : Deed} {ms ns : List Move}

/-- The deed of a move, if it has one. -/
inductive Does (s : System α) : Move → Deed → Prop where
  | claim {i w : Nat} {p : Pool α} {phase : Phase} (hi : s.pools[i]? = some p)
      (hw : p.workers[w]? = some phase) (hlooking : phase.isLooking = true)
      (hwait : p.queue.waiting ≠ []) : Does s (.worker i w) (.claim i)
  | body {i w : Nat} {p : Pool α} {k : Ticket} {job : Job} {stage : Stage}
      (hi : s.pools[i]? = some p) (hw : p.workers[w]? = some (.executing k job stage))
      (hstage : (Phase.executing k job stage).isUnderWay = true) :
      Does s (.worker i w) (.body i k job stage)

theorem Does.ready (h : s.Does m d) : s.ready m = true := by
  cases h with
  | claim hi hw hlooking _ => simp [System.ready, phase?_eq_some.mpr ⟨_, hi, hw⟩, hlooking]
  | body hi hw hstage => simp [System.ready, phase?_eq_some.mpr ⟨_, hi, hw⟩, hstage]

theorem Rests.not_does (h : s.Rests) : ¬s.Does m d :=
  fun hdoes => absurd (hdoes.ready.symm.trans (h m)) (by simp)

/-- **Where there is work for one worker at most, all deeds are the same.** -/
theorem Calm.deed_eq (h : s.Calm) (hm : s.Does m d) (hm' : s.Does m' d') : d = d' := by
  -- a deed in a pool, and in no other one
  have hpool {m : Move} {d : Deed} (hm : s.Does m d) : ∃ i p, s.pools[i]? = some p ∧ 0 < p.stir ∧
      (d = .claim i ∧ 0 < min p.queue.waiting.length p.looking ∨
        ∃ (w : Nat) (k : Ticket) (job : Job) (stage : Stage), d = .body i k job stage ∧
          p.workers[w]? = some (.executing k job stage) ∧
          (Phase.executing k job stage).isUnderWay = true ∧ 0 < p.underWay) := by
    cases hm with
    | @claim i w p phase hi hw hlooking hwait =>
      have hlength := List.length_pos_iff.mpr hwait
      have hpos : 0 < p.looking :=
        List.countP_pos_iff.mpr ⟨phase, List.mem_of_getElem? hw, hlooking⟩
      refine ⟨i, p, hi, ?_, Or.inl ⟨rfl, ?_⟩⟩
      · unfold Pool.stir
        omega
      · omega
    | @body i w p k job stage hi hw hstage =>
      have hpos : 0 < p.underWay :=
        List.countP_pos_iff.mpr ⟨_, List.mem_of_getElem? hw, hstage⟩
      refine ⟨i, p, hi, ?_, Or.inr ⟨w, k, job, stage, rfl, hw, hstage, hpos⟩⟩
      unfold Pool.stir
      omega
  obtain ⟨i, p, hi, hpos, hdeed⟩ := hpool hm
  obtain ⟨j, q, hj, hpos', hdeed'⟩ := hpool hm'
  obtain rfl : i = j := by
    by_contra hne
    have hadd := add_le_sum Pool.stir hi hj hne
    have hle := h.stir_le
    omega
  obtain rfl := Option.some.inj (hi.symm.trans hj)
  have hle := h.pool_le hi
  rcases hdeed with ⟨rfl, hclaim⟩ | ⟨w, k, job, stage, rfl, hw, hstage, hbody⟩
  · rcases hdeed' with ⟨rfl, -⟩ | ⟨-, -, -, -, -, -, -, hbody'⟩
    · rfl
    · unfold Pool.stir at hle
      omega
  · rcases hdeed' with ⟨-, hclaim'⟩ | ⟨w', k', job', stage', rfl, hw', hstage', -⟩
    · unfold Pool.stir at hle
      omega
    · -- one worker has the one body that is under way
      obtain rfl : w = w' := by
        by_contra hne
        have htwo : 2 ≤ p.underWay := two_le_countP hw hw' hstage hstage' hne
        unfold Pool.stir at hle
        omega
      obtain ⟨rfl, rfl, rfl⟩ := Phase.executing.inj (Option.some.inj (hw.symm.trans hw'))
      rfl

/-- **What one of two systems that match can do, the other can do.** -/
theorem Matches.does (h : Matches s t) (hs : s.Occurs) (ht : t.Occurs) (hm : s.Does m d) :
    ∃ m', t.Does m' d := by
  cases hm with
  | @claim i w p phase hi hw hlooking hwait =>
    obtain ⟨q, hq, hpools⟩ := h.pool hi
    obtain ⟨hsound, -, hcleared⟩ := hs.pool hi
    obtain ⟨hsound', -, hcleared'⟩ := ht.pool hq
    have hpos : 0 < p.looking :=
      List.countP_pos_iff.mpr ⟨phase, List.mem_of_getElem? hw, hlooking⟩
    rw [hpools.looking_eq hsound hsound' hcleared hcleared' hwait] at hpos
    obtain ⟨phase', hphase', hlooking'⟩ := List.countP_pos_iff.mp hpos
    obtain ⟨w', hw'⟩ := List.getElem?_of_mem hphase'
    exact ⟨.worker i w', .claim hq hw' hlooking' (hpools.waiting_eq ▸ hwait)⟩
  | @body i w p k job stage hi hw hstage =>
    obtain ⟨q, hq, hpools⟩ := h.pool hi
    obtain ⟨w', hw'⟩ := hpools.executing hw
    exact ⟨.worker i w', .body hq hw' hstage⟩

/-- **The same deed in both.** -/
theorem Matches.perform (h : Matches s t) (hs : s.Occurs) (ht : t.Occurs) (hsc : s.Calm)
    (htc : t.Calm) (hm : s.Does m d) (hm' : t.Does m' d) (hlocal : s.EndsLocally m) :
    Matches (s.perform m) (t.perform m') := by
  cases hm with
  | @claim i v p phase hi hv hlooking hwait =>
    cases hm' with
    | @claim _ w q phase' hj hw hlooking' hwait' =>
      have hphase := phase?_eq_some.mpr ⟨p, hi, hv⟩
      have hphase' := phase?_eq_some.mpr ⟨q, hj, hw⟩
      obtain ⟨q', hq', hpools⟩ := h.pool hi
      obtain rfl := Option.some.inj (hq'.symm.trans hj)
      have hsound := (hs.pool hi).1
      have hsound' := (ht.pool hj).1
      obtain rfl := hpools.phase_eq hsound hsound' (hsc.fresh p (List.mem_of_getElem? hi))
        (htc.fresh q' (List.mem_of_getElem? hj)) hv hw hlooking hlooking'
      have hlooks : phase.looksNext = true := by
        cases phase <;> simp_all [Phase.looksNext, Phase.isLooking]
      have hgoOn : Matches (s.modifyPool i (·.goOn v phase)) (t.modifyPool i (·.goOn w phase)) :=
        h.modifyPool hi hj fun hpools => hpools.goOn hsound hsound' hlooks hv hw
      rcases phase with _ | notified | _ | _
      · simp only [System.perform, hphase, hphase']
        exact hgoOn
      · obtain rfl : notified = true := hlooking
        simp only [System.perform, hphase, hphase']
        exact hgoOn
      · cases hlooking
      · cases hlooking
  | @body i v p k job stage hi hv hstage =>
    cases hm' with
    | @body _ w q _ _ _ hj hw hstage' =>
      have hphase := phase?_eq_some.mpr ⟨p, hi, hv⟩
      have hphase' := phase?_eq_some.mpr ⟨q, hj, hw⟩
      cases stage with
      | entering =>
        simp only [System.perform, hphase, hphase']
        unfold enterBody
        rw [hi, hj, ← h.tasks]
        cases s.tasks[job.task]? with
        | none => exact h
        | some b =>
          obtain ⟨q', hq', hpools⟩ := h.pool hi
          obtain rfl := Option.some.inj (hq'.symm.trans hj)
          dsimp only
          rw [← hpools.id]
          refine Matches.report (Matches.modifyPool (h.modifyTask job.task _) hi hj ?_) [_]
          exact fun hpools => hpools.setStage hv hw _
      | atGate run => cases hstage
      | past run =>
        simp only [System.perform, hphase, hphase']
        obtain ⟨q', hq', hpools⟩ := h.pool hi
        obtain rfl := Option.some.inj (hq'.symm.trans hj)
        cases hb : s.tasks[job.task]? with
        | none =>
          have hb' : t.tasks[job.task]? = none := h.tasks ▸ hb
          unfold endBody
          rw [hi, hj, hb, hb']
          exact h
        | some b =>
          have hb' : t.tasks[job.task]? = some b := h.tasks ▸ hb
          have hbody := hlocal i v k job run b rfl hphase hb
          rw [endBody_of_isLocal hi hb hbody, endBody_of_isLocal hj hb' hbody,
            h.ending_eq hs ht p q' v w hbody]
          generalize t.ending q' w b run = e
          have hreported : p.reported b.body.payload e = q'.reported b.body.payload e := by
            unfold Pool.reported Pool.panicEvents
            rw [hpools.plan, hpools.id]
          rw [hreported]
          exact Matches.report (h.modifyPool hi hj fun hpools => hpools.endRun hv hw e) _
      | «over» =>
        simp only [System.perform, hphase, hphase']
        refine Matches.rejoin (h.modifyPool hi hj fun hpools => ?_) _ _
        exact hpools.goOn (hs.pool hi).1 (ht.pool hj).1 rfl hv hw

/-- The same body is local in both. -/
theorem Matches.endsLocally (h : Matches s t) (hm : s.Does m d) (hm' : t.Does m' d)
    (hlocal : s.EndsLocally m) : t.EndsLocally m' := by
  rintro i w k job run b rfl hphase hb
  obtain ⟨q, hq, hw⟩ := phase?_eq_some.mp hphase
  cases hm' with
  | claim hj hw' hlooking _ =>
    obtain rfl := Option.some.inj (hj.symm.trans hq)
    rw [Option.some.inj (hw'.symm.trans hw)] at hlooking
    cases hlooking
  | body hj hw' _ =>
    obtain rfl := Option.some.inj (hj.symm.trans hq)
    obtain ⟨rfl, rfl, rfl⟩ := Phase.executing.inj (Option.some.inj (hw'.symm.trans hw))
    cases hm with
    | body hi hv _ =>
      exact hlocal _ _ _ _ _ b rfl (phase?_eq_some.mpr ⟨_, hi, hv⟩) (h.tasks ▸ hb)

/-! ## 3. Idle moves -/

theorem endsLocally_of_idle (hidle : ∀ d, ¬s.Does m d) : s.EndsLocally m := by
  rintro i w k job run b rfl hphase -
  obtain ⟨p, hi, hw⟩ := phase?_eq_some.mp hphase
  exact absurd (.body hi hw rfl) (hidle _)

theorem matches_join (s : System α) (x : Submission) :
    Matches s (s.modifyPool x.pool (·.join x.ticket)) :=
  .of_modifyPool s x.pool fun p _ => p.matches_join x.ticket

theorem Waits.matched {n : Nat} (h : s.Waits n t) : Matches s t := by
  induction h with
  | refl => exact .refl s
  | @mark t _ x ih => exact ih.trans (t.matches_join x)
  | @turn t _ _ ih => exact ih.trans ((Matches.refl t).rejoin t.joiners _)

/-- **A move that does nothing is not seen.** -/
theorem Occurs.matches_perform (h : s.Occurs) (hs : s.Calm) (hidle : ∀ d, ¬s.Does m d) :
    Matches s (s.perform m) := by
  cases m with
  | worker i w =>
    cases hphase : s.phase? i w with
    | none =>
      simp only [perform, hphase]
      exact .refl s
    | some phase =>
      obtain ⟨p, hi, hw⟩ := phase?_eq_some.mp hphase
      have hwait (hlooking : phase.isLooking = true) : p.queue.waiting = [] := by
        by_contra hne
        exact hidle _ (.claim hi hw hlooking hne)
      have hsound := (h.pool hi).1
      rcases phase with _ | notified | ⟨k, job, stage⟩ | _
      · -- a worker that was just started finds a record
        exact absurd (hwait rfl)
          (hs.fresh p (List.mem_of_getElem? hi) (List.mem_of_getElem? hw)).1
      · cases notified with
        | false =>
          simp only [perform, hphase]
          exact .refl s
        | true =>
          simp only [perform, hphase]
          refine .of_modifyPool s i fun p' hp' => ?_
          obtain rfl := Option.some.inj (hp'.symm.trans hi)
          exact hsound.matches_wake hw (hwait rfl)
      · cases stage with
        | atGate run =>
          simp only [perform, hphase]
          exact .refl s
        | _ => exact absurd (.body hi hw rfl) (hidle _)
      · simp only [perform, hphase]
        exact .refl s
  | joiner n => exact (s.waits_joiner n).matched
  | shutdown i =>
    refine .of_modifyPool s i fun p _ => ?_
    split
    · next hwoken => exact Pool.matches_awaitWorkers hwoken
    · exact .refl p

/-! ## 4. Any number of moves -/

/-- From systems that match, one at rest and the other not yet. -/
theorem Matches.moves_of_rests (h : Matches u t) (hmoves : t.Moves ns v) (hu : u.Occurs)
    (ht : t.Occurs) (htc : t.Calm) (hrests : u.Rests) : Matches u v := by
  induction hmoves with
  | rest => exact h
  | @move t v m ns _ _ ih =>
    have hidle (d : Deed) : ¬t.Does m d := by
      intro hdoes
      obtain ⟨m', hm'⟩ := h.symm.does ht hu hdoes
      exact hrests.not_does hm'
    exact ih (h.trans (ht.matches_perform htc hidle)) (ht.brings (t.brings_perform m))
      (htc.perform ht.poolsSound (endsLocally_of_idle hidle))

/-- **The other schedule comes to the same deed**: if its system matches one where a deed can be
done, it does this deed before it comes to rest, and nothing before it. -/
theorem Matches.comes_to (h : Matches s t) (hns : t.Moves ns v) (hs : s.Occurs) (ht : t.Occurs)
    (hsc : s.Calm) (htc : t.Calm) (hm : s.Does m d) (hv : v.Rests) :
    ∃ (t' : System α) (m' : Move) (ns' : List Move), Matches s t' ∧ t'.Occurs ∧ t'.Calm ∧
      t'.Does m' d ∧ (t'.perform m').Moves ns' v := by
  induction hns with
  | rest =>
    obtain ⟨m', hm'⟩ := h.does hs ht hm
    exact absurd hm' hv.not_does
  | @move t v m' ns _ hrest ih =>
    by_cases hdoes : ∃ d', t.Does m' d'
    · obtain ⟨d', hm'⟩ := hdoes
      obtain ⟨m'', hm''⟩ := h.symm.does ht hs hm'
      obtain rfl := hsc.deed_eq hm hm''
      exact ⟨t, m', ns, h, ht, htc, hm', hrest⟩
    · have hidle : ∀ d', ¬t.Does m' d' := fun d' hm' => hdoes ⟨d', hm'⟩
      exact ih (h.trans (ht.matches_perform htc hidle)) (ht.brings (t.brings_perform m'))
        (htc.perform ht.poolsSound (endsLocally_of_idle hidle)) hv

/-- **Whoever moves first**, two systems that match come to match again when nobody can move. -/
theorem Matches.moves (h : Matches s t) (hms : s.Moves ms u) (hns : t.Moves ns v) (hs : s.Occurs)
    (ht : t.Occurs) (hsc : s.Calm) (htc : t.Calm) (hu : u.Rests) (hv : v.Rests)
    (hlocal : u.Local) : Matches u v := by
  induction hms generalizing t ns with
  | rest => exact h.moves_of_rests hns hs ht htc hu
  | @move s u m ms _ hrest ih =>
    have hperformed := hs.brings (s.brings_perform m)
    have hends := (hlocal.of_brings hperformed hrest.brings).endsLocally hs
    have hcalm := hsc.perform hs.poolsSound hends
    by_cases hdoes : ∃ d, s.Does m d
    · obtain ⟨d, hm⟩ := hdoes
      obtain ⟨t', m', ns', hmatches, ht', htc', hm', hrest'⟩ :=
        h.comes_to hns hs ht hsc htc hm hv
      have hends' := hmatches.endsLocally hm hm' hends
      exact ih (hmatches.perform hs ht' hsc htc' hm hm' hends) hrest' hperformed
        (ht'.brings (t'.brings_perform m')) hcalm (htc'.perform ht'.poolsSound hends') hu hlocal
    · have hidle : ∀ d, ¬s.Does m d := fun d hm => hdoes ⟨d, hm⟩
      exact ih ((hs.matches_perform hsc hidle).symm.trans h) hns hperformed ht hcalm htc hu hlocal

end System
end WorkerPool
