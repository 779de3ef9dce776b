/-
# One body at a time

After one action of a caller on a system where nobody can move, threads move until nobody can.
Many of them may be told to look, but there is work for one (`System.Calm`): at any moment, at most
one body is under way, or else one pool has a record that waits and a worker that will find it.  A
move keeps that, as long as no body submits a task (`Calm.perform`): a worker that claims a record
takes the place of the record, and one that finishes its record looks in its own place.

A worker that has just been started counts as busy until it looks; `Pool.Fresh` says that it will
not look in vain, which is what keeps it out of the sight of other bodies.
-/
import Mathlib.Algebra.Order.BigOperators.Group.List
import Mathlib.Algebra.Order.Group.Nat
import WorkerPool.Proofs.Allowance
import WorkerPool.Proofs.Endings

namespace WorkerPool

/-- At most one place of a list has something to add. -/
theorem sum_le_one {β : Type} {f : β → Nat} {l : List β} (hle : ∀ b ∈ l, f b ≤ 1)
    (hone : ∀ (v w : Nat) (b c : β), l[v]? = some b → l[w]? = some c → 0 < f b → 0 < f c →
      v = w) : (l.map f).sum ≤ 1 := by
  induction l with
  | nil => exact Nat.zero_le _
  | cons b rest ih =>
    have hb := hle b List.mem_cons_self
    rw [List.map_cons, List.sum_cons]
    rcases Nat.eq_zero_or_pos (f b) with hzero | hpos
    · rw [hzero, Nat.zero_add]
      refine ih (fun c hc => hle c (List.mem_cons_of_mem b hc)) fun v w c d hc hd hfc hfd => ?_
      have hvw := hone (v + 1) (w + 1) c d hc hd hfc hfd
      omega
    · -- then nothing else adds anything
      have hrest : (rest.map f).sum = 0 := by
        refine List.sum_eq_zero fun n hn => ?_
        obtain ⟨c, hc, rfl⟩ := List.mem_map.mp hn
        obtain ⟨w, hw⟩ := List.getElem?_of_mem hc
        by_contra hne
        exact absurd (hone 0 (w + 1) b c rfl hw hpos (Nat.pos_of_ne_zero hne)) (by simp)
      omega

/-- What two places of a list add. -/
theorem add_le_sum {β : Type} (f : β → Nat) {l : List β} {v w : Nat} {b c : β}
    (hv : l[v]? = some b) (hw : l[w]? = some c) (hne : v ≠ w) : f b + f c ≤ (l.map f).sum := by
  have hset := Pool.sum_map_set (fun n : Nat => n) (l := l.map f) (i := v) (b := f b)
    (by rw [List.getElem?_map, hv]; rfl) 0
  have hrest : ((l.map f).set v 0)[w]? = some (f c) := by
    rw [List.getElem?_set_ne hne, List.getElem?_map, hw]
    rfl
  have hle := List.single_le_sum (fun n _ => Nat.zero_le n) _ (List.mem_of_getElem? hrest)
  simp only [List.map_id_fun', id_eq] at hset
  omega

theorem countP_eq_sum {β : Type} (f : β → Bool) (l : List β) :
    l.countP f = (l.map fun b => if f b then 1 else 0).sum := by
  induction l with
  | nil => rfl
  | cons b rest ih => rw [List.countP_cons, ih, List.map_cons, List.sum_cons, Nat.add_comm]

/-- Two places of a list that count. -/
theorem two_le_countP {β : Type} {f : β → Bool} {l : List β} {v w : Nat} {b c : β}
    (hv : l[v]? = some b) (hw : l[w]? = some c) (hb : f b = true) (hc : f c = true)
    (hne : v ≠ w) : 2 ≤ l.countP f := by
  have hadd := add_le_sum (fun b => if f b then 1 else 0) hv hw hne
  rwa [← countP_eq_sum, if_pos hb, if_pos hc] at hadd

/-- Whether run number `run` of a body neither submits a task nor gives the name of its worker. -/
def Body.isLocal {α : Type} (b : Body α) (run : Nat) : Bool :=
  b.panics.has run ||
    match b.kind with
    | .submit on _ _ => !on.has run
    | .workerName => false
    | _ => true

/-! ## 1. Pools -/

namespace Pool

variable {α : Type} {p p' : Pool α} {n : Nat}

/-- The workers with a body that no gate holds up. -/
def underWay (p : Pool α) : Nat := p.workers.countP Phase.isUnderWay

/-- The workers that are about to look for work. -/
def looking (p : Pool α) : Nat := p.workers.countP Phase.isLooking

/-- How many workers of a pool can go on with a body, or will find one. -/
def stir (p : Pool α) : Nat := p.underWay + min p.queue.waiting.length p.looking

/-- A worker that has just been started will find a record, because nobody else looks for one. -/
def Fresh (p : Pool α) : Prop :=
  .starting ∈ p.workers → p.queue.waiting ≠ [] ∧ p.looking = 1

/-- A pool where no more than so many workers have something to do. -/
structure Calm (n : Nat) (p : Pool α) : Prop where
  stir_le : p.stir ≤ n
  fresh : p.Fresh

/-- Only workers and waiting records matter. -/
theorem Calm.congr (h : p.Calm n) (hworkers : p'.workers = p.workers)
    (hwaiting : p'.queue.waiting = p.queue.waiting) : p'.Calm n := by
  constructor
  · rw [stir, underWay, looking, hworkers, hwaiting]
    exact h.stir_le
  · rw [Fresh, looking, hworkers, hwaiting]
    exact h.fresh

/-- Where no record waits, only the bodies count. -/
theorem stir_of_waiting_nil (h : p.queue.waiting = []) : p.stir = p.underWay := by
  rw [stir, h, List.length_nil, Nat.zero_min, Nat.add_zero]

/-- Where nobody looks for work, only the bodies count. -/
theorem stir_of_looking_zero (h : p.looking = 0) : p.stir = p.underWay := by
  rw [stir, h, Nat.min_zero, Nat.add_zero]

theorem Fresh.of_notMem (h : .starting ∉ p.workers) : p.Fresh := fun hmem => absurd hmem h

/-- A worker goes from one stage of its body to another. -/
theorem Calm.setStage (h : p.Calm n) {w : Nat} {k : Ticket} {job : Job} {stage : Stage}
    (hw : p.workers[w]? = some (.executing k job stage)) (stage' : Stage)
    (hstage : (Phase.executing k job stage).isUnderWay = true) :
    (p.setPhase w (.executing k job stage')).Calm n := by
  have hlooking : (p.setPhase w (.executing k job stage')).looking = p.looking :=
    countP_setPhase hw (.executing k job stage') Phase.isLooking
  have hunderWay := countP_setPhase hw (.executing k job stage') Phase.isUnderWay
  have hle := h.stir_le
  constructor
  · rw [if_pos hstage] at hunderWay
    have hnew : (if (Phase.executing k job stage').isUnderWay then 1 else 0) ≤ 1 := by
      split <;> simp
    rw [stir, hlooking, queue_setPhase]
    unfold stir underWay at *
    omega
  · intro hmem
    rw [hlooking]
    refine h.fresh ?_
    rcases List.mem_or_eq_of_mem_set hmem with hmem | he
    · exact hmem
    · cases he

/-- A worker at its look, in a pool where no other one has just been started. -/
theorem Calm.advance (hq : p.queue.Sound) {w : Nat} (hw : p.workers[w]? = some .starting)
    (hfresh : ∀ v : Nat, v ≠ w → p.workers[v]? ≠ some .starting) : (p.advance w).Calm p.stir := by
  have hgone (phase : Phase) (hphase : phase ≠ .starting) :
      Phase.starting ∉ (p.setPhase w phase).workers := by
    intro hmem
    obtain ⟨v, hv⟩ := List.getElem?_of_mem hmem
    rw [workers_setPhase hw] at hv
    split at hv
    · exact hphase (Option.some.inj hv)
    · next hne => exact hfresh v hne hv
  rcases advance_cases hq w with
    ⟨k, rest, r, job, hwait, -, -, -, he⟩ | ⟨hwait, ⟨-, he⟩ | ⟨-, he⟩⟩ <;> rw [he]
  · -- the record gives way to its worker
    refine ⟨?_, .of_notMem (hgone (.executing k job .entering) (by simp))⟩
    have hunderWay : (p.setPhase w (.executing k job .entering)).underWay = p.underWay + 1 :=
      countP_setPhase hw (.executing k job .entering) Phase.isUnderWay
    have hlooking : (p.setPhase w (.executing k job .entering)).looking + 1 = p.looking :=
      countP_setPhase hw (.executing k job .entering) Phase.isLooking
    show (p.setPhase w _).underWay + min rest.length (p.setPhase w _).looking ≤ p.stir
    rw [stir, hunderWay, ← hlooking, hwait, List.length_cons]
    omega
  · refine ⟨?_, .of_notMem (hgone (.parked false) (by simp))⟩
    have hunderWay : (p.setPhase w (.parked false)).underWay = p.underWay :=
      countP_setPhase hw (.parked false) Phase.isUnderWay
    rw [stir_of_waiting_nil hwait, ← hunderWay]
    exact Nat.le_of_eq (stir_of_waiting_nil hwait)
  · refine ⟨?_, .of_notMem (hgone .exited (by simp))⟩
    have hunderWay : (p.setPhase w .exited).underWay = p.underWay :=
      countP_setPhase hw .exited Phase.isUnderWay
    rw [stir_of_waiting_nil hwait, ← hunderWay]
    exact Nat.le_of_eq (stir_of_waiting_nil hwait)

/-- **A worker that looks for work, or first finishes its record**, brings nothing new about. -/
theorem Sound.calm_goOn (h : p.Sound) {w : Nat} {phase : Phase}
    (hw : p.workers[w]? = some phase) (hlooks : phase.looksNext = true) (hfresh : p.Fresh)
    (hle : p.stir ≤ 1) : (p.goOn w phase).Calm p.stir := by
  have hstarting (v : Nat) (hv : p.workers[v]? = some .starting) :
      p.queue.waiting ≠ [] ∧ p.looking = 1 := hfresh (List.mem_of_getElem? hv)
  rcases phase with _ | notified | ⟨k, job, stage⟩ | _
  · refine Calm.advance h.queue hw fun v hne hv => ?_
    have htwo := two_le_countP (f := Phase.isLooking) hv hw rfl rfl hne
    have hone : p.workers.countP _ = 1 := (hstarting v hv).2
    omega
  · obtain rfl : notified = true := hlooks
    have hwoken := workers_setPhase (p := { p with busy := p.busy + 1 }) hw .starting
    have hcalm := Calm.advance (h.woken hw).queue
      (workers_setPhase_self (p := { p with busy := p.busy + 1 }) hw .starting) fun v hne hv => by
        rw [hwoken, if_neg hne] at hv
        replace hv : p.workers[v]? = some .starting := hv
        have htwo := two_le_countP (f := Phase.isLooking) hv hw rfl rfl hne
        have hone : p.workers.countP _ = 1 := (hstarting v hv).2
        omega
    rw [advance_setPhase] at hcalm
    have hsame : ({ p with busy := p.busy + 1 }.setPhase w .starting).stir = p.stir := by
      have hunderWay := countP_setPhase hw .starting Phase.isUnderWay
      have hlooking := countP_setPhase hw .starting Phase.isLooking
      show (p.setPhase w .starting).workers.countP Phase.isUnderWay +
        min p.queue.waiting.length ((p.setPhase w .starting).workers.countP Phase.isLooking) = _
      unfold stir underWay looking
      simp only [Phase.isUnderWay, Phase.isLooking, if_true, Bool.false_eq_true, if_false]
        at hunderWay hlooking
      omega
    rwa [hsame] at hcalm
  · cases stage with
    | «over» =>
      obtain ⟨r, -, -, he⟩ := h.finish_eq hw
      have hunderWay : (p.setPhase w .starting).underWay + 1 = p.underWay :=
        countP_setPhase hw .starting Phase.isUnderWay
      have hlooking : (p.setPhase w .starting).looking = p.looking + 1 :=
        countP_setPhase hw .starting Phase.isLooking
      have hended : (p.ended w k r.detached).stir ≤ p.stir := by
        show (p.setPhase w .starting).underWay +
          min (p.queue.finished k).waiting.length (p.setPhase w .starting).looking ≤ _
        rw [Queue.waiting_finished, hlooking]
        unfold stir
        omega
      have hcalm := Calm.advance (h.ended hw r.detached).queue
        (workers_setPhase_self hw .starting) fun v hne hv => ?_
      · show (p.finish w k).Calm _
        rw [he]
        exact ⟨Nat.le_trans hcalm.stir_le hended, hcalm.fresh⟩
      · -- a worker just started would have a record to find meanwhile
        replace hv : (p.setPhase w .starting).workers[v]? = some .starting := hv
        rw [workers_setPhase hw, if_neg hne] at hv
        obtain ⟨hwait, hone⟩ := hstarting v hv
        have hpos := List.length_pos_iff.mpr hwait
        unfold stir at hle
        omega
    | _ => exact absurd hlooks (by simp [Phase.looksNext, Phase.isLooking])
  · exact absurd hlooks (by simp [Phase.looksNext, Phase.isLooking])

/-! Pools in which nobody can move -/

/-- No worker can move. -/
def Rests (p : Pool α) : Prop :=
  ∀ phase ∈ p.workers, phase.isUnderWay = false ∧ phase.isLooking = false

theorem Rests.underWay_eq (h : p.Rests) : p.underWay = 0 :=
  List.countP_eq_zero.mpr fun phase hmem => by simp [(h phase hmem).1]

theorem Rests.looking_eq (h : p.Rests) : p.looking = 0 :=
  List.countP_eq_zero.mpr fun phase hmem => by simp [(h phase hmem).2]

theorem Rests.fresh (h : p.Rests) : p.Fresh :=
  .of_notMem fun hmem => absurd (h _ hmem).2 (by simp [Phase.isLooking])

theorem Rests.stir_eq (h : p.Rests) : p.stir = 0 := by
  rw [stir_of_looking_zero h.looking_eq, h.underWay_eq]

theorem Rests.calm (h : p.Rests) (n : Nat) : p.Calm n := ⟨h.stir_eq ▸ Nat.zero_le n, h.fresh⟩

/-- Told to look, the workers that are parked are the ones that do. -/
theorem Rests.notifyWorkers (h : p.Rests) :
    p.notifyWorkers.underWay = 0 ∧ .starting ∉ p.notifyWorkers.workers ∧
      ((∀ w : Nat, p.workers[w]? ≠ some (.parked false)) → p.notifyWorkers.looking = 0) := by
  refine ⟨List.countP_eq_zero.mpr fun phase hmem => ?_, fun hmem => ?_, fun hnone => ?_⟩
  · obtain ⟨old, hold, rfl⟩ := List.mem_map.mp hmem
    have hrest := (h old hold).1
    cases old <;> simp_all [Phase.notify, Phase.isUnderWay]
  · obtain ⟨old, hold, he⟩ := List.mem_map.mp hmem
    have hrest := (h old hold).2
    cases old <;> simp_all [Phase.notify, Phase.isLooking]
  · refine List.countP_eq_zero.mpr fun phase hmem => ?_
    obtain ⟨old, hold, rfl⟩ := List.mem_map.mp hmem
    have hrest := (h old hold).2
    rcases old with _ | _ | _ | _
    · simp [Phase.isLooking] at hrest
    · obtain ⟨w, hw⟩ := List.getElem?_of_mem hold
      obtain rfl : _ = false := hrest
      exact absurd hw (hnone w)
    · simp [Phase.notify, Phase.isLooking]
    · simp [Phase.notify, Phase.isLooking]

/-- While a record waits nobody is parked, so telling all wakes nobody who will find one. -/
theorem Rests.stir_notifyWorkers (h : p.Rests) (hp : p.Sound) : p.notifyWorkers.stir = 0 := by
  obtain ⟨hunderWay, -, hlooking⟩ := h.notifyWorkers
  by_cases hwait : p.queue.waiting = []
  · have hnone : p.notifyWorkers.queue.waiting = [] := hwait
    rw [stir_of_waiting_nil hnone, hunderWay]
  · rw [stir_of_looking_zero (hlooking (hp.alert.told (Or.inl hwait))), hunderWay]

/-- **A submission has work for one worker.** -/
theorem Rests.calm_submit (h : p.Rests) (hp : p.Sound) (refusal : Option String) (job : Job) :
    (p.submit refusal job).2.Calm 1 := by
  -- a pool where nobody was started
  have hlinked {q : Pool α} (hworkers : q.workers = p.workers) (hqueue : q.queue = p.queue) :
      (q.linked job).Calm 1 := by
    have hq : q.Rests := by rwa [Rests, hworkers]
    obtain ⟨hunderWay, hstarting, hlooking⟩ := hq.notifyWorkers
    refine ⟨?_, .of_notMem hstarting⟩
    show q.notifyWorkers.underWay + min (q.queue.pushed job).waiting.length
      q.notifyWorkers.looking ≤ 1
    rw [hunderWay, Nat.zero_add]
    by_cases hwait : p.queue.waiting = []
    · have hlength : (q.queue.pushed job).waiting.length = 1 := by
        rw [hqueue, Queue.pushed, hwait]
        rfl
      omega
    · have hnone := hlooking (hworkers ▸ hp.alert.told (Or.inl hwait))
      omega
  rcases submit_cases p refusal job with ⟨-, he⟩ | ⟨e, -, hgrow, he⟩ | ⟨-, hgrow, he⟩ <;> rw [he]
  · exact (h.calm 1).congr rfl rfl
  · rcases p.grow_cases refusal with ⟨-, hg⟩ | ⟨-, -, hg⟩ | ⟨_, -, -, ⟨-, hg⟩ | ⟨-, hg⟩⟩ <;>
      rw [hg] at hgrow ⊢
    · cases hgrow
    · cases hgrow
    · cases hgrow
    · exact (h.calm 1).congr rfl rfl
  · rcases p.grow_cases refusal with ⟨-, hg⟩ | ⟨hwants, -, hg⟩ | ⟨_, -, -, ⟨-, hg⟩ | ⟨-, hg⟩⟩ <;>
      rw [hg] at hgrow ⊢
    · exact hlinked rfl rfl
    · -- nobody is parked, so nobody but the new worker looks
      have hnone (w : Nat) : p.workers[w]? ≠ some (.parked false) := by
        intro hw
        have hcount := countP_eq_add (l := p.workers) (f := Phase.isIn) (g := Phase.isBusy)
          (h := fun phase => phase.isIn && !phase.isBusy) fun phase _ => by cases phase <;> simp
            [Phase.isIn, Phase.isBusy]
        have hpos : 0 < p.workers.countP fun phase => phase.isIn && !phase.isBusy :=
          List.countP_pos_iff.mpr ⟨_, List.mem_of_getElem? hw, rfl⟩
        simp only [wantsWorker, Bool.and_eq_true, beq_iff_eq] at hwants
        rw [hp.counted.threads_eq, hp.counted.busy_eq] at hwants
        omega
      obtain ⟨hunderWay, -, hlooking⟩ := h.notifyWorkers
      have hone : (p.startWorker.linked job).looking = 1 := by
        show ((p.workers ++ [Phase.starting]).map Phase.notify).countP Phase.isLooking = 1
        rw [List.map_append, List.countP_append]
        exact congrArg (· + 1) (hlooking hnone)
      have hsame : (p.startWorker.linked job).underWay = 0 := by
        show ((p.workers ++ [Phase.starting]).map Phase.notify).countP Phase.isUnderWay = 0
        rw [List.map_append, List.countP_append]
        exact congrArg (· + 0) hunderWay
      refine ⟨?_, fun _ => ⟨List.cons_ne_nil _ _, hone⟩⟩
      rw [stir, hsame, hone]
      omega
    · exact hlinked rfl rfl
    · cases hgrow

theorem Rests.calm_shutdown (h : p.Rests) (hp : p.Sound) : p.shutdown.2.Calm 0 := by
  have htold : p.notifyWorkers.Calm 0 :=
    ⟨Nat.le_of_eq (h.stir_notifyWorkers hp), .of_notMem h.notifyWorkers.2.1⟩
  unfold Pool.shutdown
  split
  · unfold awaitWorkers
    split <;> exact htold.congr rfl rfl
  · exact (h.calm 0).congr rfl rfl

theorem Rests.calm_drop (h : p.Rests) (hp : p.Sound) : p.drop.Calm 0 := by
  have htold : p.notifyWorkers.Calm 0 :=
    ⟨Nat.le_of_eq (h.stir_notifyWorkers hp), .of_notMem h.notifyWorkers.2.1⟩
  unfold Pool.drop
  split
  · exact htold.congr rfl rfl
  · exact h.calm 0

/-- A body that is local ends. -/
def endRun (p : Pool α) (w : Nat) (k : Ticket) (job : Job) (e : Ending α) : Pool α :=
  (match e with
    | .returned v => p.putResult k v
    | .panicked => p.note (.panicked w k.number)).setPhase w (.executing k job .over)

/-- What is reported of the end of a body. -/
def reported (p : Pool α) (payload : α) : Ending α → List (Event α)
  | .returned _ => []
  | .panicked => p.panicEvents payload

theorem Calm.endRun (h : p.Calm n) {w run : Nat} {k : Ticket} {job : Job}
    (hw : p.workers[w]? = some (.executing k job (.past run))) (e : Ending α) :
    (p.endRun w k job e).Calm n := by
  have hover := h.setStage hw .over rfl
  cases e with
  | panicked => exact hover.congr rfl rfl
  | returned v =>
    refine hover.congr ?_ ?_
    · show (p.putResult k v).workers.set w _ = p.workers.set w _
      rw [workers_putResult]
    · show (p.putResult k v).queue.waiting = p.queue.waiting
      rw [queue_putResult]

end Pool

/-! ## 2. Moves -/

namespace System

variable {α : Type} {s s' u : System α} {ms : List Move}

/-- No run that has ended submitted a task or gave the name of its worker. -/
def Local (s : System α) : Prop :=
  ∀ (a run : Nat) (t : Task α), s.tasks[a]? = some t → s.HasEnded a run → t.body.isLocal run = true

/-- If the move ends a body, the body is local. -/
def EndsLocally (s : System α) (m : Move) : Prop :=
  ∀ i w k job run t, m = .worker i w → s.phase? i w = some (.executing k job (.past run)) →
    s.tasks[job.task]? = some t → t.body.isLocal run = true

theorem Local.of_brings (h : s'.Local) (hs : s.Occurs) (hbrings : s.Brings s') : s.Local := by
  intro a run t ht hended
  obtain ⟨t', ht', hlater⟩ := hbrings.tasksStay a t ht
  rw [← hlater.body_eq]
  exact h a run t' ht' (hbrings.hasEnded hs hended)

theorem Local.endsLocally {m : Move} (h : (s.perform m).Local) (hs : s.Occurs) :
    s.EndsLocally m := by
  rintro i w k job run t rfl hw ht
  obtain ⟨p, hp, -, rfl⟩ := hs
  obtain ⟨t', ht', hlater⟩ := p.system.tasksStay_perform (.worker i w) job.task t ht
  rw [← hlater.body_eq]
  exact h job.task run t' ht' (hp.hasEnded_move hw).2

/-- The end of a local body concerns its pool, and the handler of the pool. -/
theorem endBody_of_isLocal {i w run : Nat} {k : Ticket} {job : Job} {p : Pool α} {t : Task α}
    (hi : s.pools[i]? = some p) (ht : s.tasks[job.task]? = some t)
    (hlocal : t.body.isLocal run = true) :
    s.endBody i w k job run =
      { s.modifyPool i (·.endRun w k job (s.ending p w t run)) with
        events := p.reported t.body.payload (s.ending p w t run) ++ s.events } := by
  unfold endBody ending
  rw [hi, ht]
  dsimp only
  cases hpanics : t.body.panics.has run with
  | true =>
    rw [if_pos rfl, if_pos rfl, reportPanic_eq]
    rfl
  | false =>
    have hstays : (s.evaluate p w t run).2 = s := by
      rw [Body.isLocal, hpanics, Bool.false_or] at hlocal
      unfold evaluate
      cases hkind : t.body.kind with
      | submit on pool task =>
        rw [hkind] at hlocal
        have hnot : on.has run = false := by simpa using hlocal
        dsimp only
        rw [hnot]
        rfl
      | _ => rfl
    rw [if_neg Bool.false_ne_true, if_neg Bool.false_ne_true]
    show (s.evaluate p w t run).2.modifyPool i _ = _
    rw [hstays]
    rfl

/-- In all pools together, one worker at most has something to do. -/
structure Calm (s : System α) : Prop where
  stir_le : (s.pools.map Pool.stir).sum ≤ 1
  fresh : ∀ p ∈ s.pools, p.Fresh

/-- How many bodies are under way. -/
def underWay (s : System α) : Nat := (s.pools.map Pool.underWay).sum

theorem Calm.underWay_le (h : s.Calm) : s.underWay ≤ 1 :=
  Nat.le_trans (List.sum_le_sum fun _ _ => Nat.le_add_right _ _) h.stir_le

theorem Calm.of_pools (h : s.Calm) (hpools : s'.pools = s.pools) : s'.Calm := by
  constructor
  · rw [hpools]
    exact h.stir_le
  · rw [hpools]
    exact h.fresh

theorem Calm.pool_le (h : s.Calm) {i : Nat} {p : Pool α} (hi : s.pools[i]? = some p) :
    p.stir ≤ 1 :=
  Nat.le_trans (List.single_le_sum (fun n _ => Nat.zero_le n) _
    (List.mem_map_of_mem (List.mem_of_getElem? hi))) h.stir_le

theorem Calm.pool (h : s.Calm) {i : Nat} {p : Pool α} (hi : s.pools[i]? = some p) :
    p.Calm p.stir :=
  ⟨Nat.le_refl _, h.fresh p (List.mem_of_getElem? hi)⟩

theorem Calm.modifyPool (h : s.Calm) {i : Nat} {p : Pool α} (hi : s.pools[i]? = some p)
    {f : Pool α → Pool α} (hf : (f p).Calm p.stir) : (s.modifyPool i f).Calm := by
  constructor
  · have hsum := sum_modifyPool Pool.stir hi f
    have hle := h.stir_le
    have hstir := hf.stir_le
    omega
  · intro q hq
    obtain ⟨j, hj⟩ := List.getElem?_of_mem hq
    rw [pools_modifyPool] at hj
    split at hj
    · next hji =>
      rw [hji, hi] at hj
      obtain rfl := Option.some.inj hj
      exact hf.fresh
    · exact h.fresh q (List.mem_of_getElem? hj)

theorem Calm.join (h : s.Calm) (x : Submission) :
    (s.modifyPool x.pool (·.join x.ticket)).Calm := by
  cases hi : s.pools[x.pool]? with
  | none => rwa [modifyPool_of_none hi]
  | some p =>
    exact h.modifyPool hi ((h.pool hi).congr rfl (Queue.waiting_update _ _ _))

theorem Calm.waits (hs : s.Calm) {n : Nat} (h : s.Waits n s') : s'.Calm := by
  induction h with
  | refl => exact hs
  | mark _ x ih => exact ih.join x
  | turn _ _ ih => exact ih.of_pools rfl

theorem Calm.works (h : s.Calm) (hs : s.PoolsSound) {i w : Nat}
    (hlocal : s.EndsLocally (.worker i w)) (hworks : s.Works i w s') : s'.Calm := by
  -- a section that ends with a look for work
  have hlook {phase : Phase} (hphase : s.phase? i w = some phase)
      (hlooks : phase.looksNext = true) : (s.modifyPool i (·.goOn w phase)).Calm := by
    obtain ⟨p, hi, hw⟩ := phase?_eq_some.mp hphase
    exact h.modifyPool hi ((hs i p hi).calm_goOn hw hlooks (h.pool hi).fresh (h.pool_le hi))
  cases hworks with
  | idle => exact h
  | look hw hlooks => exact hlook hw hlooks
  | @enter k job hphase =>
    obtain ⟨p, hi, hw⟩ := phase?_eq_some.mp hphase
    unfold enterBody
    split
    · refine Calm.of_pools (s := s.modifyPool i _) ?_ rfl
      exact h.modifyPool hi ((h.pool hi).setStage hw _ rfl)
    · exact h
  | @leave k job run hphase =>
    obtain ⟨p, hi, hw⟩ := phase?_eq_some.mp hphase
    cases ht : s.tasks[job.task]? with
    | none =>
      unfold endBody
      rw [hi, ht]
      exact h
    | some t =>
      rw [endBody_of_isLocal hi ht (hlocal i w k job run t rfl hphase ht)]
      refine Calm.of_pools (s := s.modifyPool i _) ?_ rfl
      exact h.modifyPool hi ((h.pool hi).endRun hw _)
  | finish hw => exact Calm.of_pools (s := s.modifyPool i _) (hlook hw rfl) rfl

/-- **One move of any thread.** -/
theorem Calm.perform (h : s.Calm) (hs : s.PoolsSound) {m : Move} (hlocal : s.EndsLocally m) :
    (s.perform m).Calm := by
  cases m with
  | worker i w => exact h.works hs hlocal (s.works_worker i w)
  | joiner n => exact h.waits (s.waits_joiner n)
  | shutdown i =>
    cases hi : s.pools[i]? with
    | none =>
      show (s.modifyPool i _).Calm
      rwa [modifyPool_of_none hi]
    | some p =>
      have hp := h.pool hi
      refine h.modifyPool hi ?_
      split
      · unfold Pool.awaitWorkers
        split <;> exact hp.congr rfl rfl
      · exact hp

/-- Any number of moves. -/
theorem Calm.moves (h : s.Calm) (hmoves : s.Moves ms u) (hs : s.Occurs) (hu : u.Local) :
    u.Calm := by
  induction hmoves with
  | rest => exact h
  | @move s u m ms _ hrest ih =>
    have hm := hs.brings (s.brings_perform m)
    have hlocal := (hu.of_brings hm hrest.brings).endsLocally hs
    exact ih (h.perform hs.poolsSound hlocal) hm hu

/-! ## 3. Actions -/

/-- Each pool of a system at rest is at rest. -/
theorem Rests.pool (h : s.Rests) {p : Pool α} (hp : p ∈ s.pools) : p.Rests := by
  intro phase hphase
  obtain ⟨i, hi⟩ := List.getElem?_of_mem hp
  obtain ⟨w, hw⟩ := List.getElem?_of_mem hphase
  have hrests := h (.worker i w)
  rw [ready, phase?_eq_some.mpr ⟨p, hi, hw⟩, Option.any_some, Bool.or_eq_false_iff] at hrests
  exact hrests

theorem Rests.stir_eq (h : s.Rests) : (s.pools.map Pool.stir).sum = 0 := by
  refine List.sum_eq_zero fun n hn => ?_
  obtain ⟨p, hp, rfl⟩ := List.mem_map.mp hn
  exact (h.pool hp).stir_eq

theorem Rests.calm (h : s.Rests) : s.Calm :=
  ⟨h.stir_eq ▸ Nat.zero_le 1, fun _ hp => (h.pool hp).fresh⟩

/-- Where nobody could move, one pool brings about no more than it does. -/
theorem Rests.calm_modifyPool (h : s.Rests) (i : Nat) {f : Pool α → Pool α}
    (hf : ∀ p, s.pools[i]? = some p → (f p).Calm 1) : (s.modifyPool i f).Calm := by
  cases hi : s.pools[i]? with
  | none =>
    rw [modifyPool_of_none hi]
    exact h.calm
  | some p =>
    have hcalm := hf p hi
    constructor
    · have hsum := sum_modifyPool Pool.stir hi f
      rw [h.stir_eq, (h.pool (List.mem_of_getElem? hi)).stir_eq] at hsum
      have hle := hcalm.stir_le
      omega
    · intro q hq
      obtain ⟨j, hj⟩ := List.getElem?_of_mem hq
      rw [pools_modifyPool] at hj
      split at hj
      · next hji =>
        rw [hji, hi] at hj
        obtain rfl := Option.some.inj hj
        exact hcalm.fresh
      · exact (h.pool (List.mem_of_getElem? hj)).fresh

theorem Rests.calm_submit (h : s.Rests) (hs : s.PoolsSound) (i a : Nat) :
    (s.submit i a).2.Calm := by
  rcases s.submit_cases i a with ⟨-, he⟩ | ⟨p, t, hi, -, -, hcase⟩
  · rw [he]
    exact h.calm
  have hsubmits : (s.modifyPool i fun _ => (p.submit s.refusal ⟨a⟩).2).Calm := by
    refine h.calm_modifyPool i fun q hq => ?_
    exact (h.pool (List.mem_of_getElem? hi)).calm_submit (hs i p hi) s.refusal ⟨a⟩
  rcases hcase with ⟨e, -, -, he⟩ | ⟨ticket, -, -, he⟩ <;> rw [he]
  · exact hsubmits
  · exact hsubmits.of_pools rfl

theorem Rests.calm_shutdown (h : s.Rests) (hs : s.PoolsSound) (i : Nat) :
    (s.shutdown i).2.Calm := by
  unfold System.shutdown
  split
  · exact h.calm
  · next p hi =>
    split
    · refine h.calm_modifyPool i fun q hq => ?_
      have hcalm := (h.pool (List.mem_of_getElem? hi)).calm_shutdown (hs i p hi)
      exact ⟨Nat.le_trans hcalm.stir_le (Nat.zero_le 1), hcalm.fresh⟩
    · exact h.calm

theorem Rests.calm_dropPool (h : s.Rests) (hs : s.PoolsSound) (i : Nat) :
    (s.dropPool i).Calm := by
  refine h.calm_modifyPool i fun p hi => ?_
  have hcalm := (h.pool (List.mem_of_getElem? hi)).calm_drop (hs i p hi)
  exact ⟨Nat.le_trans hcalm.stir_le (Nat.zero_le 1), hcalm.fresh⟩

end System

namespace Program

variable {α : Type} {p : Program α}

/-- One worker at most waits at the gate of a run. -/
theorem Reachable.gate_unique (h : p.Reachable) {i j v w run : Nat} {k k' : Ticket}
    {job job' : Job} (hv : p.system.phase? i v = some (.executing k job (.atGate run)))
    (hw : p.system.phase? j w = some (.executing k' job' (.atGate run)))
    (hjob : job.task = job'.task) : i = j ∧ v = w := by
  obtain ⟨hbegun, -⟩ := h.begun_of_executing hv (Or.inl rfl)
  obtain ⟨hbegun', -⟩ := h.begun_of_executing hw (Or.inl rfl)
  rw [← hjob] at hbegun'
  obtain ⟨t, ht, hpos, hle⟩ := h.runs_of_begun hbegun
  have hsame := (h.run_unique ht hpos hle).unique hbegun hbegun'
  obtain ⟨rfl, rfl⟩ := Submission.mk.inj hsame
  obtain ⟨pool, hi, hv⟩ := System.phase?_eq_some.mp hv
  obtain ⟨pool', hi', hw⟩ := System.phase?_eq_some.mp hw
  obtain rfl := Option.some.inj (hi.symm.trans hi')
  exact ⟨rfl, (h.poolsSound i pool hi).staffed.executed_once v w k
    (Pool.ticketOf?_of_phase hv) (Pool.ticketOf?_of_phase hw)⟩

/-- Where nobody could move, the opening of a gate lets one worker go on. -/
theorem Reachable.calm_openGate (h : p.Reachable) (hrests : p.system.Rests) (a run : Nat) :
    (p.system.openGate a run).Calm := by
  -- a worker that goes on waited at the gate
  have hheld {i v : Nat} {pool : Pool α} {phase : Phase} (hi : p.system.pools[i]? = some pool)
      (hv : (pool.workers.map (Phase.opened a run))[v]? = some phase)
      (hunderWay : phase.isUnderWay = true) :
      ∃ k job, p.system.phase? i v = some (.executing k job (.atGate run)) ∧ job.task = a := by
    rw [List.getElem?_map] at hv
    obtain ⟨old, hold, rfl⟩ := Option.map_eq_some_iff.mp hv
    have hrest := (hrests.pool (List.mem_of_getElem? hi) old (List.mem_of_getElem? hold)).1
    rcases old with _ | _ | ⟨k, job, _ | r | _ | _⟩ | _
    case executing.atGate =>
      by_cases hsame : job.task = a ∧ r = run
      · obtain ⟨rfl, rfl⟩ := hsame
        exact ⟨k, job, System.phase?_eq_some.mpr ⟨pool, hi, hold⟩, rfl⟩
      · rw [Phase.opened, Stage.opened, if_neg hsame] at hunderWay
        cases hunderWay
    all_goals simp_all [Phase.opened, Stage.opened, Phase.isUnderWay]
  have hpool {i : Nat} {q : Pool α} (hq : (p.system.openGate a run).pools[i]? = some q) :
      ∃ pool, p.system.pools[i]? = some pool ∧
        q = { pool with workers := pool.workers.map (Phase.opened a run) } := by
    rw [System.openGate_pools] at hq
    obtain ⟨pool, hi, rfl⟩ := Option.map_eq_some_iff.mp hq
    exact ⟨pool, hi, rfl⟩
  have hlooking (pool : Pool α) (hmem : pool ∈ p.system.pools) :
      (pool.workers.map (Phase.opened a run)).countP Phase.isLooking = 0 := by
    refine List.countP_eq_zero.mpr fun phase hphase => ?_
    obtain ⟨old, hold, rfl⟩ := List.mem_map.mp hphase
    have hrest := (hrests.pool hmem old hold).2
    cases old <;> simp_all [Phase.opened, Phase.isLooking]
  have hstir {i : Nat} {q : Pool α} (hq : (p.system.openGate a run).pools[i]? = some q) :
      q.stir = q.underWay := by
    obtain ⟨pool, hi, rfl⟩ := hpool hq
    have hnone := hlooking pool (List.mem_of_getElem? hi)
    exact Pool.stir_of_looking_zero hnone
  constructor
  · refine sum_le_one (fun q hq => ?_) fun i j q q' hq hq' hpos hpos' => ?_
    · obtain ⟨i, hplace⟩ := List.getElem?_of_mem hq
      rw [hstir hplace]
      obtain ⟨pool, hi, rfl⟩ := hpool hplace
      unfold Pool.underWay
      rw [countP_eq_sum]
      refine sum_le_one (fun phase _ => by split <;> simp) fun v w b c hv hw hb hc => ?_
      obtain ⟨k, job, hv, hjob⟩ := hheld hi hv (by by_contra hnot; simp [hnot] at hb)
      obtain ⟨k', job', hw, hjob'⟩ := hheld hi hw (by by_contra hnot; simp [hnot] at hc)
      exact (h.gate_unique hv hw (hjob.trans hjob'.symm)).2
    · rw [hstir hq] at hpos
      rw [hstir hq'] at hpos'
      obtain ⟨pool, hi, rfl⟩ := hpool hq
      obtain ⟨pool', hi', rfl⟩ := hpool hq'
      obtain ⟨phase, hphase, hunderWay⟩ := List.countP_pos_iff.mp hpos
      obtain ⟨phase', hphase', hunderWay'⟩ := List.countP_pos_iff.mp hpos'
      obtain ⟨v, hv⟩ := List.getElem?_of_mem hphase
      obtain ⟨w, hw⟩ := List.getElem?_of_mem hphase'
      obtain ⟨k, job, hv, hjob⟩ := hheld hi hv hunderWay
      obtain ⟨k', job', hw, hjob'⟩ := hheld hi' hw hunderWay'
      exact (h.gate_unique hv hw (hjob.trans hjob'.symm)).1
  · intro q hq
    obtain ⟨i, hplace⟩ := List.getElem?_of_mem hq
    obtain ⟨pool, hi, rfl⟩ := hpool hplace
    refine .of_notMem fun hmem => ?_
    obtain ⟨old, hold, he⟩ := List.mem_map.mp hmem
    have hrest := (hrests.pool (List.mem_of_getElem? hi) old hold).2
    cases old <;> simp_all [Phase.opened, Phase.isLooking]

theorem Reachable.calm_giveBack (hrests : p.system.Rests) (l : Leaving) :
    (p.act (.giveBack l)).system.Calm := by
  unfold act
  dsimp only
  split
  · refine hrests.calm_modifyPool _ fun pool hi => ?_
    have hcalm := (hrests.pool (List.mem_of_getElem? hi)).calm 1
    unfold Leaving.giveBack
    split
    · rcases pool.unlink_cases l.submission.ticket with he | he | ⟨f, he⟩ <;> rw [he]
      · exact hcalm
      · exact hcalm.congr rfl (Queue.waiting_unlink _ _)
      · exact hcalm.congr rfl rfl
    · exact hcalm.congr rfl (Queue.waiting_detach _ _)
    · exact hcalm
  · exact hrests.calm

/-- **Whatever a caller does where nobody can move, there is work for one worker at most.** -/
theorem Reachable.calm_act (h : p.Reachable) (hrests : p.system.Rests) (a : Action α) :
    (p.act a).system.Calm := by
  have hs := h.poolsSound
  cases a with
  | addPool id plan =>
    constructor
    · show ((p.system.pools ++ [Pool.create id plan]).map Pool.stir).sum ≤ 1
      rw [List.map_append, List.sum_append, hrests.stir_eq]
      exact Nat.zero_le 1
    · intro q hq
      rcases List.mem_append.mp hq with hq | hq
      · exact (hrests.pool hq).fresh
      · obtain rfl := List.mem_singleton.mp hq
        exact .of_notMem List.not_mem_nil
  | submit i a => exact hrests.calm_submit hs i a
  | join a limit => exact hrests.calm.of_pools (p.system.pools_call a limit)
  | release a =>
    obtain ⟨_, _, he⟩ := p.release_frame a
    exact hrests.calm.of_pools (by rw [he])
  | detach a =>
    obtain ⟨_, _, he⟩ := p.detach_frame a
    exact hrests.calm.of_pools (by rw [he])
  | giveBack l => exact Reachable.calm_giveBack hrests l
  | shutdown i => exact hrests.calm_shutdown hs i
  | dropPool i => exact hrests.calm_dropPool hs i
  | openGate a run => exact h.calm_openGate hrests a run
  | move m =>
    -- nobody can
    refine hrests.calm.perform hs ?_
    rintro i w k job run t rfl hw -
    have hnot := hrests (.worker i w)
    rw [System.ready, hw] at hnot
    cases hnot
  | addTask _ _ => exact hrests.calm.of_pools rfl
  | refuseThreads _ => exact hrests.calm.of_pools rfl
  | elapse _ => exact hrests.calm.of_pools rfl

end Program
end WorkerPool
