/-
# Every action is a sequence of ticks

Where the sections of a pool and the operations of a system are cut into ticks.  A quiet section
makes no tick.  The others make one tick for each thing they do: the finish of a record and the
claim that follows it are two, and so are a body that submits and its end.

The main statement is `ticks_act`: from a program with sound pools, each permitted action is a
sequence of ticks.  The soundness of the pools is where the guards of the ticks come from.
-/
import WorkerPool.Proofs.LedgerView

namespace WorkerPool
namespace Program

open Function (update)

variable {α : Type} {p : Program α} {i : Nat} {pool : Pool α}

/-! ## 1. Claims, marks and submissions -/

/-- A worker without a record looks for work: that is a claim, or is not seen. -/
theorem ticks_advance (hi : p.system.pools[i]? = some pool) (hq : pool.queue.Sound) {w : Nat}
    {old : Phase} (hw : pool.workers[w]? = some old) (hold : old.ticket? = none) :
    Ticks p.ledger (Program.ledger
      { p with
        system := p.system.modifyPool i (·.advance w)
        history := (p.system.modifyPool i (·.advance w)).claimBy i w ++ p.history }) := by
  have hafter :
      (p.system.modifyPool i (·.advance w)).phase? i w = (pool.advance w).workers[w]? := by
    simp [System.phase?, System.pools_modifyPool, hi]
  show Ticks p.ledger { (p.onSystem (·.modifyPool i (·.advance w))).ledger with history := _ }
  rcases Pool.advance_cases hq w with
    ⟨k, rest, r, job, hwait, hr, hs, hj, he⟩ | ⟨hwait, ⟨hact, he⟩ | ⟨hact, he⟩⟩
  · have hclaim : (p.system.modifyPool i (·.advance w)).claimBy i w =
        [Happening.claimed ⟨i, k⟩ w] := by
      have hget : (pool.advance w).workers[w]? = some (.executing k job .entering) := by
        rw [he]
        exact Pool.workers_setPhase_self hw _
      exact System.claimBy_of_entering (hafter.trans hget)
    have hl : (p.onSystem (·.modifyPool i (·.advance w))).ledger =
        { p.ledger with
          record := update p.ledger.record ⟨i, k⟩ (some { r with status := .running, job := none })
          running := update p.ledger.running (i, w) (some (k, job, .entering)) } := by
      rw [ledger_modifyPool hi, he]
      refine Ledger.setPool_eq (record_setPool_update hi fun k' => ?_) (result_setPool hi rfl)
        (running_setPool_update hi (Pool.run?_setPhase hw _))
        (next_setPool hi (Queue.next_started _ _ _)) (faults_setPool hi rfl)
      refine (Queue.get?_started pool.queue k k' rest).trans ?_
      split
      · next hk => rw [hk, hr]; rfl
      · rfl
    rw [hclaim, hl]
    refine .single (Tick.claim ((ledger_record hi k).trans hr) hs hj ?_)
    rw [ledger_running hi, hw]
    exact Pool.run?_eq_none hold
  · have hget : (pool.advance w).workers[w]? = some (.parked false) := by
      rw [he]
      exact Pool.workers_setPhase_self hw _
    have hl := ledger_quiet (f := (·.advance w)) hi (by rw [he]; exact Pool.quiet_park hw hold)
    rw [System.claimBy_of_idle (hafter.trans hget) rfl, hl]
    exact .refl
  · have hget : (pool.advance w).workers[w]? = some .exited := by
      rw [he]
      exact Pool.workers_setPhase_self hw _
    have hl := ledger_quiet (f := (·.advance w)) hi (by rw [he]; exact Pool.quiet_leave hw hold)
    rw [System.claimBy_of_idle (hafter.trans hget) rfl, hl]
    exact .refl

theorem ticks_mark {n : Nat} {j : Joiner α} (hj : p.system.joiners[n]? = some j)
    (hp : j.answer? = none) (hdone : j.deadline = none ∨ p.ledger.IsFinished j.submission) :
    Ticks p.ledger
      (p.onSystem (·.modifyPool j.submission.pool (·.join j.submission.ticket))).ledger := by
  rw [ledger_mark]
  exact .single (Tick.mark j.submission hj hp rfl hdone)

/-- A refused submission is not seen, even if a worker was started for it. -/
theorem ledger_submit_refused {a : Nat} (h : (p.system.submit i a).1 ≠ .accepted) :
    (p.onSystem fun s => (s.submit i a).2).ledger = p.ledger := by
  rcases p.system.submit_cases i a with ⟨-, he⟩ | ⟨pool, t, hi, -, -, hcase⟩
  · simp only [onSystem, he]
  · rcases hcase with ⟨e, hreply, -, he⟩ | ⟨ticket, -, hreply, -⟩
    · have hsubmit := Pool.quiet_submit pool p.system.refusal ⟨a⟩
      rw [hreply] at hsubmit
      rcases hsubmit with ⟨-, -, hquiet⟩ | ⟨hok, -⟩
      · simp only [onSystem, he]
        exact ledger_quiet (f := fun _ => (pool.submit p.system.refusal ⟨a⟩).2) hi hquiet
      · exact absurd hok (by simp)
    · exact absurd hreply h

/-- An accepted one has its record and is put on the list of its task in one go. -/
theorem ticks_submit (p : Program α) (i a : Nat) :
    Ticks p.ledger (p.onSystem fun s => (s.submit i a).2).ledger := by
  by_cases hreply : (p.system.submit i a).1 = .accepted
  case neg =>
    rw [ledger_submit_refused hreply]
  rcases p.system.submit_cases i a with ⟨hne, -⟩ | ⟨pool, t, hi, ha, hlive, hcase⟩
  · exact absurd hreply hne
  rcases hcase with ⟨e, -, hfailed, -⟩ | ⟨ticket, hok, -, he⟩
  · exact absurd (hreply.symm.trans hfailed) (by simp)
  have hsubmit := Pool.quiet_submit pool p.system.refusal ⟨a⟩
  rw [hok] at hsubmit
  rcases hsubmit with ⟨_, herror, -⟩ | ⟨hticket, hquiet⟩
  · exact absurd herror (by simp)
  obtain rfl := Except.ok.inj hticket
  -- the record is pushed, and then the submission is put on the list
  let q := p.onSystem (·.modifyPool i fun _ => (pool.submit p.system.refusal ⟨a⟩).2)
  have hpushed : q.ledger =
      { p.ledger with
        record := update p.ledger.record ⟨i, pool.queue.freshTicket⟩
          (some ⟨pool.queue.next, .queued, false, false, some ⟨a⟩⟩)
        next := update p.ledger.next i (some (pool.queue.next + 1)) } := by
    refine (ledger_modifyPool hi _).trans (Ledger.setPool_eq (record_setPool_update hi fun k' => ?_)
      (result_setPool hi hquiet.results) (running_setPool hi hquiet.running) ?_
      (faults_setPool hi hquiet.faults))
    · rw [hquiet.queue]
      exact Queue.get?_pushed pool.queue ⟨a⟩ k'
    · show update p.ledger.next i (some (pool.submit p.system.refusal ⟨a⟩).2.queue.next) = _
      rw [hquiet.queue]
      rfl
  have hruns : update p.ledger.runs a (some t.runs) = p.ledger.runs := by
    rw [← ledger_runs ha, Function.update_eq_self]
  have hl : (p.onSystem fun s => (s.submit i a).2).ledger =
      p.ledger.accept ⟨i, pool.queue.freshTicket⟩ a ⟨t.fate, t.submissions⟩ := by
    simp only [onSystem, he]
    refine (ledger_modifyTask (p := q) ha _).trans ?_
    rw [hpushed]
    exact Ledger.ext_tasks rfl (fun _ => rfl) (congrFun hruns)
  rw [hl]
  exact .single (Tick.accept (x := ⟨i, pool.queue.freshTicket⟩) (h := ⟨t.fate, t.submissions⟩)
    (ledger_next hi) ((ledger_record hi _).trans (Queue.get?_freshTicket _)) (ledger_holding ha)
    hlive)

/-! ## 2. Joins -/

theorem ticks_setJoin {n : Nat} {j : Joiner α} (hj : p.system.joiners[n]? = some j)
    (hp : j.answer? = none) {state : JoinState α} (hs : p.ledger.Sees j state) :
    Ticks p.ledger (p.onSystem (·.setJoin n state)).ledger := by
  rw [ledger_setJoin hj]
  exact .single (Tick.look hj hp hs)

/-- A join that looks at its record marks it if it has finished. -/
theorem ticks_lookAgain {n : Nat} {j : Joiner α} (hj : p.system.joiners[n]? = some j)
    (hp : j.answer? = none) : Ticks p.ledger (p.onSystem (·.lookAgain n)).ledger := by
  unfold System.lookAgain
  have hrecord : p.ledger.record j.submission = p.system.record? j.submission := rfl
  simp only [onSystem, hj]
  cases hr : p.system.record? j.submission with
  | none => exact ticks_setJoin hj hp (.gone (hrecord.trans hr))
  | some r =>
    rw [hr] at hrecord
    dsimp only
    by_cases hs : r.status = .finished
    · simp only [hs, if_true]
      let q := p.onSystem (·.modifyPool j.submission.pool (·.join j.submission.ticket))
      have hq : q.ledger = { p.ledger with
          record := update p.ledger.record j.submission
            ((p.ledger.record j.submission).map fun r => { r with joined := true }) } :=
        ledger_mark p j.submission
      have hsees : q.ledger.Sees j (.answered (p.system.outcome j.submission)) := by
        rw [← ledger_outcome, hq]
        refine .finished (r := { r with joined := true }) ?_ hs rfl
        show update _ _ _ _ = _
        rw [Function.update_self, hrecord]
        rfl
      exact (ticks_mark hj hp (Or.inr ⟨r, hrecord, hs⟩)).trans (ticks_setJoin (p := q) hj hp hsees)
    · simp only [hs, if_false]
      cases hd : j.isDue p.system.clock with
      | true => exact ticks_setJoin hj hp (.timeout hrecord hs hd)
      | false => exact ticks_setJoin hj hp (.waits hrecord hs hd)

/-- A join that begins to wait marks its record if it has no deadline. -/
theorem ticks_startWait {n : Nat} {j : Joiner α} (hj : p.system.joiners[n]? = some j)
    (hp : j.answer? = none) : Ticks p.ledger (p.onSystem (·.startWait n)).ledger := by
  unfold System.startWait
  simp only [onSystem, hj]
  split
  · next hnone =>
    exact (ticks_mark hj hp (Or.inl (Option.isNone_iff_eq_none.mp hnone))).trans
      (ticks_lookAgain (p := p.onSystem _) hj hp)
  · exact ticks_lookAgain hj hp

/-- A call finds the submission that the join belongs to, or makes no join. -/
theorem ticks_call (p : Program α) (a : Nat) (limit : Option Patience) :
    Ticks p.ledger (p.onSystem fun s => (s.call a limit).2).ledger := by
  unfold System.call System.submissions
  cases ha : p.system.tasks[a]? with
  | none => simp only [onSystem, ha]; exact .refl
  | some t =>
    simp only [onSystem, ha]
    split
    · exact .refl
    next x hx =>
    split
    · exact .refl
    have hlive : t.fate = .live := by
      by_contra hf
      simp [Task.isLive, hf] at hx
    have hhead : t.submissions.head? = some x := by simpa [Task.isLive, hlive] using hx
    have hl : (p.onSystem fun s => { s with
          joiners := s.joiners ++ [⟨a, x, limit.bind (·.deadline? s.clock), .called⟩] }).ledger =
        { p.ledger with
          joiner := update p.ledger.joiner p.system.joiners.length
            (some ⟨a, x, limit.bind (·.deadline? p.system.clock), .called⟩) } := by
      exact Ledger.ext_joiners rfl fun m => getElem?_concat p.system.joiners _ m
    show Ticks p.ledger (p.onSystem fun s => { s with
      joiners := s.joiners ++ [⟨a, x, limit.bind (·.deadline? s.clock), .called⟩] }).ledger
    rw [hl]
    refine .single (Tick.call _ (ledger_holding ha) hlive hhead ?_)
    exact List.getElem?_eq_none (Nat.le_refl _)

/-! ## 3. Bodies -/

theorem running_eq_some {i w : Nat} {k : Ticket} {job : Job} {stage : Stage} :
    p.ledger.running (i, w) = some (k, job, stage) ↔
      p.system.phase? i w = some (.executing k job stage) := by
  show (p.system.phase? i w).bind Phase.run? = _ ↔ _
  rcases p.system.phase? i w with _ | _ | _ | ⟨k', job', stage'⟩ | _ <;> simp [Phase.run?]

/-- In sound pools one worker runs a running record. -/
theorem executes (h : p.system.PoolsSound) {i w : Nat} {k : Ticket} {job : Job} {stage : Stage}
    (hw : p.system.phase? i w = some (.executing k job stage)) :
    p.ledger.Executes ⟨i, k⟩ w job stage := by
  obtain ⟨pool, hi, hphase⟩ := System.phase?_eq_some.mp hw
  have hk := Pool.ticketOf?_of_phase hphase
  refine ⟨running_eq_some.mpr hw, fun w' job' stage' hw' => ?_, ?_⟩
  · obtain ⟨pool', hi', hphase'⟩ := System.phase?_eq_some.mp (running_eq_some.mp hw')
    obtain rfl : pool' = pool := Option.some.inj (hi'.symm.trans hi)
    exact (h i pool' hi).staffed.executed_once w' w k (Pool.ticketOf?_of_phase hphase') hk
  · obtain ⟨r, hr, hs⟩ := Queue.status?_eq_some.mp ((h i pool hi).staffed.executing w k hk)
    exact ⟨r, (ledger_record hi k).trans hr, hs⟩

/-- A body begins as the next run of its task. -/
theorem ticks_enterBody (h : p.system.PoolsSound) {i w : Nat} {k : Ticket} {job : Job}
    {t : Task α} (hw : p.system.phase? i w = some (.executing k job .entering))
    (ht : p.system.tasks[job.task]? = some t) :
    Ticks p.ledger (Program.ledger
      { p with
        system := p.system.enterBody i w k job
        history := .begun ⟨i, k⟩ job.task (t.runs + 1) :: p.history }) := by
  obtain ⟨pool, hi, hphase⟩ := System.phase?_eq_some.mp hw
  let stage :=
    if t.body.gate.has (t.runs + 1) then Stage.atGate (t.runs + 1) else .past (t.runs + 1)
  have hstage : stage = .atGate (t.runs + 1) ∨ stage = .past (t.runs + 1) := by
    by_cases hg : t.body.gate.has (t.runs + 1) = true <;> simp [stage, hg]
  let q := p.onSystem (·.modifyTask job.task fun t' => { t' with runs := t.runs + 1 })
  have hq : q.system.pools[i]? = some pool := hi
  have hl : (q.onSystem (·.modifyPool i (·.setPhase w (.executing k job stage)))).ledger =
      { p.ledger with
        running := update p.ledger.running (i, w) (some (k, job, stage))
        runs := update p.ledger.runs job.task (some (t.runs + 1)) } := by
    have hruns := ledger_modifyTask ht fun t' => { t' with runs := t.runs + 1 }
    have hholding : q.ledger.holding = p.ledger.holding := by
      refine (congrArg Ledger.holding hruns).trans ?_
      show update p.ledger.holding job.task (some ⟨t.fate, t.submissions⟩) = _
      rw [← ledger_holding ht, Function.update_eq_self]
    have hruns : q.ledger.runs = update p.ledger.runs job.task (some (t.runs + 1)) :=
      congrArg Ledger.runs hruns
    rw [ledger_setPhase hq hphase]
    exact Ledger.ext_tasks rfl (congrFun hholding) (congrFun hruns)
  show Ticks p.ledger { (p.onSystem fun s => s.enterBody i w k job).ledger with history := _ }
  have he : (p.onSystem fun s => s.enterBody i w k job).ledger =
      (q.onSystem (·.modifyPool i (·.setPhase w (.executing k job stage)))).ledger := by
    simp only [onSystem, System.enterBody, hi, ht]
    rfl
  rw [he, hl]
  exact .single (Tick.beginBody (x := ⟨i, k⟩) (executes h hw) (ledger_runs ht) hstage)

/-- A body ends and leaves what `f` puts down for it. -/
theorem ticks_over (h : p.system.PoolsSound) {i w run : Nat} {k : Ticket} {job : Job}
    (hi : p.system.pools[i]? = some pool)
    (hw : p.system.phase? i w = some (.executing k job (.past run))) {f : Pool α → Pool α}
    {e : Ending α} (hqueue : (f pool).queue = pool.queue)
    (hworkers : (f pool).workers = pool.workers)
    (hroom : pool.results[k.number]? = none →
      (∀ n, (f pool).results[n]? = if n = k.number then e.result? else pool.results[n]?) ∧
        (f pool).faults = pool.faults) :
    Ticks p.ledger (Program.ledger
      { p with
        system := p.system.modifyPool i fun pool => (f pool).setPhase w (.executing k job .over)
        history := .ended ⟨i, k⟩ e :: p.history }) := by
  have hphase : pool.workers[w]? = some (.executing k job (.past run)) := by
    obtain ⟨pool', hi', hphase⟩ := System.phase?_eq_some.mp hw
    rwa [Option.some.inj (hi.symm.trans hi')]
  let after := (f pool).setPhase w (.executing k job .over)
  have hl : (p.onSystem
        (·.modifyPool i fun pool => (f pool).setPhase w (.executing k job .over))).ledger =
      { p.ledger with
        running := update p.ledger.running (i, w) (some (k, job, .over))
        result := (p.ledger.setPool i after).result
        faults := (p.ledger.setPool i after).faults } := by
    rw [ledger_modifyPool hi]
    refine Ledger.setPool_eq (record_setPool hi fun k' => ?_) rfl
      (running_setPool_update hi fun w' => ?_) (next_setPool hi ?_) rfl
    · exact congrArg (·.get? k') hqueue
    · rw [← hworkers] at hphase ⊢
      exact Pool.run?_setPhase hphase _ w'
    · exact congrArg Queue.next hqueue
  show Ticks p.ledger { (p.onSystem (·.modifyPool i fun pool =>
    (f pool).setPhase w (.executing k job .over))).ledger with history := _ }
  rw [hl]
  refine .single (Tick.endBody (x := ⟨i, k⟩) (executes h hw) fun hnone => ?_)
  obtain ⟨hresults, hfaults⟩ := hroom ((ledger_result hi k.number).symm.trans hnone)
  refine ⟨funext fun ⟨j, n⟩ => ?_, faults_setPool hi hfaults⟩
  by_cases hj : j = i
  · by_cases hn : n = k.number
    · simp [Ledger.setPool, hj, hn, after, Pool.setPhase, hresults, Submission.place]
    · simp [Ledger.setPool, hj, hn, after, Pool.setPhase, hresults, Submission.place,
        ledger_result hi]
  · simp [Ledger.setPool, hj, Submission.place]

theorem ticks_evaluate (p : Program α) (pool : Pool α) (w : Nat) (t : Task α) (run : Nat) :
    Ticks p.ledger (p.onSystem fun s => (s.evaluate pool w t run).2).ledger := by
  rcases p.system.evaluate_cases pool w t run with he | ⟨i, a, he⟩
  · simp only [onSystem, he]
    exact .refl
  · simp only [onSystem, he]
    exact ticks_submit p i a

/-- A body that submits does so before it ends. -/
theorem ticks_endBody (h : p.system.PoolsSound) {i w run : Nat} {k : Ticket} {job : Job}
    {t : Task α} (hi : p.system.pools[i]? = some pool)
    (hw : p.system.phase? i w = some (.executing k job (.past run)))
    (ht : p.system.tasks[job.task]? = some t) :
    Ticks p.ledger (Program.ledger
      { p with
        system := p.system.endBody i w k job run
        history := .ended ⟨i, k⟩ (p.system.ending pool w t run) :: p.history }) := by
  unfold System.endBody System.ending
  simp only [hi, ht]
  by_cases hpanics : t.body.panics.has run = true
  · simp only [hpanics, if_true]
    have hover := ticks_over (e := .panicked) h hi hw (f := (·.note (.panicked w k.number))) rfl rfl
      fun hnone => ⟨fun n => by split <;> simp_all [Ending.result?, Pool.note], rfl⟩
    rw [System.reportPanic_eq]
    exact hover
  · simp only [hpanics]
    let q := p.onSystem fun s => (s.evaluate pool w t run).2
    have hq : q.system.PoolsSound := h.evolves (p.system.evolves_evaluate pool w t run)
    have hqw : q.system.phase? i w = some (.executing k job (.past run)) :=
      System.executing_evaluate hw pool w t run
    obtain ⟨pool', hqi, -⟩ := System.phase?_eq_some.mp hqw
    have hover := ticks_over (e := .returned (p.system.evaluate pool w t run).1) hq hqi hqw
      (f := (·.putResult k (p.system.evaluate pool w t run).1))
      (Pool.queue_putResult pool' k _) (Pool.workers_putResult pool' k _)
      (Pool.putResult_of_none · _)
    exact (ticks_evaluate p pool w t run).trans hover

/-- A worker finishes its record, tells the joins of it and looks for work. -/
theorem ticks_finishBody (h : p.system.PoolsSound) {i w : Nat} {k : Ticket} {job : Job}
    (hw : p.system.phase? i w = some (.executing k job .over)) :
    Ticks p.ledger (Program.ledger
      { p with
        system := p.system.finishBody i w k
        history :=
          (p.system.finishBody i w k).claimBy i w ++ [.finished ⟨i, k⟩ w] ++ p.history }) := by
  obtain ⟨pool, hi, hphase⟩ := System.phase?_eq_some.mp hw
  have hsound := h i pool hi
  obtain ⟨r, hr, hs, hfinish⟩ := hsound.finish_eq hphase
  -- the moment between the finish and the look for work
  let q : Program α :=
    { p with
      system := (p.system.modifyPool i (·.ended w k r.detached)).wakeJoiners ⟨i, k⟩
      history := .finished ⟨i, k⟩ w :: p.history }
  have hqi : q.system.pools[i]? = some (pool.ended w k r.detached) := by
    show (p.system.modifyPool i _).pools[i]? = _
    simp [System.pools_modifyPool, hi]
  have hqw : (pool.ended w k r.detached).workers[w]? = some .starting :=
    Pool.workers_setPhase_self hphase .starting
  have hq : q.ledger = p.ledger.finish ⟨i, k⟩ w r := by
    have hl : (p.onSystem (·.modifyPool i (·.ended w k r.detached))).ledger =
        { p.ledger with
          record := update p.ledger.record ⟨i, k⟩
            (if r.detached then none else some { r with status := .finished })
          running := update p.ledger.running (i, w) none } := by
      rw [ledger_modifyPool hi]
      exact Ledger.setPool_eq (record_setPool_update hi (Queue.get?_finished hr))
        (result_setPool hi rfl) (running_setPool_update hi (Pool.run?_setPhase hphase .starting))
        (next_setPool hi (Queue.next_finished _ _)) (faults_setPool hi rfl)
    have hq : q.ledger = { (p.onSystem (·.modifyPool i (·.ended w k r.detached))).ledger with
        joiner := fun n =>
          (p.ledger.joiner n).map fun j => if j.submission = ⟨i, k⟩ then j.wake else j
        history := .finished ⟨i, k⟩ w :: p.history } :=
      Ledger.ext_joiners rfl fun n => List.getElem?_map ..
    rw [hq, hl]
    rfl
  have hsystem : p.system.finishBody i w k = q.system.modifyPool i (·.advance w) := by
    show (p.system.modifyPool i _).wakeJoiners _ =
      ((p.system.modifyPool i _).modifyPool i _).wakeJoiners _
    rw [System.modifyPool_modifyPool, System.modifyPool_congr (f := (·.finish w k))
      (g := fun p => (p.ended w k r.detached).advance w) hi hfinish]
  have hadvance := ticks_advance hqi (hsound.ended hphase r.detached).queue hqw rfl
  rw [hq, ← hsystem] at hadvance
  rw [List.append_assoc]
  exact .head (Tick.finish (x := ⟨i, k⟩) (executes h hw) ((ledger_record hi k).trans hr)) hadvance

/-! ## 4. Moves -/

theorem act_move {m : Move} {s : System α} {l : List (Happening α)}
    (hs : p.system.perform m = s) (hl : p.system.happenings m = l) :
    p.act (.move m) = { p with system := s, history := l ++ p.history } := by
  subst hs hl
  rfl

/-- A worker that was told to look is busy again before it looks. -/
theorem ticks_wake (h : p.system.PoolsSound) {i w : Nat}
    (hw : p.system.phase? i w = some (.parked true)) :
    Ticks p.ledger (Program.ledger
      { p with
        system := p.system.modifyPool i (·.wake w)
        history := (p.system.modifyPool i (·.wake w)).claimBy i w ++ p.history }) := by
  obtain ⟨pool, hi, hphase⟩ := System.phase?_eq_some.mp hw
  let q := p.onSystem (·.modifyPool i fun p => { p with busy := p.busy + 1 })
  have hq : q.ledger = p.ledger :=
    ledger_quiet (f := fun p => { p with busy := p.busy + 1 }) hi (.of_eq rfl rfl rfl rfl)
  have hqi : q.system.pools[i]? = some { pool with busy := pool.busy + 1 } := by
    simp [q, onSystem, System.pools_modifyPool, hi]
  have hsystem : p.system.modifyPool i (·.wake w) = q.system.modifyPool i (·.advance w) :=
    (p.system.modifyPool_modifyPool i (fun p => { p with busy := p.busy + 1 }) (·.advance w)).symm
  rw [← hq, hsystem]
  exact ticks_advance hqi (h i pool hi).queue hphase rfl

/-- A thread that does not move. -/
theorem ticks_idle {m : Move} (hs : p.system.perform m = p.system)
    (hl : p.system.happenings m = []) : Ticks p.ledger (p.act (.move m)).ledger := by
  rw [act_move hs hl]
  exact .refl

theorem ticks_worker (h : p.system.PoolsSound) (i w : Nat) :
    Ticks p.ledger (p.act (.move (.worker i w))).ledger := by
  cases hw : p.system.phase? i w with
  | none => exact ticks_idle (by simp [System.perform, hw]) (by simp [System.happenings, hw])
  | some phase =>
    obtain ⟨pool, hi, hphase⟩ := System.phase?_eq_some.mp hw
    cases phase with
    | starting =>
      have hs : p.system.perform (.worker i w) = p.system.modifyPool i (·.advance w) := by
        simp [System.perform, hw]
      rw [act_move hs (l := (p.system.modifyPool i (·.advance w)).claimBy i w)
        (by simp [System.happenings, hw, hs])]
      exact ticks_advance hi (h i pool hi).queue hphase rfl
    | parked notified =>
      cases notified with
      | true =>
        have hs : p.system.perform (.worker i w) = p.system.modifyPool i (·.wake w) := by
          simp [System.perform, hw]
        rw [act_move hs (l := (p.system.modifyPool i (·.wake w)).claimBy i w)
          (by simp [System.happenings, hw, hs])]
        exact ticks_wake h hw
      | false => exact ticks_idle (by simp [System.perform, hw]) (by simp [System.happenings, hw])
    | executing k job stage =>
      cases stage with
      | entering =>
        have hs : p.system.perform (.worker i w) = p.system.enterBody i w k job := by
          simp [System.perform, hw]
        cases ht : p.system.tasks[job.task]? with
        | none =>
          rw [act_move (l := []) hs (by simp [System.happenings, hw, ht])]
          simp only [System.enterBody, hi, ht]
          exact .refl
        | some t =>
          rw [act_move hs (by simp only [System.happenings, hw, ht]; rfl)]
          exact ticks_enterBody h hw ht
      | atGate run =>
        exact ticks_idle (by simp [System.perform, hw]) (by simp [System.happenings, hw])
      | past run =>
        have hs : p.system.perform (.worker i w) = p.system.endBody i w k job run := by
          simp [System.perform, hw]
        cases ht : p.system.tasks[job.task]? with
        | none =>
          rw [act_move (l := []) hs (by simp [System.happenings, hw, hi, ht])]
          simp only [System.endBody, hi, ht]
          exact .refl
        | some t =>
          rw [act_move hs (by simp only [System.happenings, hw, hi, ht]; rfl)]
          exact ticks_endBody h hi hw ht
      | «over» =>
        have hs : p.system.perform (.worker i w) = p.system.finishBody i w k := by
          simp [System.perform, hw]
        rw [act_move hs (l := (p.system.finishBody i w k).claimBy i w ++ [.finished ⟨i, k⟩ w])
          (by simp [System.happenings, hw, hs])]
        exact ticks_finishBody h hw
    | exited => exact ticks_idle (by simp [System.perform, hw]) (by simp [System.happenings, hw])

theorem ticks_joiner (p : Program α) (n : Nat) :
    Ticks p.ledger (p.act (.move (.joiner n))).ledger := by
  have hstate : p.system.joinState? n = p.system.joiners[n]?.map (·.state) := by
    unfold System.joinState?
    cases p.system.joiners[n]? <;> rfl
  show Ticks p.ledger (p.onSystem (·.perform (.joiner n))).ledger
  unfold onSystem System.perform
  dsimp only
  rw [hstate]
  cases hj : p.system.joiners[n]? with
  | none => exact .refl
  | some j =>
    rw [Option.map_some]
    match hs : j.state with
    | .called => exact ticks_startWait hj (by simp [Joiner.answer?, hs])
    | .waiting true => exact ticks_lookAgain hj (by simp [Joiner.answer?, hs])
    | .waiting false | .answered answer => exact .refl

theorem ticks_move (h : p.system.PoolsSound) (m : Move) :
    Ticks p.ledger (p.act (.move m)).ledger := by
  cases m with
  | worker i w => exact ticks_worker h i w
  | joiner n => exact ticks_joiner p n
  | shutdown i =>
    show Ticks p.ledger (p.onSystem (·.modifyPool i fun p =>
      if p.standing.isWoken then p.awaitWorkers else p)).ledger
    cases hi : p.system.pools[i]? with
    | none => rw [onSystem, System.modifyPool_of_none hi]
    | some pool =>
      rw [ledger_quiet hi]
      split
      · exact Pool.quiet_awaitWorkers pool
      · exact .refl pool

/-! ## 5. Actions -/

/-- What becomes of a task that is no longer in use, or never was, does not change. -/
theorem ledger_retire_of_not_live {a : Nat}
    (hlive : ∀ t, p.system.tasks[a]? = some t → t.fate ≠ .live) (fate : Fate) :
    (p.onSystem (·.modifyTask a (·.retire fate))).ledger = p.ledger := by
  have hsame (b : Nat) :
      (p.system.modifyTask a (·.retire fate)).tasks[b]? = p.system.tasks[b]? := by
    rw [System.tasks_modifyTask]
    split
    · next hb =>
      subst hb
      cases ht : p.system.tasks[b]? with
      | none => rfl
      | some t => simp [Task.retire, Task.isLive, hlive t ht]
    · rfl
  refine Ledger.ext_tasks rfl (fun b => ?_) fun b => ?_ <;>
    simp [ledger, onSystem, hsame]

/-- A task in use is retired, or nothing is seen. -/
theorem ticks_retire {a : Nat} {fate : Fate} (hfate : fate ≠ .live) (hfree : p.IsFree a)
    (hspent : fate = .released → p.system.canRelease a = true) :
    Ticks p.ledger (p.retire a fate).ledger := by
  have hleaving (g : Ledger α) (hg : (p.onSystem (·.modifyTask a (·.retire fate))).ledger = g) :
      (p.retire a fate).ledger = { g with
        leaving := p.leaving ++ (p.system.submissions a).reverse.map fun x => ⟨a, x, fate⟩ } := by
    subst hg
    rfl
  by_cases hlive : ∀ t, p.system.tasks[a]? = some t → t.fate ≠ .live
  · have hnone : p.system.submissions a = [] := by
      unfold System.submissions
      cases ht : p.system.tasks[a]? with
      | none => rfl
      | some t => simp [Task.isLive, hlive t ht]
    rw [hleaving _ (ledger_retire_of_not_live hlive fate), hnone]
    simp only [List.reverse_nil, List.map_nil, List.append_nil]
    exact .refl
  · push Not at hlive
    obtain ⟨t, ht, hlive⟩ := hlive
    have hsubs : p.system.submissions a = t.submissions := by
      simp [System.submissions, ht, Task.isLive, hlive]
    have hretire : t.retire fate = { t with fate } := by simp [Task.retire, Task.isLive, hlive]
    have hl := ledger_modifyTask ht (·.retire fate)
    rw [hretire, ← ledger_runs ht, Function.update_eq_self] at hl
    rw [hleaving _ hl, hsubs]
    refine .single
      (Tick.retire (h := ⟨t.fate, t.submissions⟩) (ledger_holding ht) hlive hfate ?_ ?_)
    · intro n j hj htask hnone
      have hsome := hfree j (List.mem_of_getElem? hj) htask
      rw [hnone] at hsome
      exact absurd hsome (by simp)
    · intro hreleased x hx r hr
      have hx := List.all_eq_true.mp (hspent hreleased) x (hsubs ▸ hx)
      obtain ⟨pool, hi, hr⟩ := Option.bind_eq_some_iff.mp hr
      simpa [System.isSpent, hi, Queue.isSpent, hr] using hx

theorem ledger_giveBack {l : Leaving} (hl : l ∈ p.leaving) {f : Pool α → Pool α}
    (hf : l.giveBack = f) {g : Ledger α}
    (hg : (p.onSystem (·.modifyPool l.submission.pool f)).ledger = g) :
    (p.act (.giveBack l)).ledger = { g with leaving := p.leaving.erase l } := by
  subst hf hg
  rw [act, if_pos hl]
  rfl

/-- A record on its way back from a released task is taken out, if it is there and finished. -/
theorem ticks_giveBack_released {l : Leaving} (hl : l ∈ p.leaving) (hfate : l.fate = .released) :
    Ticks p.ledger (p.act (.giveBack l)).ledger := by
  have he : (l.giveBack : Pool α → Pool α) = (·.unlink l.submission.ticket) := by
    funext p
    simp [Leaving.giveBack, hfate]
  cases hi : p.system.pools[l.submission.pool]? with
  | none =>
    have hr : p.ledger.record l.submission = none := by simp [ledger, System.record?, hi]
    rw [ledger_giveBack (g := p.ledger) hl he (by rw [onSystem, System.modifyPool_of_none hi])]
    exact .single (Tick.misfit hl (by simp [hfate]) fun _ r hr' => by simp [hr] at hr')
  | some pool =>
    have hget : p.ledger.record l.submission = pool.queue.get? l.submission.ticket :=
      ledger_record hi _
    cases hr : pool.queue.get? l.submission.ticket with
    | none =>
      have hsame : pool.unlink l.submission.ticket = pool := by
        simp [Pool.unlink, Queue.remove, hr]
      have hquiet : Pool.Quiet pool (pool.unlink l.submission.ticket) := hsame.symm ▸ .refl pool
      rw [ledger_giveBack hl he (ledger_quiet hi hquiet)]
      exact .single (Tick.misfit hl (by simp [hfate]) fun _ r hr' => by simp [hget, hr] at hr')
    | some r =>
      by_cases hs : r.status = .finished
      · rw [ledger_giveBack hl he (ledger_takeOut hi hr hs)]
        exact .single (Tick.takeOut hl hfate (hget.trans hr) hs)
      · rw [ledger_giveBack hl he (ledger_misfit hi hr hs)]
        refine .single (Tick.misfit hl (by simp [hfate]) fun _ r' hr' => ?_)
        obtain rfl := Option.some.inj (hr'.symm.trans (hget.trans hr))
        exact hs

/-- A record on its way back is taken out or left to its pool. -/
theorem ticks_giveBack (p : Program α) (l : Leaving) :
    Ticks p.ledger (p.act (.giveBack l)).ledger := by
  by_cases hl : l ∈ p.leaving
  case neg =>
    rw [act, if_neg hl]
  cases hfate : l.fate with
  | detached =>
    have he : (l.giveBack : Pool α → Pool α) = (·.detach l.submission.ticket) := by
      funext p
      simp [Leaving.giveBack, hfate]
    have hleft := ledger_modifyQueue p l.submission (·.detach l.submission.ticket)
      (g := (Option.bind · _)) rfl (fun q => q.next_detach _) fun q k => q.get?_detach _ k
    rw [ledger_giveBack hl he hleft]
    exact .single (Tick.leave hl hfate)
  | live =>
    have he : (l.giveBack : Pool α → Pool α) = fun p => p := by
      funext p
      simp [Leaving.giveBack, hfate]
    rw [ledger_giveBack hl he (ledger_modifyPool_self p _)]
    exact .single (Tick.misfit hl (by simp [hfate]) (by simp [hfate]))
  | released => exact ticks_giveBack_released hl hfate

theorem ticks_addPool (p : Program α) (id : String) (plan : Plan) :
    Ticks p.ledger (p.onSystem (·.addPool id plan)).ledger := by
  have hpools (m : Nat) : (p.system.addPool id plan).pools[m]? =
      update (fun n => p.system.pools[n]?) p.system.pools.length (some (Pool.create id plan)) m :=
    getElem?_concat p.system.pools _ m
  have hget (k : Ticket) : (Pool.create id plan : Pool α).queue.get? k = none :=
    Queue.get?_empty _ k
  have hresult (n : Nat) : (Pool.create id plan : Pool α).results[n]? = none := by
    simp [Pool.create]
  have hworkers : (Pool.create id plan : Pool α).workers = [] := rfl
  have hnext : (Pool.create id plan : Pool α).queue.next = 0 := rfl
  have hfaults : (Pool.create id plan : Pool α).faults = [] := rfl
  have hl : (p.onSystem (·.addPool id plan)).ledger =
      { p.ledger with next := update p.ledger.next p.system.pools.length (some 0) } := by
    refine Ledger.ext_pools rfl (fun i k => ?_) (fun i n => ?_) (fun i w => ?_) (fun i => ?_)
      fun i => ?_ <;> by_cases hi : i = p.system.pools.length
    all_goals
      simp [ledger, onSystem, System.record?, System.phase?, hpools, hi, hget, hresult, hworkers,
        hnext, hfaults]
  rw [hl]
  exact .single (Tick.addPool (by simp [ledger]))

theorem ticks_addTask (p : Program α) (id : String) (body : Body α) :
    Ticks p.ledger (p.onSystem (·.addTask id body)).ledger := by
  have htasks (m : Nat) : (p.system.addTask id body).tasks[m]? =
      update (fun n => p.system.tasks[n]?) p.system.tasks.length
        (some ⟨id, body, 0, [], .live⟩) m :=
    getElem?_concat p.system.tasks _ m
  have hl : (p.onSystem (·.addTask id body)).ledger =
      p.ledger.addTask p.system.tasks.length := by
    refine Ledger.ext_tasks rfl (fun b => ?_) fun b => ?_ <;>
      by_cases hb : b = p.system.tasks.length <;>
      simp [ledger, onSystem, Ledger.addTask, htasks, hb]
  rw [hl]
  exact .single (Tick.addTask (by simp [ledger]))

theorem ticks_openGate (p : Program α) (a run : Nat) :
    Ticks p.ledger (p.onSystem (·.openGate a run)).ledger := by
  have hpools := System.openGate_pools p.system a run
  have hl : (p.onSystem (·.openGate a run)).ledger =
      { p.ledger with running := fun at' => (p.ledger.running at').map (openRun a run) } := by
    refine Ledger.ext_pools rfl (fun i k => ?_) (fun i n => ?_) (fun i w => ?_) (fun i => ?_)
      fun i => ?_
    · simp only [ledger, onSystem, System.record?, hpools]
      cases p.system.pools[i]? <;> rfl
    · simp only [ledger, onSystem, hpools]
      cases p.system.pools[i]? <;> rfl
    · simp only [ledger, onSystem, System.phase?, hpools]
      cases p.system.pools[i]? with
      | none => rfl
      | some pool =>
        simp only [Option.map_some, Option.bind_eq_bind, Option.bind_some, List.getElem?_map]
        rcases pool.workers[w]? with _ | _ | _ | ⟨k, job, stage⟩ | _ <;> rfl
    · simp only [ledger, onSystem, hpools]
      cases p.system.pools[i]? <;> rfl
    · simp only [ledger, onSystem, hpools]
      cases p.system.pools[i]? <;> rfl
  rw [hl]
  exact .single (Tick.openGate a run)

theorem ticks_shutdown (p : Program α) (i : Nat) :
    Ticks p.ledger (p.onSystem fun s => (s.shutdown i).2).ledger := by
  cases hi : p.system.pools[i]? with
  | none =>
    simp only [onSystem, System.shutdown, hi]
    exact .refl
  | some pool =>
    have hl := ledger_quiet (f := fun _ => pool.shutdown.2) hi (Pool.quiet_shutdown pool)
    by_cases hactive : pool.isActive = true
    · have he : p.onSystem (fun s => (s.shutdown i).2) =
          p.onSystem (·.modifyPool i fun _ => pool.shutdown.2) := by
        simp [onSystem, System.shutdown, hi, hactive]
      rw [he, hl]
    · have he : p.onSystem (fun s => (s.shutdown i).2) = p := by
        simp [onSystem, System.shutdown, hi, hactive]
      rw [he]

/-- Every permitted action of a program with sound pools is a sequence of ticks. -/
theorem ticks_act (h : p.system.PoolsSound) (a : Action α) (ha : p.Permits a) :
    Ticks p.ledger (p.act a).ledger := by
  cases a with
  | addPool id plan => exact ticks_addPool p id plan
  | addTask id body => exact ticks_addTask p id body
  | submit i a => exact ticks_submit p i a
  | join a limit => exact ticks_call p a limit
  | release a =>
    unfold act
    dsimp only
    split
    · next hspent => exact ticks_retire (by simp) ha fun _ => hspent
    · exact .refl
  | detach a =>
    unfold act
    dsimp only
    split
    · exact ticks_retire (by simp) ha (by simp)
    · exact ticks_retire (p := p.onSystem (·.note _)) (by simp) ha (by simp)
  | giveBack l => exact ticks_giveBack p l
  | shutdown i => exact ticks_shutdown p i
  | dropPool i =>
    show Ticks _ (p.onSystem (·.modifyPool i Pool.drop)).ledger
    cases hi : p.system.pools[i]? with
    | none => rw [onSystem, System.modifyPool_of_none hi]
    | some pool => rw [ledger_quiet hi (Pool.quiet_drop pool)]
  | refuseThreads cause => exact .refl
  | openGate a run => exact ticks_openGate p a run
  | elapse ms =>
    have hl : (p.onSystem (·.elapse ms)).ledger =
        { p.ledger with
          clock := p.ledger.clock + ms
          joiner := fun n => (p.ledger.joiner n).map fun j =>
            if j.isDue (p.ledger.clock + ms) then j.wake else j } :=
      Ledger.ext_joiners rfl fun _ => List.getElem?_map ..
    show Ticks _ (p.onSystem (·.elapse ms)).ledger
    rw [hl]
    exact .single (Tick.elapse ms)
  | move m => exact ticks_move h m

/-! ## 6. Runs -/

theorem Leads.ticks {q : Program α} (hp : p.Reachable) (h : Leads p q) :
    Ticks p.ledger q.ledger := by
  induction h with
  | refl => exact .refl
  | step a hleads ha ih => exact ih.trans (ticks_act (hp.leads hleads).poolsSound a ha)

/-- What is known of the start and kept by every tick is known of all that is reached. -/
theorem Reachable.of_ticks {P : Ledger α → Prop} (hstart : P (start 0).ledger)
    (htick : ∀ g g', P g → Tick g g' → P g') (h : p.Reachable) : P p.ledger := by
  obtain ⟨processors, h⟩ := h
  have hticks : Ticks (start processors).ledger p.ledger := h.ticks ⟨processors, .refl⟩
  -- the number of processors is not in the ledger
  change Ticks (start 0).ledger p.ledger at hticks
  generalize p.ledger = g at hticks
  induction hticks with
  | refl => exact hstart
  | tail _ ht ih => exact htick _ _ ih ht

end Program
end WorkerPool
