/-
# The ledger after a section

A section that only parks, wakes, starts or ends workers, or notes something, is `Quiet`: the
ledger does not see it.  Any other section changes one pool, one task or one join, and here is
what the ledger is then, one lemma for each of the changes that the sections are made of.
-/
import WorkerPool.Proofs.Ledger

namespace WorkerPool

open Function (update)

/-! ## 1. Quiet sections -/

namespace Pool

variable {α : Type} {p p' : Pool α}

/-- A section that leaves every record, result and body where it is. -/
structure Quiet (p p' : Pool α) : Prop where
  queue : p'.queue = p.queue
  results : p'.results = p.results
  faults : p'.faults = p.faults
  running : ∀ w : Nat, p'.workers[w]?.bind Phase.run? = p.workers[w]?.bind Phase.run?

theorem Quiet.refl (p : Pool α) : Quiet p p := ⟨rfl, rfl, rfl, fun _ => rfl⟩

theorem Quiet.trans {p'' : Pool α} (h : Quiet p p') (h' : Quiet p' p'') : Quiet p p'' :=
  ⟨h'.queue.trans h.queue, h'.results.trans h.results, h'.faults.trans h.faults,
    fun w => (h'.running w).trans (h.running w)⟩

theorem Quiet.of_eq (hq : p'.queue = p.queue) (hr : p'.results = p.results)
    (hf : p'.faults = p.faults) (hw : p'.workers = p.workers) : Quiet p p' :=
  ⟨hq, hr, hf, fun w => by rw [hw]⟩

theorem run?_notify (phase : Phase) : phase.notify.run? = phase.run? := by
  cases phase <;> rfl

theorem run?_eq_none {phase : Phase} (h : phase.ticket? = none) : phase.run? = none := by
  cases phase <;> simp_all [Phase.ticket?, Phase.run?]

theorem quiet_notifyWorkers (p : Pool α) : Quiet p p.notifyWorkers := by
  refine ⟨rfl, rfl, rfl, fun w => ?_⟩
  show (p.workers.map Phase.notify)[w]?.bind Phase.run? = _
  rw [List.getElem?_map]
  cases p.workers[w]? with
  | none => rfl
  | some phase => exact run?_notify phase

/-- The bodies after the move of one worker. -/
theorem run?_setPhase {w : Nat} {old : Phase} (hw : p.workers[w]? = some old) (phase : Phase)
    (w' : Nat) :
    (p.setPhase w phase).workers[w']?.bind Phase.run? =
      if w' = w then phase.run? else p.workers[w']?.bind Phase.run? := by
  rw [workers_setPhase hw]
  split <;> rfl

/-- A worker without a record moves to another place without one. -/
theorem quiet_setPhase {w : Nat} {old : Phase} (hw : p.workers[w]? = some old)
    (hold : old.ticket? = none) (phase : Phase) (hnew : phase.ticket? = none) :
    Quiet p (p.setPhase w phase) := by
  refine ⟨rfl, rfl, rfl, fun w' => ?_⟩
  rw [run?_setPhase hw]
  split
  · next h => rw [h, hw, run?_eq_none hnew]; exact (run?_eq_none hold).symm
  · rfl

theorem quiet_park {w : Nat} {old : Phase} (hw : p.workers[w]? = some old)
    (hold : old.ticket? = none) : Quiet p (p.park w) :=
  have h := quiet_setPhase hw hold (.parked false) rfl
  ⟨h.queue, h.results, h.faults, h.running⟩

theorem quiet_leave {w : Nat} {old : Phase} (hw : p.workers[w]? = some old)
    (hold : old.ticket? = none) : Quiet p (p.leave w) :=
  have h := quiet_setPhase hw hold .exited rfl
  ⟨h.queue, h.results, h.faults, h.running⟩

theorem quiet_startWorker (p : Pool α) : Quiet p p.startWorker := by
  refine ⟨rfl, rfl, rfl, fun w => ?_⟩
  rw [workers_startWorker]
  split
  · next h => rw [h, List.getElem?_eq_none (Nat.le_refl _)]; rfl
  · rfl

theorem quiet_grow (p : Pool α) (refusal : Option String) : Quiet p (p.grow refusal).2 := by
  rcases p.grow_cases refusal with ⟨-, he⟩ | ⟨-, -, he⟩ | ⟨_, -, -, ⟨-, he⟩ | ⟨-, he⟩⟩ <;> rw [he]
  · exact .refl p
  · exact quiet_startWorker p
  · exact .of_eq rfl rfl rfl rfl
  · exact .of_eq rfl rfl rfl rfl

theorem quiet_awaitWorkers (p : Pool α) : Quiet p p.awaitWorkers := by
  unfold Pool.awaitWorkers
  split <;> exact .of_eq rfl rfl rfl rfl

theorem quiet_shutdown (p : Pool α) : Quiet p p.shutdown.2 := by
  unfold Pool.shutdown
  split
  · have h := (quiet_notifyWorkers p).trans (quiet_awaitWorkers p.notifyWorkers)
    exact ⟨h.queue, h.results, h.faults, h.running⟩
  · exact .of_eq rfl rfl rfl rfl

theorem quiet_drop (p : Pool α) : Quiet p p.drop := by
  unfold Pool.drop
  split
  · have h := quiet_notifyWorkers p
    exact ⟨h.queue, h.results, h.faults, h.running⟩
  · exact .refl p

/-- A submission is refused and not seen, or does no more than to push a record. -/
theorem quiet_submit (p : Pool α) (refusal : Option String) (job : Job) :
    (∃ e, (p.submit refusal job).1 = .error e ∧ Quiet p (p.submit refusal job).2) ∨
      (p.submit refusal job).1 = .ok p.queue.freshTicket ∧
        Quiet { p with queue := p.queue.pushed job } (p.submit refusal job).2 := by
  have hg := quiet_grow p refusal
  rcases submit_cases p refusal job with ⟨-, he⟩ | ⟨e, -, -, he⟩ | ⟨-, -, he⟩
  · rw [he]
    exact Or.inl ⟨_, rfl, .of_eq rfl rfl rfl rfl⟩
  · rw [he]
    exact Or.inl ⟨_, rfl, hg⟩
  · rw [he]
    have hn := quiet_notifyWorkers
      { (p.grow refusal).2 with queue := (p.grow refusal).2.queue.pushed job }
    refine Or.inr ⟨rfl, ?_, hn.results.trans hg.results, hn.faults.trans hg.faults, fun w => ?_⟩
    · exact hn.queue.trans (by rw [hg.queue])
    · exact (hn.running w).trans (hg.running w)

/-- There is room for a result where there is none. -/
theorem putResult_of_none {k : Ticket} (h : p.results[k.number]? = none) (v : Value α) :
    (∀ n : Nat, (p.putResult k v).results[n]? = if n = k.number then some v else p.results[n]?) ∧
      (p.putResult k v).faults = p.faults := by
  have hroom : p.results.contains k.number = false := by
    rw [Std.ExtTreeMap.contains_eq_isSome_getElem?, h]
    rfl
  refine ⟨fun n => ?_, by simp [putResult, hroom]⟩
  simp only [putResult, hroom, Bool.false_eq_true, if_false, Std.ExtTreeMap.getElem?_insert]
  by_cases hn : n = k.number
  · simp [hn]
  · have : k.number ≠ n := fun he => hn he.symm
    simp [hn, this]

end Pool

/-! ## 2. The ledger after a small change -/

/-- A list with one more entry, by index. -/
theorem getElem?_concat {β : Type} (l : List β) (b : β) (m : Nat) :
    (l ++ [b])[m]? = update (fun n => l[n]?) l.length (some b) m := by
  rcases Nat.lt_trichotomy m l.length with hm | hm | hm
  · rw [List.getElem?_append_left hm, Function.update_of_ne (Nat.ne_of_lt hm)]
  · simp [hm]
  · rw [Function.update_of_ne (Nat.ne_of_gt hm), List.getElem?_eq_none (by simp; omega),
      List.getElem?_eq_none (Nat.le_of_lt hm)]

namespace Ledger

variable {α : Type}

/-- The ledger with pool `i` as it is in `p`. -/
def setPool (g : Ledger α) (i : Nat) (p : Pool α) : Ledger α :=
  { g with
    record := fun x => if x.pool = i then p.queue.get? x.ticket else g.record x
    result := fun at' => if at'.1 = i then p.results[at'.2]? else g.result at'
    running := fun at' =>
      if at'.1 = i then p.workers[at'.2]?.bind Phase.run? else g.running at'
    next := update g.next i (some p.queue.next)
    faults := update g.faults i p.faults }

/-- What the change of a pool has come to, part by part. -/
theorem setPool_eq {g : Ledger α} {i : Nat} {p : Pool α} {record : Submission → Option (Record Job)}
    {result : Nat × Nat → Option (Value α)} {running : Nat × Nat → Option (Ticket × Job × Stage)}
    {next : Nat → Option Nat} {faults : Nat → List Fault}
    (hrecord : (g.setPool i p).record = record) (hresult : (g.setPool i p).result = result)
    (hrunning : (g.setPool i p).running = running) (hnext : (g.setPool i p).next = next)
    (hfaults : (g.setPool i p).faults = faults) :
    g.setPool i p = { g with record, result, running, next, faults } := by
  subst hrecord hresult hrunning hnext hfaults
  rfl

/-- Ledgers that agree on all that is in pools, and on the rest. -/
theorem ext_pools {g g' : Ledger α}
    (hrest : { g' with
      record := g.record
      result := g.result
      running := g.running
      next := g.next
      faults := g.faults } = g)
    (hrecord : ∀ i k, g.record ⟨i, k⟩ = g'.record ⟨i, k⟩)
    (hresult : ∀ i n, g.result (i, n) = g'.result (i, n))
    (hrunning : ∀ i w, g.running (i, w) = g'.running (i, w)) (hnext : ∀ i, g.next i = g'.next i)
    (hfaults : ∀ i, g.faults i = g'.faults i) : g = g' := by
  have hr : g.record = g'.record := funext fun x => hrecord x.pool x.ticket
  have hv : g.result = g'.result := funext fun at' => hresult at'.1 at'.2
  have hw : g.running = g'.running := funext fun at' => hrunning at'.1 at'.2
  rw [← hrest, hr, hv, hw, funext hnext, funext hfaults]

/-- Ledgers that agree on all tasks, and on the rest. -/
theorem ext_tasks {g g' : Ledger α} (hrest : { g' with holding := g.holding, runs := g.runs } = g)
    (hholding : ∀ a, g.holding a = g'.holding a) (hruns : ∀ a, g.runs a = g'.runs a) : g = g' := by
  rw [← hrest, funext hholding, funext hruns]

/-- Ledgers that agree on all joins, and on the rest. -/
theorem ext_joiners {g g' : Ledger α} (hrest : { g' with joiner := g.joiner } = g)
    (hjoiner : ∀ n, g.joiner n = g'.joiner n) : g = g' := by
  rw [← hrest, funext hjoiner]

end Ledger

namespace Program

variable {α : Type} {p : Program α} {i : Nat} {pool : Pool α}

theorem ledger_record (hi : p.system.pools[i]? = some pool) (k : Ticket) :
    p.ledger.record ⟨i, k⟩ = pool.queue.get? k := by
  simp [ledger, System.record?, hi]

theorem ledger_result (hi : p.system.pools[i]? = some pool) (n : Nat) :
    p.ledger.result (i, n) = pool.results[n]? := by
  simp [ledger, hi]

theorem ledger_running (hi : p.system.pools[i]? = some pool) (w : Nat) :
    p.ledger.running (i, w) = pool.workers[w]?.bind Phase.run? := by
  simp [ledger, System.phase?, hi]

theorem ledger_next (hi : p.system.pools[i]? = some pool) :
    p.ledger.next i = some pool.queue.next := by
  simp [ledger, hi]

theorem ledger_faults (hi : p.system.pools[i]? = some pool) : p.ledger.faults i = pool.faults := by
  simp [ledger, hi]

theorem ledger_modifyPool (hi : p.system.pools[i]? = some pool) (f : Pool α → Pool α) :
    (p.onSystem (·.modifyPool i f)).ledger = p.ledger.setPool i (f pool) := by
  have hpools := System.pools_modifyPool p.system i
  refine Ledger.ext_pools rfl (fun j k => ?_) (fun j n => ?_) (fun j w => ?_) (fun j => ?_)
    fun j => ?_ <;> by_cases hj : j = i <;>
    simp [ledger, onSystem, Ledger.setPool, System.record?, System.phase?, hpools, hj, hi]

variable {pool' : Pool α}

theorem record_setPool (hi : p.system.pools[i]? = some pool)
    (hget : ∀ k, pool'.queue.get? k = pool.queue.get? k) :
    (p.ledger.setPool i pool').record = p.ledger.record := by
  funext ⟨j, k⟩
  by_cases hj : j = i
  · simp [Ledger.setPool, hj, hget, ledger_record hi]
  · simp [Ledger.setPool, hj]

theorem record_setPool_update (hi : p.system.pools[i]? = some pool) {k : Ticket}
    {r : Option (Record Job)}
    (hget : ∀ k', pool'.queue.get? k' = if k' = k then r else pool.queue.get? k') :
    (p.ledger.setPool i pool').record = update p.ledger.record ⟨i, k⟩ r := by
  funext ⟨j, k'⟩
  by_cases hj : j = i
  · by_cases hk : k' = k
    · simp [Ledger.setPool, hj, hk, hget]
    · simp [Ledger.setPool, hj, hk, hget, ledger_record hi]
  · simp [Ledger.setPool, hj]

theorem result_setPool (hi : p.system.pools[i]? = some pool)
    (hres : pool'.results = pool.results) :
    (p.ledger.setPool i pool').result = p.ledger.result := by
  funext ⟨j, n⟩
  by_cases hj : j = i
  · simp [Ledger.setPool, hj, hres, ledger_result hi]
  · simp [Ledger.setPool, hj]

theorem running_setPool (hi : p.system.pools[i]? = some pool)
    (hrun : ∀ w : Nat, pool'.workers[w]?.bind Phase.run? = pool.workers[w]?.bind Phase.run?) :
    (p.ledger.setPool i pool').running = p.ledger.running := by
  funext ⟨j, w⟩
  by_cases hj : j = i
  · simp [Ledger.setPool, hj, hrun, ledger_running hi]
  · simp [Ledger.setPool, hj]

theorem running_setPool_update (hi : p.system.pools[i]? = some pool) {w : Nat}
    {b : Option (Ticket × Job × Stage)}
    (hrun : ∀ w' : Nat, pool'.workers[w']?.bind Phase.run? =
      if w' = w then b else pool.workers[w']?.bind Phase.run?) :
    (p.ledger.setPool i pool').running = update p.ledger.running (i, w) b := by
  funext ⟨j, w'⟩
  by_cases hj : j = i
  · by_cases hw : w' = w
    · simp [Ledger.setPool, hj, hw, hrun]
    · simp [Ledger.setPool, hj, hw, hrun, ledger_running hi]
  · simp [Ledger.setPool, hj]

theorem next_setPool (hi : p.system.pools[i]? = some pool)
    (hnext : pool'.queue.next = pool.queue.next) :
    (p.ledger.setPool i pool').next = p.ledger.next := by
  show update p.ledger.next i (some pool'.queue.next) = _
  rw [hnext, ← ledger_next hi, Function.update_eq_self]

theorem faults_setPool (hi : p.system.pools[i]? = some pool)
    (hfaults : pool'.faults = pool.faults) :
    (p.ledger.setPool i pool').faults = p.ledger.faults := by
  show update p.ledger.faults i pool'.faults = _
  rw [hfaults, ← ledger_faults hi, Function.update_eq_self]

/-- A quiet section is not seen. -/
theorem ledger_quiet (hi : p.system.pools[i]? = some pool) {f : Pool α → Pool α}
    (h : Pool.Quiet pool (f pool)) : (p.onSystem (·.modifyPool i f)).ledger = p.ledger := by
  rw [ledger_modifyPool hi]
  exact Ledger.setPool_eq (record_setPool hi fun k => by rw [h.queue]) (result_setPool hi h.results)
    (running_setPool hi h.running) (next_setPool hi (by rw [h.queue])) (faults_setPool hi h.faults)

theorem ledger_setPhase (hi : p.system.pools[i]? = some pool) {w : Nat} {old : Phase}
    (hw : pool.workers[w]? = some old) (phase : Phase) :
    (p.onSystem (·.modifyPool i (·.setPhase w phase))).ledger =
      { p.ledger with running := update p.ledger.running (i, w) phase.run? } := by
  rw [ledger_modifyPool hi]
  exact Ledger.setPool_eq (record_setPool hi fun _ => rfl) (result_setPool hi rfl)
    (running_setPool_update hi (Pool.run?_setPhase hw phase)) (next_setPool hi rfl)
    (faults_setPool hi rfl)

theorem ledger_modifyTask {a : Nat} {t : Task α} (ha : p.system.tasks[a]? = some t)
    (f : Task α → Task α) :
    (p.onSystem (·.modifyTask a f)).ledger =
      { p.ledger with
        holding := update p.ledger.holding a (some ⟨(f t).fate, (f t).submissions⟩)
        runs := update p.ledger.runs a (some (f t).runs) } := by
  have htasks := System.tasks_modifyTask p.system a
  refine Ledger.ext_tasks rfl (fun b => ?_) fun b => ?_
  · by_cases hb : b = a <;> simp [ledger, onSystem, htasks, hb, ha]
  · by_cases hb : b = a <;> simp [ledger, onSystem, htasks, hb, ha]

theorem ledger_holding {a : Nat} {t : Task α} (ha : p.system.tasks[a]? = some t) :
    p.ledger.holding a = some ⟨t.fate, t.submissions⟩ := by
  simp [ledger, ha]

theorem ledger_runs {a : Nat} {t : Task α} (ha : p.system.tasks[a]? = some t) :
    p.ledger.runs a = some t.runs := by
  simp [ledger, ha]

theorem ledger_modifyPool_self (p : Program α) (i : Nat) :
    (p.onSystem (·.modifyPool i fun pool => pool)).ledger = p.ledger := by
  cases hi : p.system.pools[i]? with
  | none => rw [onSystem, System.modifyPool_of_none hi]
  | some pool => exact ledger_quiet hi (.refl pool)

/-- A change of one record; where there is none, nothing happens. -/
theorem ledger_modifyQueue (p : Program α) (x : Submission) (u : Queue Arena Job → Queue Arena Job)
    {g : Option (Record Job) → Option (Record Job)} (hnone : g none = none)
    (hnext : ∀ q, (u q).next = q.next)
    (hget : ∀ q k, (u q).get? k = if k = x.ticket then g (q.get? x.ticket) else q.get? k) :
    (p.onSystem (·.modifyPool x.pool fun pool => { pool with queue := u pool.queue })).ledger =
      { p.ledger with record := update p.ledger.record x (g (p.ledger.record x)) } := by
  cases hi : p.system.pools[x.pool]? with
  | none =>
    have hr : p.ledger.record x = none := by simp [ledger, System.record?, hi]
    rw [onSystem, System.modifyPool_of_none hi, Function.update_eq_self_iff.mpr (by rw [hr, hnone])]
  | some pool =>
    have hr : p.ledger.record x = pool.queue.get? x.ticket := ledger_record hi x.ticket
    rw [ledger_modifyPool hi, hr]
    exact Ledger.setPool_eq (record_setPool_update hi (hget pool.queue)) (result_setPool hi rfl)
      (running_setPool hi fun _ => rfl) (next_setPool hi (hnext pool.queue)) (faults_setPool hi rfl)

theorem ledger_mark (p : Program α) (x : Submission) :
    (p.onSystem (·.modifyPool x.pool (·.join x.ticket))).ledger =
      { p.ledger with
        record := update p.ledger.record x
          ((p.ledger.record x).map fun r => { r with joined := true }) } :=
  ledger_modifyQueue p x (·.join x.ticket) (g := Option.map _) rfl
    (fun q => q.next_join x.ticket) fun q k => by
      rw [Queue.get?_join]
      split
      · next hk => rw [hk]
      · rfl

/-- The record that a release takes out has finished. -/
theorem ledger_takeOut {k : Ticket} {r : Record Job} (hi : p.system.pools[i]? = some pool)
    (hr : pool.queue.get? k = some r) (hs : r.status = .finished) :
    (p.onSystem (·.modifyPool i (·.unlink k))).ledger =
      { p.ledger with record := update p.ledger.record ⟨i, k⟩ none } := by
  have hunlink : pool.unlink k = { pool with queue := pool.queue.unlink k } := by
    simp [Pool.unlink, Queue.remove, hr, hs]
  rw [ledger_modifyPool hi, hunlink]
  exact Ledger.setPool_eq (record_setPool_update hi (Queue.get?_unlink pool.queue k))
    (result_setPool hi rfl) (running_setPool hi fun _ => rfl)
    (next_setPool hi (Queue.next_unlink _ _)) (faults_setPool hi rfl)

/-- Otherwise it would be told. -/
theorem ledger_misfit {k : Ticket} {r : Record Job} (hi : p.system.pools[i]? = some pool)
    (hr : pool.queue.get? k = some r) (hs : r.status ≠ .finished) :
    (p.onSystem (·.modifyPool i (·.unlink k))).ledger =
      { p.ledger with
        faults := update p.ledger.faults i (.queue .removedUnfinished :: pool.faults) } := by
  have hfault : pool.unlink k = pool.fault (.queue .removedUnfinished) := by
    simp [Pool.unlink, Queue.remove, hr, hs]
  rw [ledger_modifyPool hi, hfault]
  exact Ledger.setPool_eq (record_setPool hi fun _ => rfl) (result_setPool hi rfl)
    (running_setPool hi fun _ => rfl) (next_setPool hi rfl) rfl

theorem ledger_outcome (p : Program α) (x : Submission) :
    p.ledger.outcome x = p.system.outcome x := by
  unfold Ledger.outcome System.outcome
  cases hi : p.system.pools[x.pool]? with
  | none => simp [ledger, Submission.place, hi]
  | some pool =>
    cases hr : pool.results[x.ticket.number]? <;>
      simp [Submission.place, ledger_result hi, Pool.outcome, hr]

theorem ledger_setJoin {n : Nat} {j : Joiner α} (hj : p.system.joiners[n]? = some j)
    (state : JoinState α) :
    (p.onSystem (·.setJoin n state)).ledger =
      { p.ledger with joiner := update p.ledger.joiner n (some { j with state }) } := by
  have hjoiners := System.joiners_setJoin p.system n
  refine Ledger.ext_joiners rfl fun m => ?_
  by_cases hm : m = n <;> simp [ledger, onSystem, hjoiners, hm, hj]

end Program
end WorkerPool
