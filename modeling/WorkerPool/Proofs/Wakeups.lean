/-
# No wake-up is lost

Three kinds of thread sleep: workers without work, joins of a record that has not finished, and
shutdowns that wait for workers.  Whenever there is something for a sleeper to do, somebody
has told it: `Pool.Alert` says so of workers and shutdowns, and `Ledger.Stands` of joins.  Together
with the count of the workers this is the argument that a pool cannot get stuck: when no thread can
move, a record still waits only behind workers that are all held up inside bodies.
-/
import WorkerPool.Proofs.Joins

namespace WorkerPool

variable {α : Type}

/-! ## 1. One pool -/

namespace Pool

variable {p : Pool α}

/-- A waiting record is found in the list of those that wait. -/
theorem Sound.waiting_ne_nil (h : p.Sound) {k : Ticket} {r : Record Job}
    (hr : p.queue.get? k = some r) (hs : r.status = .queued) : p.queue.waiting ≠ [] := by
  have hk : k ∈ p.queue.waiting :=
    (h.queue.waiting_iff k).mpr (Queue.status?_eq_some.mpr ⟨r, hr, hs⟩)
  exact List.ne_nil_of_mem hk

/-- A pool with threads has a worker that has not left. -/
theorem Sound.exists_worker (h : p.Sound) (hpos : 0 < p.threads) :
    ∃ phase ∈ p.workers, phase ≠ .exited := by
  rw [h.counted.threads_eq] at hpos
  obtain ⟨phase, hmem, hin⟩ := List.countP_pos_iff.mp hpos
  refine ⟨phase, hmem, ?_⟩
  rintro rfl
  exact absurd hin (by simp [Phase.isIn])

/-- No worker sleeps untold while a record waits or once the pool has ended. -/
theorem Sound.not_asleep (h : p.Sound) (htold : p.queue.waiting ≠ [] ∨ p.isActive = false)
    {phase : Phase} (hmem : phase ∈ p.workers) : phase ≠ .parked false := by
  obtain ⟨w, hw⟩ := List.getElem?_of_mem hmem
  rintro rfl
  exact h.alert.told htold w hw

end Pool

/-- A worker that cannot move and is not asleep has left, or is held up inside a body. -/
theorem Phase.eq_atGate {phase : Phase} (hready : (phase.isUnderWay || phase.isLooking) = false)
    (hasleep : phase ≠ .parked false) (hin : phase ≠ .exited) :
    ∃ k job run, phase = .executing k job (.atGate run) := by
  cases phase with
  | starting => exact absurd hready (by simp [isUnderWay, isLooking])
  | parked notified =>
    cases notified with
    | true => exact absurd hready (by simp [isUnderWay, isLooking])
    | false => exact absurd rfl hasleep
  | executing k job stage =>
    cases stage with
    | atGate run => exact ⟨k, job, run, rfl⟩
    | _ => exact absurd hready (by simp [isUnderWay, isLooking])
  | exited => exact absurd rfl hin

/-! ## 2. All threads -/

namespace Program

variable {p : Program α}

/-- A join that sleeps untold has a record that has not finished. -/
theorem Reachable.record_of_asleep (h : p.Reachable) {j : Joiner α} (hj : j ∈ p.system.joiners)
    (hs : j.state = .waiting false) :
    ∃ r, p.system.record? j.submission = some r ∧ r.status ≠ .finished := by
  obtain ⟨n, hn⟩ := List.getElem?_of_mem hj
  have hstands := h.joined n j hn
  obtain ⟨r, hr, -⟩ := hstands.record h.owned (by simp [Joiner.answer?, hs])
  exact ⟨r, hr, fun hfinished => hstands.alert hs ((Ledger.statusOf_of_record hr).trans hfinished)⟩

/-- **No wake-up is lost and no work is stranded.**  A waiting record has a worker that is in and
awake or told; no join sleeps on a finished record; in a pool that has ended no worker sleeps,
and no shutdown sleeps that waits for nobody.  So when no thread can move, the workers of a pool
with a waiting record, of which there is one, are all held up inside bodies. -/
theorem no_wakeup_is_lost (h : p.Reachable) :
    (∀ pool ∈ p.system.pools, ∀ k r, pool.queue.get? k = some r → r.status = .queued →
      ∃ phase ∈ pool.workers, phase ≠ .exited ∧ phase ≠ .parked false) ∧
    (∀ j ∈ p.system.joiners, j.state = .waiting false →
      ∃ r, p.system.record? j.submission = some r ∧ r.status ≠ .finished) ∧
    (∀ pool ∈ p.system.pools, pool.isActive = false → .parked false ∉ pool.workers) ∧
    (∀ pool ∈ p.system.pools, pool.standing = .stopping false → 0 < pool.threads) ∧
    ((∀ m, p.system.ready m = false) →
      ∀ pool ∈ p.system.pools, ∀ k r, pool.queue.get? k = some r → r.status = .queued →
        (∃ phase ∈ pool.workers, phase ≠ .exited) ∧
          ∀ phase ∈ pool.workers, phase ≠ .exited →
            ∃ k' job run, phase = .executing k' job (.atGate run)) := by
  have hsound {pool : Pool α} (hpool : pool ∈ p.system.pools) : pool.Sound := by
    obtain ⟨i, hi⟩ := List.getElem?_of_mem hpool
    exact h.poolsSound i pool hi
  refine ⟨?_, fun j hj hs => h.record_of_asleep hj hs, ?_, ?_, ?_⟩
  · intro pool hpool k r hr hs
    have hs' := hsound hpool
    have hwait := hs'.waiting_ne_nil hr hs
    obtain ⟨phase, hmem, hin⟩ := hs'.exists_worker (hs'.alert.manned hwait)
    exact ⟨phase, hmem, hin, hs'.not_asleep (Or.inl hwait) hmem⟩
  · intro pool hpool hina hmem
    exact (hsound hpool).not_asleep (Or.inr hina) hmem rfl
  · intro pool hpool
    exact (hsound hpool).alert.awaited
  · intro hready pool hpool k r hr hs
    have hs' := hsound hpool
    have hwait := hs'.waiting_ne_nil hr hs
    refine ⟨hs'.exists_worker (hs'.alert.manned hwait), ?_⟩
    intro phase hmem hin
    refine Phase.eq_atGate ?_ (hs'.not_asleep (Or.inl hwait) hmem) hin
    -- the worker is a thread that cannot move
    obtain ⟨i, hi⟩ := List.getElem?_of_mem hpool
    obtain ⟨w, hw⟩ := List.getElem?_of_mem hmem
    have hnot := hready (.worker i w)
    rwa [System.ready, System.phase?_eq_some.mpr ⟨pool, hi, hw⟩, Option.any_some] at hnot

/-- A record that waits, its worker on the way, and a join that sleeps. -/
theorem counting_loses_no_wakeup :
    let p := counting.run [.submit 0 0, .join 0 none, .move (.joiner 0)]
    p.system.joiners.map (·.answer?) = [none] ∧
      ∀ pool ∈ p.system.pools, ∀ k r, pool.queue.get? k = some r → r.status = .queued →
        ∃ phase ∈ pool.workers, phase ≠ .exited ∧ phase ≠ .parked false :=
  ⟨by decide, (no_wakeup_is_lost (counting_reachable (by decide))).1⟩

end Program
end WorkerPool
