/-
# The newest record that waits is run first

A queue keeps the tickets of its waiting records in a list of their own, beside the records.
`Queue.InOrder` says that the two never come apart: the list has exactly the records that
wait, each once, in the order of their numbers from the newest down, and those are the ones that
have their jobs.  So a claim has one record to answer with, the newest that waits, and answers
nothing exactly when none does.

In a program the record is chosen by the worker that looks for work, under the lock of its pool; the
body begins later.  So each body that has begun goes back to a claim, and at that moment no newer
record of its pool was waiting.
-/
import WorkerPool.Proofs.ExactlyOnce
import WorkerPool.Proofs.QueueHistory

namespace WorkerPool

/-! ## 1. The records of a queue that wait -/

namespace Queue

variable {S : Type → Type} [Slab S] {J : Type} {q : Queue S J}

/-- The waiting tickets are in step with the records. -/
structure InOrder (q : Queue S J) : Prop where
  mem_waiting : ∀ k, k ∈ q.waiting ↔ q.status? k = some .queued
  nodup : q.waiting.Nodup
  decreasing : q.waiting.Pairwise fun k k' => k'.number < k.number
  /-- The records that wait have their jobs, and no others. -/
  job_iff : ∀ k r, q.get? k = some r → (r.job.isSome ↔ k ∈ q.waiting)
  /-- A claim breaks no precondition. -/
  claim_ok : ∃ answer, q.claim.1 = .ok answer
  claim_none : q.claim.1 = .ok none ↔ ∀ k, q.status? k ≠ some .queued
  claim_some : ∀ k job, q.claim.1 = .ok (some (k, job)) →
    q.IsNewest k ∧ (q.get? k).bind (·.job) = some job

theorem Sound.inOrder (h : q.Sound) : q.InOrder where
  mem_waiting := h.waiting_iff
  nodup := h.newest_first.imp fun hlt he => absurd (he ▸ hlt) (Nat.lt_irrefl _)
  decreasing := h.newest_first
  job_iff := by
    intro k r hr
    rw [h.job_iff k r hr, h.waiting_iff, status?_eq_some]
    exact ⟨fun hs => ⟨r, hr, hs⟩, fun ⟨r', hr', hs⟩ => Option.some.inj (hr.symm.trans hr') ▸ hs⟩
  claim_ok := by
    rcases h.claim with ⟨-, hc⟩ | ⟨_, _, _, _, -, -, -, -, hc⟩ <;>
      exact ⟨_, congrArg Prod.fst hc⟩
  claim_none := by
    rw [← h.waiting_eq_nil_iff]
    rcases h.claim with ⟨hwait, hc⟩ | ⟨k, rest, _, _, hwait, -, -, -, hc⟩ <;> simp [hwait, hc]
  claim_some := by
    intro k job hclaim
    rcases h.claim with ⟨-, hc⟩ | ⟨k', rest, r, job', hwait, hr, -, hj, hc⟩
    · simp [hc] at hclaim
    · obtain ⟨rfl, rfl⟩ : k' = k ∧ job' = job := by simpa [hc] using hclaim
      exact ⟨h.isNewest hwait, by rw [hr]; exact hj⟩

end Queue

/-! ## 2. Claims in a system -/

namespace System

variable {α : Type} {s : System α} {i w : Nat} {pool : Pool α} {phase : Phase}

/-- The record of a submission waits, and no newer record of its pool does. -/
def IsNewest (s : System α) (x : Submission) : Prop :=
  ∃ pool, s.pools[x.pool]? = some pool ∧ pool.queue.IsNewest x.ticket

/-- Only a worker that looks for work claims. -/
theorem claimed_mem_happenings (hphase : s.phase? i w = some phase) {x : Submission} {v : Nat} :
    .claimed x v ∈ s.happenings (.worker i w) ↔
      phase.looksNext = true ∧ .claimed x v ∈ (s.perform (.worker i w)).claimBy i w := by
  rcases phase with _ | notified | ⟨k, job, stage⟩ | _
  · simp [happenings, hphase, Phase.looksNext, Phase.isLooking]
  · cases notified <;> simp [happenings, hphase, Phase.looksNext, Phase.isLooking]
  · cases stage with
    | entering =>
      cases ht : s.tasks[job.task]? <;>
        simp [happenings, hphase, ht, Phase.looksNext, Phase.isLooking]
    | atGate run => simp [happenings, hphase, Phase.looksNext, Phase.isLooking]
    | past run =>
      cases hi : s.pools[i]? <;> cases ht : s.tasks[job.task]? <;>
        simp [happenings, hphase, hi, ht, Phase.looksNext, Phase.isLooking]
    | «over» => simp [happenings, hphase, Phase.looksNext]
  · simp [happenings, hphase, Phase.looksNext, Phase.isLooking]

/-- A worker that looks for work claims the newest record that waits. -/
theorem claimBy_look (hi : s.pools[i]? = some pool) (hp : pool.Sound)
    (hw : pool.workers[w]? = some phase) (hlooks : phase.looksNext = true) {x : Submission}
    {v : Nat} :
    .claimed x v ∈ (s.perform (.worker i w)).claimBy i w ↔
      v = w ∧ x.pool = i ∧ pool.queue.IsNewest x.ticket := by
  obtain ⟨q, hlook, hperform⟩ := s.perform_look hi hp hw hlooks
  have hafter : (s.perform (.worker i w)).phase? i w = (q.advance w).workers[w]? := by
    simp [phase?, hperform]
  have hnewest (k : Ticket) : q.queue.IsNewest k ↔ pool.queue.IsNewest k := by
    simp only [Queue.IsNewest, hlook.queued_iff]
  rw [← hnewest]
  rcases Pool.workers_advance hlook.sound.queue hlook.starting with
    ⟨k, rest, job, hwait, hk⟩ | ⟨hwait, phase', hidle, hticket⟩
  · have hnew := hlook.sound.queue.isNewest hwait
    rw [claimBy_of_entering (hafter.trans hk), List.mem_singleton]
    constructor
    · intro hx
      obtain ⟨rfl, rfl⟩ : x = ⟨i, k⟩ ∧ v = w := by simpa using hx
      exact ⟨rfl, rfl, hnew⟩
    · rintro ⟨rfl, rfl, hx⟩
      rw [← hlook.sound.queue.isNewest_unique hx hnew]
  · have hnone := hlook.sound.queue.waiting_eq_nil_iff.mp hwait
    rw [claimBy_of_idle (hafter.trans hidle) hticket]
    simp only [List.not_mem_nil, false_iff, not_and]
    exact fun _ _ hx => hnone _ hx.1

/-- Whatever is claimed is the newest that waits. -/
theorem PoolsSound.isNewest (h : s.PoolsSound) {m : Move} {x : Submission} {v : Nat}
    (hx : .claimed x v ∈ s.happenings m) : s.IsNewest x := by
  cases m with
  | worker i w =>
    cases hphase : s.phase? i w with
    | none => simp [happenings, hphase] at hx
    | some phase =>
      obtain ⟨pool, hi, hw⟩ := phase?_eq_some.mp hphase
      obtain ⟨hlooks, hx⟩ := (claimed_mem_happenings hphase).mp hx
      obtain ⟨-, rfl, hnewest⟩ := (claimBy_look hi (h i pool hi) hw hlooks).mp hx
      exact ⟨pool, hi, hnewest⟩
  | joiner n => exact absurd hx List.not_mem_nil
  | shutdown i => exact absurd hx List.not_mem_nil

end System

/-! ## 3. The bodies of a program -/

namespace Program

variable {α : Type} {p : Program α}

/-- What is in the history happened at some move of the run. -/
theorem Reachable.moment (h : p.Reachable) {e : Happening α} (he : e ∈ p.history) :
    ∃ (q : Program α) (m : Move),
      q.Reachable ∧ Leads (q.act (.move m)) p ∧ e ∈ q.system.happenings m := by
  revert he
  refine h.induct (P := fun p => e ∈ p.history → ∃ (q : Program α) (m : Move),
    q.Reachable ∧ Leads (q.act (.move m)) p ∧ e ∈ q.system.happenings m) ?_ ?_
  · exact fun _ he => absurd he List.not_mem_nil
  · intro p a h ih ha he
    rcases p.history_act a with hsame | ⟨m, rfl, hmore⟩
    · obtain ⟨q, m, hq, hleads, hm⟩ := ih (hsame ▸ he)
      exact ⟨q, m, hq, hleads.step a ha, hm⟩
    · rw [hmore] at he
      rcases List.mem_append.mp he with he | he
      · exact ⟨p, m, h, .refl, he⟩
      · obtain ⟨q, m', hq, hleads, hm⟩ := ih he
        exact ⟨q, m', hq, hleads.step (.move m) ha, hm⟩

/-- A body begins after a claim. -/
theorem Reachable.claimed_of_begun (h : p.Reachable) {x : Submission} {a run : Nat}
    (hx : .begun x a run ∈ p.history) : ∃ w, .claimed x w ∈ p.history := by
  obtain ⟨life, hlife⟩ := h.chronicled.lives a x (h.chronicled.mem_of_begun hx)
  have hbegun : .begun x a run ∈ life.story x a :=
    hlife.story ▸ Ledger.mem_story.mpr ⟨hx, rfl⟩
  obtain ⟨w, hw⟩ : ∃ w, .claimed x w ∈ life.story x a := by
    cases life <;> simp [Life.story] at hbegun ⊢
  exact ⟨w, (Ledger.mem_story.mp (hlife.story ▸ hw)).1⟩

/-- **The newest submission that waits is run first.**  After any steps the waiting tickets of a
queue are in step with its records, and so they are in every pool that is reached.  A worker that
looks for work claims something exactly if a record of its pool waits, and what is claimed is the
newest; so each body that has begun was claimed at a moment of the run when it was. -/
theorem newest_runs_first {S : Type → Type} [Slab S] {L : Type} (limit : Nat)
    (steps : List (QueueStep L)) (h : p.Reachable) :
    ((QueueTrial.start limit : QueueTrial S L).after steps).queue.InOrder ∧
    (∀ pool ∈ p.system.pools, pool.queue.InOrder) ∧
    (∀ i w pool phase, p.system.pools[i]? = some pool → pool.workers[w]? = some phase →
      phase.looksNext = true →
      ((∃ x, .claimed x w ∈ p.system.happenings (.worker i w)) ↔
        ∃ k, pool.queue.status? k = some .queued)) ∧
    (∀ m x w, .claimed x w ∈ p.system.happenings m → p.system.IsNewest x) ∧
    ∀ x a run, .begun x a run ∈ p.history →
      ∃ (q : Program α) (m : Move) (w : Nat), q.Reachable ∧ Leads (q.act (.move m)) p ∧
        .claimed x w ∈ q.system.happenings m ∧ q.system.IsNewest x := by
  refine ⟨((QueueTrial.Tells.start limit).after steps).sound.inOrder, ?_, ?_,
    fun m x w hx => h.poolsSound.isNewest hx, ?_⟩
  · intro pool hpool
    obtain ⟨i, hi⟩ := List.getElem?_of_mem hpool
    exact (h.poolsSound i pool hi).queue.inOrder
  · intro i w pool phase hi hw hlooks
    have hp := h.poolsSound i pool hi
    have hphase : p.system.phase? i w = some phase := System.phase?_eq_some.mpr ⟨pool, hi, hw⟩
    simp only [System.claimed_mem_happenings hphase, hlooks, true_and,
      System.claimBy_look hi hp hw hlooks]
    constructor
    · rintro ⟨x, -, hx⟩
      exact ⟨x.ticket, hx.1⟩
    · rintro ⟨k, hk⟩
      cases hwait : pool.queue.waiting with
      | nil => exact absurd hk (hp.queue.waiting_eq_nil_iff.mp hwait k)
      | cons k' rest => exact ⟨⟨i, k'⟩, rfl, hp.queue.isNewest hwait⟩
  · intro x a run hx
    obtain ⟨w, hclaimed⟩ := h.claimed_of_begun hx
    obtain ⟨q, m, hq, hleads, hm⟩ := h.moment hclaimed
    exact ⟨q, m, w, hq, hleads, hm, hq.poolsSound.isNewest hm⟩

/-- Of two submissions the second is the first to run. -/
theorem counting_runs_newest_first :
    let p := counting.run [.submit 0 0, .submit 0 0, .move (.worker 0 0), .move (.worker 0 0)]
    .begun ⟨0, ⟨1, 1⟩⟩ 0 1 ∈ p.history ∧
      ∃ (q : Program Nat) (m : Move) (w : Nat), q.Reachable ∧ Leads (q.act (.move m)) p ∧
        .claimed ⟨0, ⟨1, 1⟩⟩ w ∈ q.system.happenings m ∧ q.system.IsNewest ⟨0, ⟨1, 1⟩⟩ := by
  intro p
  have hbegun : .begun ⟨0, ⟨1, 1⟩⟩ 0 1 ∈ p.history := by decide
  have hp : p.Reachable := counting_reachable (by decide)
  obtain ⟨-, -, -, -, hbegins⟩ := newest_runs_first (S := Arena) 1 [.push "job", .claim] hp
  exact ⟨hbegun, hbegins _ _ _ hbegun⟩

end Program
end WorkerPool
