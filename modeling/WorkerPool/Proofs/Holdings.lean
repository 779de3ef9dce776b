/-
# Every record of a pool is accounted for

The records of a pool fall into three groups: those of submissions that a task in use holds, those
on their way back from a task that is being released or detached, and those that detached tasks have
left behind and that have not finished.  No record is in two of them, none of the first two groups
is detached, all of the third are, and together they are all records.  So what a pool counts as
queued is a count of submissions, and nobody who asks for the record of a submission that it owns
finds it gone.
-/
import WorkerPool.Proofs.ExactlyOnce
import WorkerPool.Proofs.Joins

namespace WorkerPool

/-! ## 1. Who has a record -/

namespace Happening

def isFinished {α : Type} : Happening α → Bool
  | finished .. => true
  | _ => false

end Happening

namespace Program

variable {α : Type} {p : Program α}

/-- The submissions to a pool of all tasks with this fate. -/
def submissionsOf (p : Program α) (fate : Fate) (i : Nat) : List Submission :=
  p.system.tasks.flatMap fun t =>
    if t.fate = fate then t.submissions.filter fun x => x.pool = i else []

/-- The submissions to a pool that tasks in use hold. -/
def held (p : Program α) (i : Nat) : List Submission := p.submissionsOf .live i

/-- The submissions to a pool that are on their way back. -/
def returning (p : Program α) (i : Nat) : List Submission :=
  (p.leaving.map (·.submission)).filter fun x => x.pool = i

/-- Whether a worker has finished the record of a submission. -/
def hasFinished (p : Program α) (x : Submission) : Bool := (p.story x).any (·.isFinished)

/-- The submissions that detached tasks have left to a pool and that have not finished. -/
def leftBehind (p : Program α) (i : Nat) : List Submission :=
  (p.submissionsOf .detached i).filter fun x =>
    x ∉ p.leaving.map (·.submission) ∧ p.hasFinished x = false

theorem mem_submissionsOf {fate : Fate} {i : Nat} {x : Submission} :
    x ∈ p.submissionsOf fate i ↔
      x.pool = i ∧ ∃ a, p.ledger.fate? a = some fate ∧ x ∈ p.ledger.submissions a := by
  simp only [submissionsOf, List.mem_flatMap]
  constructor
  · rintro ⟨t, hmem, hx⟩
    obtain ⟨a, ht⟩ := List.getElem?_of_mem hmem
    split at hx
    · next hfate =>
      obtain ⟨hx, hi⟩ := List.mem_filter.mp hx
      refine ⟨of_decide_eq_true hi, a, ?_, ?_⟩
      · rw [fate?_ledger ht, hfate]
      · rwa [submissions_ledger ht]
    · exact absurd hx List.not_mem_nil
  · rintro ⟨hi, a, hfate, hx⟩
    cases ht : p.system.tasks[a]? with
    | none => simp [Ledger.fate?, ledger, ht] at hfate
    | some t =>
      rw [fate?_ledger ht] at hfate
      rw [submissions_ledger ht] at hx
      refine ⟨t, List.mem_of_getElem? ht, ?_⟩
      rw [if_pos (Option.some.inj hfate)]
      exact List.mem_filter.mpr ⟨hx, decide_eq_true hi⟩

theorem mem_returning {i : Nat} {x : Submission} :
    x ∈ p.returning i ↔ x.pool = i ∧ ∃ l ∈ p.leaving, l.submission = x := by
  simp [returning, and_comm]

theorem mem_leftBehind {i : Nat} {x : Submission} :
    x ∈ p.leftBehind i ↔ x ∈ p.submissionsOf .detached i ∧
      (∀ l ∈ p.leaving, l.submission ≠ x) ∧ p.hasFinished x = false := by
  simp [leftBehind]

/-- A submission is on the list of one task, once. -/
theorem Reachable.submissionsOf_nodup (h : p.Reachable) (fate : Fate) (i : Nat) :
    (p.submissionsOf fate i).Nodup := by
  refine List.nodup_flatMap.mpr ⟨fun t hmem => ?_, ?_⟩
  · obtain ⟨a, ht⟩ := List.getElem?_of_mem hmem
    split
    · exact (submissions_ledger ht ▸ h.owned.submissions_nodup a).filter _
    · exact List.nodup_nil
  · refine List.pairwise_iff_getElem.mpr fun a b ha hb hab x hxa hxb => ?_
    have hmem {c : Nat} (hc : c < p.system.tasks.length)
        (hx : x ∈ if p.system.tasks[c].fate = fate then
          p.system.tasks[c].submissions.filter (fun x => x.pool = i) else []) :
        x ∈ p.ledger.submissions c := by
      split at hx
      · rw [submissions_ledger (List.getElem?_eq_getElem hc)]
        exact (List.mem_filter.mp hx).1
      · exact absurd hx List.not_mem_nil
    exact absurd (h.owned.owner_unique (hmem ha hxa) (hmem hb hxb)) (Nat.ne_of_lt hab)

/-- An accepted submission has finished if its record says so or is gone. -/
theorem Reachable.hasFinished_iff (h : p.Reachable) {a : Nat} {x : Submission}
    (hx : x ∈ p.ledger.submissions a) :
    p.hasFinished x = true ↔ p.ledger.statusOf x = .finished := by
  obtain ⟨life, hlife⟩ := h.chronicled.lives a x hx
  unfold hasFinished
  rw [← story_eq, hlife.story, hlife.status]
  cases life <;> simp [Life.story, Life.status, Happening.isFinished]

/-! ## 2. The three groups -/

/-- The records of a pool by who has them: a task in use, a task that goes, or the pool alone. -/
def owners (p : Program α) (i : Nat) : List Submission :=
  p.held i ++ (p.returning i ++ p.leftBehind i)

/-- Of a submission that is on its way back there is only one notice. -/
theorem Reachable.eq_of_leaving (h : p.Reachable) {l : Leaving} (hl : l ∈ p.leaving) {a : Nat}
    {fate : Fate} (hfate : p.ledger.fate? a = some fate)
    (hx : l.submission ∈ p.ledger.submissions a) : l = ⟨a, l.submission, fate⟩ := by
  obtain ⟨-, htask, hmem, -⟩ := h.owned.leaving l hl
  obtain rfl := h.owned.owner_unique hmem hx
  obtain rfl := Option.some.inj (htask.symm.trans hfate)
  rfl

theorem Reachable.returning_nodup (h : p.Reachable) (i : Nat) : (p.returning i).Nodup := by
  refine List.Nodup.filter _ (List.Nodup.map_on (fun l hl l' hl' he => ?_) h.owned.leaving_nodup)
  obtain ⟨-, htask, hmem, -⟩ := h.owned.leaving l' hl'
  rw [← he] at hmem
  rw [h.eq_of_leaving hl htask hmem, he]

/-- No record is in two groups. -/
theorem Reachable.owners_nodup (h : p.Reachable) (i : Nat) : (p.owners i).Nodup := by
  have hback : (p.returning i ++ p.leftBehind i).Nodup := by
    refine List.nodup_append.mpr
      ⟨h.returning_nodup i, (h.submissionsOf_nodup .detached i).filter _, ?_⟩
    rintro x hx y hy rfl
    obtain ⟨-, l, hl, hlx⟩ := mem_returning.mp hx
    exact (mem_leftBehind.mp hy).2.1 l hl hlx
  refine List.nodup_append.mpr ⟨h.submissionsOf_nodup .live i, hback, ?_⟩
  rintro x hx y hy rfl
  obtain ⟨-, a, hlive, ha⟩ := mem_submissionsOf.mp hx
  rcases List.mem_append.mp hy with hy | hy
  · obtain ⟨-, l, hl, rfl⟩ := mem_returning.mp hy
    have hfate := (h.owned.leaving l hl).1
    rw [h.eq_of_leaving hl hlive ha] at hfate
    exact hfate rfl
  · obtain ⟨-, b, hdetached, hb⟩ := mem_submissionsOf.mp (mem_leftBehind.mp hy).1
    obtain rfl := h.owned.owner_unique ha hb
    exact absurd (hlive.symm.trans hdetached) (by simp)

/-- A record left behind is there until it finishes. -/
theorem Reachable.record_of_leftBehind (h : p.Reachable) {i : Nat} {x : Submission}
    (hx : x ∈ p.leftBehind i) :
    ∃ r, p.ledger.record x = some r ∧ r.detached = true ∧ r.status ≠ .finished := by
  obtain ⟨hof, hreturn, hunfinished⟩ := mem_leftBehind.mp hx
  obtain ⟨-, a, hfate, ha⟩ := mem_submissionsOf.mp hof
  cases hr : p.ledger.record x with
  | none =>
    have hfinished : p.hasFinished x = true := by
      rw [h.hasFinished_iff ha, Ledger.statusOf, hr]
      rfl
    exact absurd (hunfinished.symm.trans hfinished) (by simp)
  | some r =>
    obtain ⟨b, fate, hb, hxb, -, hown, -⟩ := h.owned.linked x r hr
    obtain rfl := h.owned.owner_unique ha hxb
    obtain rfl := Option.some.inj (hfate.symm.trans hb)
    have hd : r.detached = true := by
      by_contra hd
      rcases hown (by simpa using hd) with hlive | hleaving
      · exact absurd hlive (by simp)
      · exact hreturn _ hleaving rfl
    exact ⟨r, rfl, hd, h.owned.unfinished hr hd⟩

/-- A record that somebody still answers for is there and not detached. -/
theorem Reachable.record_of_owned (h : p.Reachable) {i : Nat} {x : Submission}
    (hx : x ∈ p.held i ++ p.returning i) :
    ∃ r, p.ledger.record x = some r ∧ r.detached = false := by
  rcases List.mem_append.mp hx with hx | hx
  · obtain ⟨-, a, hlive, ha⟩ := mem_submissionsOf.mp hx
    exact h.owned.held a hlive x ha
  · obtain ⟨-, l, hl, rfl⟩ := mem_returning.mp hx
    obtain ⟨-, -, -, r, hr, hd, -⟩ := h.owned.leaving l hl
    exact ⟨r, hr, hd⟩

/-- Every record is in one of the groups. -/
theorem Reachable.mem_owners (h : p.Reachable) {x : Submission} {r : Record Job}
    (hr : p.ledger.record x = some r) : x ∈ p.owners x.pool := by
  obtain ⟨a, fate, hfate, ha, -, hown, hleft⟩ := h.owned.linked x r hr
  refine List.mem_append.mpr ?_
  cases hd : r.detached with
  | false =>
    rcases hown hd with rfl | hleaving
    · exact Or.inl (mem_submissionsOf.mpr ⟨rfl, a, hfate, ha⟩)
    · exact Or.inr (List.mem_append.mpr (Or.inl (mem_returning.mpr ⟨rfl, _, hleaving, rfl⟩)))
  | true =>
    obtain ⟨rfl, hnot, hs⟩ := hleft hd
    refine Or.inr (List.mem_append.mpr (Or.inr (mem_leftBehind.mpr ⟨?_, ?_, ?_⟩)))
    · exact mem_submissionsOf.mpr ⟨rfl, a, hfate, ha⟩
    · rintro l hl rfl
      exact hnot (h.eq_of_leaving hl hfate ha ▸ hl)
    · rwa [Bool.eq_false_iff, Ne, h.hasFinished_iff ha, Ledger.statusOf_of_record hr]

theorem pool_of_mem_owners {i : Nat} {x : Submission} (hx : x ∈ p.owners i) : x.pool = i := by
  rcases List.mem_append.mp hx with hx | hx
  · exact (mem_submissionsOf.mp hx).1
  · rcases List.mem_append.mp hx with hx | hx
    · exact (mem_returning.mp hx).1
    · exact (mem_submissionsOf.mp (mem_leftBehind.mp hx).1).1

/-- Pool `i` and the tasks agree on its records. -/
structure Accounted (p : Program α) (i : Nat) (pool : Pool α) : Prop where
  /-- No submission is in two groups, or twice in one. -/
  nodup : (p.owners i).Nodup
  /-- The groups are the records. -/
  linked_iff : ∀ k, ⟨i, k⟩ ∈ p.owners i ↔ (pool.queue.get? k).isSome
  pool_eq : ∀ x ∈ p.owners i, x.pool = i
  /-- No two submissions share a cell. -/
  apart : ∀ x ∈ p.owners i, ∀ y ∈ p.owners i, x.ticket.cell = y.ticket.cell → x = y
  owned : ∀ x ∈ p.held i ++ p.returning i, ∃ r, p.system.record? x = some r ∧ r.detached = false
  left : ∀ x ∈ p.leftBehind i,
    ∃ r, p.system.record? x = some r ∧ r.detached = true ∧ r.status ≠ .finished
  count : pool.counts.queued =
    (p.held i).length + (p.returning i).length + (p.leftBehind i).length

theorem Reachable.accounted (h : p.Reachable) {i : Nat} {pool : Pool α}
    (hi : p.system.pools[i]? = some pool) : p.Accounted i pool := by
  have hrecord (k : Ticket) : p.ledger.record ⟨i, k⟩ = pool.queue.get? k := by
    simp [ledger, System.record?, hi]
  have hlinked (k : Ticket) : ⟨i, k⟩ ∈ p.owners i ↔ (pool.queue.get? k).isSome := by
    rw [← hrecord, Option.isSome_iff_exists]
    constructor
    · intro hx
      rw [owners, ← List.append_assoc] at hx
      rcases List.mem_append.mp hx with hx | hx
      · exact (h.record_of_owned hx).imp fun _ hr => hr.1
      · exact (h.record_of_leftBehind hx).imp fun _ hr => hr.1
    · rintro ⟨r, hr⟩
      exact h.mem_owners hr
  have hnodup : (p.owners i).Nodup := h.owners_nodup i
  refine ⟨hnodup, hlinked, fun x => pool_of_mem_owners, ?_, fun x => h.record_of_owned,
    fun x => h.record_of_leftBehind, ?_⟩
  · rintro ⟨j, k⟩ hx ⟨j', k'⟩ hy hcell
    obtain rfl : j = i := pool_of_mem_owners hx
    obtain rfl : j' = j := pool_of_mem_owners hy
    obtain ⟨r, hr⟩ := Option.isSome_iff_exists.mp ((hlinked k).mp hx)
    obtain ⟨r', hr'⟩ := Option.isSome_iff_exists.mp ((hlinked k').mp hy)
    exact congrArg (Submission.mk j') (Queue.eq_of_cell_eq hr hr' hcell)
  · have hsize : pool.queue.size = ((p.owners i).map (·.ticket)).length := by
      refine Queue.size_eq_length (List.Nodup.map_on (fun x hx y hy he => ?_) hnodup) fun k => ?_
      · cases x; cases y
        exact congrArg₂ Submission.mk
          ((pool_of_mem_owners hx).trans (pool_of_mem_owners hy).symm) he
      · rw [← hlinked, List.mem_map]
        constructor
        · rintro ⟨x, hx, rfl⟩
          obtain rfl := pool_of_mem_owners hx
          exact hx
        · exact fun hx => ⟨_, hx, rfl⟩
    show pool.queue.size = _
    rw [hsize, List.length_map, owners, List.length_append, List.length_append, Nat.add_assoc]

/-- A record on its way back from a released task can be taken out. -/
theorem Reachable.remove_of_leaving (h : p.Reachable) {l : Leaving} (hl : l ∈ p.leaving)
    (hfate : l.fate = .released) {pool : Pool α}
    (hi : p.system.pools[l.submission.pool]? = some pool) :
    pool.queue.remove l.submission.ticket =
      (.ok (), pool.queue.unlink l.submission.ticket) := by
  obtain ⟨-, -, -, r, hr, -, hs⟩ := h.owned.leaving l hl
  have hget : pool.queue.get? l.submission.ticket = some r := by
    simpa [ledger, System.record?, hi] using hr
  exact Queue.remove_finished hget (hs hfate)

/-- A task in use sees a status of its most recent submission. -/
theorem Reachable.currentStatus?_isSome (h : p.Reachable) {t : Task α} (ht : t ∈ p.system.tasks)
    (hlive : t.fate = .live) (hx : t.submissions ≠ []) : (p.system.currentStatus? t).isSome := by
  obtain ⟨a, ha⟩ := List.getElem?_of_mem ht
  obtain ⟨x, rest, hlist⟩ := List.exists_cons_of_ne_nil hx
  have hmem : x ∈ p.ledger.submissions a := by simp [submissions_ledger ha, hlist]
  obtain ⟨r, hr, -⟩ := h.owned.held a ((fate?_ledger ha).trans (congrArg some hlive)) x hmem
  have hr : p.system.record? x = some r := hr
  simp [System.currentStatus?, hlist, hr]

/-- **Tasks and pools agree on every record.**  The records of a pool are, one to one, the
submissions that tasks hold and those that detached tasks have left behind (`Accounted`); when no
release or detachment is under way the tasks in use are the only ones that hold any.  A task has its
submissions to a pool in the order of their numbers, newest first.  So nobody finds the
record of an own submission gone: not a task that asks for its status or whether it can be
released, not a join that waits, not a release that takes records out. -/
theorem records_have_owners (h : p.Reachable) :
    (∀ i pool, p.system.pools[i]? = some pool →
      p.Accounted i pool ∧ (p.leaving = [] → p.owners i = p.held i ++ p.leftBehind i)) ∧
    (∀ t ∈ p.system.tasks, t.submissions.Pairwise fun x y =>
      x.pool = y.pool → y.ticket.number < x.ticket.number) ∧
    (∀ t ∈ p.system.tasks, t.fate = .live → ∀ x ∈ t.submissions,
      ∃ r, p.system.record? x = some r ∧ r.detached = false) ∧
    (∀ t ∈ p.system.tasks, t.fate = .live → t.submissions ≠ [] →
      (p.system.currentStatus? t).isSome) ∧
    (∀ j ∈ p.system.joiners, j.answer? ≠ some (.error .notSubmitted) ∧
      (j.answer? = none → (p.system.record? j.submission).isSome)) ∧
    (∀ l ∈ p.leaving, l.fate = .released → ∀ pool,
      p.system.pools[l.submission.pool]? = some pool →
        pool.queue.remove l.submission.ticket =
          (.ok (), pool.queue.unlink l.submission.ticket)) ∧
    ∀ pool ∈ p.system.pools, pool.faults = [] := by
  refine ⟨?_, ?_, ?_, fun t ht => h.currentStatus?_isSome ht, ?_, ?_, ?_⟩
  · intro i pool hi
    refine ⟨h.accounted hi, ?_⟩
    intro hnone
    simp [owners, returning, hnone]
  · intro t ht
    obtain ⟨a, ha⟩ := List.getElem?_of_mem ht
    exact submissions_ledger ha ▸ h.owned.newest_first a
  · intro t ht hlive x hx
    obtain ⟨a, ha⟩ := List.getElem?_of_mem ht
    exact h.owned.held a ((fate?_ledger ha).trans (congrArg some hlive)) x
      (submissions_ledger ha ▸ hx)
  · intro j hj
    obtain ⟨n, hn⟩ := List.getElem?_of_mem hj
    have hstands := h.joined n j hn
    constructor
    · intro ha
      rcases hstands.answered _ ha with ⟨_, _, e, -, he⟩ | ⟨he, -⟩
      · cases e <;> simp [Ending.outcome] at he
      · simp at he
    · intro hp
      obtain ⟨r, hr, -⟩ := hstands.record h.owned hp
      exact Option.isSome_iff_exists.mpr ⟨r, hr⟩
  · intro l hl hfate pool hi
    exact h.remove_of_leaving hl hfate hi
  · intro pool hpool
    obtain ⟨i, hi⟩ := List.getElem?_of_mem hpool
    rw [← ledger_faults hi]
    exact h.chronicled.sane i

/-- A task is detached while one of its submissions runs; another one has finished. -/
theorem counting_accounts :
    let p := counting.run [.submit 0 0, .submit 0 0, .move (.worker 0 0), .move (.worker 0 0),
      .move (.worker 0 0), .move (.worker 0 0), .detach 0, .giveBack ⟨0, ⟨0, ⟨0, 0⟩⟩, .detached⟩,
      .giveBack ⟨0, ⟨0, ⟨1, 1⟩⟩, .detached⟩]
    p.leftBehind 0 = [⟨0, ⟨0, 0⟩⟩] ∧ ∀ pool, p.system.pools[0]? = some pool → p.Accounted 0 pool :=
  ⟨by decide, fun pool hi => ((records_have_owners (counting_reachable (by decide))).1 0 pool hi).1⟩

end Program
end WorkerPool
