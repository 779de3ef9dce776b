/-
# What always holds of a record queue

`Queue.Sound` collects what every sequence of queue operations keeps: tickets are never given
twice, the waiting tickets are those of the waiting records, newest first, and a record owns its
job exactly while it waits.  On a sound queue the operations of a worker cannot break a
precondition: `Sound.claim` and `finish_running` say what they answer, and neither answer is a
fault.  What a claim answers with is the newest record that waits (`Sound.isNewest`).

The operations are described by what a ticket names afterwards (`get?_pushed`, `get?_started`,
`get?_finished`, `get?_detach`), so nothing below looks into the cells of the slab again.
-/
import Mathlib.Data.List.Nodup
import Mathlib.Data.List.Perm.Basic
import WorkerPool.Queue.Basic

namespace WorkerPool
namespace Queue

variable {S : Type → Type} [Slab S] {J : Type} {q : Queue S J}

/-! ## 1. The queue after an operation -/

/-- The ticket that the next push gives. -/
def freshTicket (q : Queue S J) : Ticket := ⟨Slab.nextCell q.records, q.next⟩

/-- The queue after a push that had room. -/
def pushed (q : Queue S J) (job : J) : Queue S J :=
  { q with
    records := Slab.insert q.records ⟨q.next, .queued, false, false, some job⟩
    waiting := q.freshTicket :: q.waiting
    next := q.next + 1 }

/-- The queue after the claim of `k`, with the tickets that wait on. -/
def started (q : Queue S J) (k : Ticket) (rest : List Ticket) : Queue S J :=
  { q.update k fun r => { r with status := .running, job := none } with waiting := rest }

/-- The queue after the finish of the running record `k`. -/
def finished (q : Queue S J) (k : Ticket) : Queue S J :=
  match q.get? k with
  | none => q
  | some r =>
    if r.detached then q.unlink k else q.update k fun r => { r with status := .finished }

theorem push_eq (q : Queue S J) (job : J) :
    q.push job =
      if q.isFull then (.error .full, q) else (.ok q.freshTicket, q.pushed job) := rfl

/-- It does not matter whether the ticket is taken off before the record is changed or after. -/
theorem update_waiting (q : Queue S J) (k : Ticket) (f : Record J → Record J)
    (rest : List Ticket) :
    { q with waiting := rest }.update k f = { q.update k f with waiting := rest } := by
  unfold update
  show (match q.get? k with | none => _ | some _ => _) = _
  cases q.get? k <;> rfl

/-- A running record can be finished. -/
theorem finish_running {k : Ticket} {r : Record J} (hr : q.get? k = some r)
    (hs : r.status = .running) : q.finish k = (.ok r.detached, q.finished k) := by
  simp only [finish, finished, hr, hs, if_true]
  by_cases hd : r.detached = true
  · simp only [hd, if_true]
  · simp only [hd, if_false, Bool.false_eq_true]

/-- A finished record can be removed. -/
theorem remove_finished {k : Ticket} {r : Record J} (hr : q.get? k = some r)
    (hs : r.status = .finished) : q.remove k = (.ok (), q.unlink k) := by
  simp [remove, hr, hs]

/-! ## 2. What a ticket names afterwards -/

theorem status?_eq_some {k : Ticket} {st : Status} :
    q.status? k = some st ↔ ∃ r, q.get? k = some r ∧ r.status = st :=
  Option.map_eq_some_iff

@[simp] theorem get?_freshTicket (q : Queue S J) : q.get? q.freshTicket = none := by
  simp [get?, freshTicket]

theorem get?_pushed (q : Queue S J) (job : J) (k : Ticket) :
    (q.pushed job).get? k =
      if k = q.freshTicket then some ⟨q.next, .queued, false, false, some job⟩
      else q.get? k := by
  simp only [get?, pushed, Slab.get?_insert]
  by_cases hc : k.cell = Slab.nextCell q.records
  · rw [if_pos hc, hc, Slab.get?_nextCell]
    by_cases hn : q.next = k.number
    · rw [if_pos (by cases k; simp_all [freshTicket])]
      simp [Option.filter, hn]
    · rw [if_neg (by rintro rfl; exact hn rfl)]
      simp [Option.filter, hn]
  · rw [if_neg hc, if_neg (by rintro rfl; exact hc rfl)]

theorem get?_started (q : Queue S J) (k k' : Ticket) (rest : List Ticket) :
    (q.started k rest).get? k' =
      if k' = k then (q.get? k').map fun r => { r with status := .running, job := none }
      else q.get? k' :=
  get?_update q k k' _ fun _ => rfl

theorem get?_finished {k : Ticket} {r : Record J} (hr : q.get? k = some r) (k' : Ticket) :
    (q.finished k).get? k' =
      if k' = k then if r.detached then none else some { r with status := .finished }
      else q.get? k' := by
  unfold finished
  rw [hr]
  by_cases hd : r.detached = true
  · simp only [hd, if_true, get?_unlink]
  · simp only [hd, if_false, Bool.false_eq_true]
    rw [get?_update]
    · by_cases hk : k' = k
      · simp [hk, hr, hd]
      · simp [hk]
    · exact fun _ => rfl

theorem get?_join (q : Queue S J) (k k' : Ticket) :
    (q.join k).get? k' =
      if k' = k then (q.get? k').map fun r => { r with joined := true } else q.get? k' :=
  get?_update q k k' _ fun _ => rfl

/-- Detaching drops a finished record and marks any other. -/
theorem get?_detach (q : Queue S J) (k k' : Ticket) :
    (q.detach k).get? k' =
      if k' = k then
        (q.get? k).bind fun r =>
          if r.status = .finished then none else some { r with detached := true }
      else q.get? k' := by
  unfold detach
  cases hr : q.get? k with
  | none =>
    by_cases hk : k' = k
    · simp [hk, hr]
    · simp [hk]
  | some r =>
    by_cases hs : r.status = .finished
    · simp only [hs, if_true, get?_unlink, Option.bind_some]
    · simp only [hs, if_false, Option.bind_some]
      rw [get?_update]
      · by_cases hk : k' = k
        · simp [hk, hr]
        · simp [hk]
      · exact fun _ => rfl

/-! ## 3. What the operations leave alone -/

@[simp] theorem next_update (q : Queue S J) (k : Ticket) (f : Record J → Record J) :
    (q.update k f).next = q.next := by
  unfold update; split <;> rfl

@[simp] theorem waiting_update (q : Queue S J) (k : Ticket) (f : Record J → Record J) :
    (q.update k f).waiting = q.waiting := by
  unfold update; split <;> rfl

@[simp] theorem limit_update (q : Queue S J) (k : Ticket) (f : Record J → Record J) :
    (q.update k f).limit = q.limit := by
  unfold update; split <;> rfl

@[simp] theorem next_unlink (q : Queue S J) (k : Ticket) : (q.unlink k).next = q.next := by
  unfold unlink; split <;> rfl

@[simp] theorem waiting_unlink (q : Queue S J) (k : Ticket) :
    (q.unlink k).waiting = q.waiting := by
  unfold unlink; split <;> rfl

@[simp] theorem limit_unlink (q : Queue S J) (k : Ticket) : (q.unlink k).limit = q.limit := by
  unfold unlink; split <;> rfl

@[simp] theorem next_pushed (q : Queue S J) (job : J) : (q.pushed job).next = q.next + 1 := rfl

@[simp] theorem next_started (q : Queue S J) (k : Ticket) (rest : List Ticket) :
    (q.started k rest).next = q.next := next_update q k _

@[simp] theorem next_join (q : Queue S J) (k : Ticket) : (q.join k).next = q.next :=
  next_update q k _

@[simp] theorem next_finished (q : Queue S J) (k : Ticket) : (q.finished k).next = q.next := by
  unfold finished
  split
  · rfl
  · split
    · exact next_unlink q k
    · exact next_update q k _

@[simp] theorem waiting_finished (q : Queue S J) (k : Ticket) :
    (q.finished k).waiting = q.waiting := by
  unfold finished
  split
  · rfl
  · split
    · exact waiting_unlink q k
    · exact waiting_update q k _

@[simp] theorem limit_finished (q : Queue S J) (k : Ticket) : (q.finished k).limit = q.limit := by
  unfold finished
  split
  · rfl
  · split
    · exact limit_unlink q k
    · exact limit_update q k _

@[simp] theorem next_detach (q : Queue S J) (k : Ticket) : (q.detach k).next = q.next := by
  unfold detach
  split
  · rfl
  · split
    · exact next_unlink q k
    · exact next_update q k _

@[simp] theorem waiting_detach (q : Queue S J) (k : Ticket) :
    (q.detach k).waiting = q.waiting := by
  unfold detach
  split
  · rfl
  · split
    · exact waiting_unlink q k
    · exact waiting_update q k _

@[simp] theorem limit_detach (q : Queue S J) (k : Ticket) : (q.detach k).limit = q.limit := by
  unfold detach
  split
  · rfl
  · split
    · exact limit_unlink q k
    · exact limit_update q k _

theorem size_unlink_le (q : Queue S J) (k : Ticket) : (q.unlink k).size ≤ q.size := by
  unfold unlink
  split
  · exact Nat.le_refl _
  · simp only [size, Slab.size_erase]
    split <;> omega

/-! ## 4. Soundness -/

/-- What holds of a queue after any operations. -/
structure Sound (q : Queue S J) : Prop where
  /-- Numbers are given in turn. -/
  number_lt : ∀ k r, q.get? k = some r → k.number < q.next
  /-- No two records have the same number. -/
  number_inj : ∀ k k' r r', q.get? k = some r → q.get? k' = some r' →
    k.number = k'.number → k = k'
  /-- The waiting tickets are those of the waiting records. -/
  waiting_iff : ∀ k, k ∈ q.waiting ↔ q.status? k = some .queued
  /-- The newest submission comes first. -/
  newest_first : q.waiting.Pairwise fun k k' => k'.number < k.number
  /-- A record owns its job while it waits, and no longer. -/
  job_iff : ∀ k r, q.get? k = some r → (r.job.isSome ↔ r.status = .queued)
  /-- A detached record goes when it finishes. -/
  not_finished : ∀ k r, q.get? k = some r → r.detached = true → r.status ≠ .finished
  /-- There are no more records than allowed. -/
  size_le : q.size ≤ q.limit

theorem Sound.empty (limit : Nat) : (empty limit : Queue S J).Sound where
  number_lt := by simp
  number_inj := by simp
  waiting_iff := by
    intro k
    rw [status?, get?_empty]
    simp [Queue.empty]
  newest_first := List.Pairwise.nil
  job_iff := by simp
  not_finished := by simp
  size_le := by simp [size, Queue.empty]

theorem Sound.pushed (h : q.Sound) (hfull : q.isFull = false) (job : J) : (q.pushed job).Sound where
  number_lt := by
    intro k r hr
    rw [get?_pushed] at hr
    split at hr
    · next hk => subst hk; exact Nat.lt_succ_self _
    · exact Nat.lt_succ_of_lt (h.number_lt k r hr)
  number_inj := by
    intro k k' r r' hr hr' hn
    rw [get?_pushed] at hr hr'
    split at hr <;> split at hr'
    · next hk hk' => rw [hk, hk']
    · next hk _ => subst hk; exact absurd (h.number_lt k' r' hr') (by simp [← hn, freshTicket])
    · next _ hk' => subst hk'; exact absurd (h.number_lt k r hr) (by simp [hn, freshTicket])
    · exact h.number_inj k k' r r' hr hr' hn
  waiting_iff := by
    intro k
    show k ∈ q.freshTicket :: q.waiting ↔ _
    rw [List.mem_cons, h.waiting_iff, status?, status?, get?_pushed]
    by_cases hk : k = q.freshTicket
    · simp [hk]
    · simp [hk]
  newest_first := by
    refine List.pairwise_cons.mpr ⟨fun k hk => ?_, h.newest_first⟩
    obtain ⟨r, hr, -⟩ := status?_eq_some.mp ((h.waiting_iff k).mp hk)
    exact h.number_lt k r hr
  job_iff := by
    intro k r hr
    rw [get?_pushed] at hr
    split at hr
    · obtain rfl := Option.some.inj hr; simp
    · exact h.job_iff k r hr
  not_finished := by
    intro k r hr
    rw [get?_pushed] at hr
    split at hr
    · obtain rfl := Option.some.inj hr; simp
    · exact h.not_finished k r hr
  size_le := by
    have hlt : q.size < q.limit := by simpa [isFull] using hfull
    show Slab.size (Slab.insert q.records _) ≤ q.limit
    rw [Slab.size_insert]
    exact hlt

/-- A change of one record that keeps the sense of its fields keeps the queue sound. -/
theorem Sound.update (h : q.Sound) (k : Ticket) (f : Record J → Record J)
    (hnum : ∀ r, (f r).number = r.number)
    (hstatus : ∀ r, q.get? k = some r → ((f r).status = .queued ↔ r.status = .queued))
    (hjob : ∀ r, q.get? k = some r → ((f r).job.isSome ↔ (f r).status = .queued))
    (hdet : ∀ r, q.get? k = some r → (f r).detached = true → (f r).status ≠ .finished) :
    (q.update k f).Sound := by
  -- a record after the change is a record before it, or the changed one
  have back : ∀ k' r', (q.update k f).get? k' = some r' →
      ∃ r, q.get? k' = some r ∧ (k' = k ∧ r' = f r ∨ r' = r) := by
    intro k' r' hr'
    rw [get?_update q k k' f hnum] at hr'
    split at hr'
    · next hk =>
      obtain ⟨r, hr, rfl⟩ := Option.map_eq_some_iff.mp hr'
      exact ⟨r, hr, Or.inl ⟨hk, rfl⟩⟩
    · exact ⟨r', hr', Or.inr rfl⟩
  refine ⟨?_, ?_, ?_, by simpa using h.newest_first, ?_, ?_, by simpa using h.size_le⟩
  · intro k' r' hr
    obtain ⟨r, hr, -⟩ := back k' r' hr
    simpa using h.number_lt k' r hr
  · intro k₁ k₂ r₁ r₂ h₁ h₂
    obtain ⟨r₁, h₁, -⟩ := back k₁ r₁ h₁
    obtain ⟨r₂, h₂, -⟩ := back k₂ r₂ h₂
    exact h.number_inj k₁ k₂ r₁ r₂ h₁ h₂
  · intro k'
    rw [waiting_update, h.waiting_iff, status?, status?, get?_update q k k' f hnum]
    by_cases hk : k' = k
    · subst hk
      cases hr : q.get? k' with
      | none => simp
      | some r => simpa using (hstatus r hr).symm
    · simp [hk]
  · intro k' r' hr'
    obtain ⟨r, hr, ⟨rfl, rfl⟩ | rfl⟩ := back k' r' hr'
    · exact hjob r hr
    · exact h.job_iff k' _ hr
  · intro k' r' hr'
    obtain ⟨r, hr, ⟨rfl, rfl⟩ | rfl⟩ := back k' r' hr'
    · exact hdet r hr
    · exact h.not_finished k' _ hr

theorem Sound.join (h : q.Sound) (k : Ticket) : (q.join k).Sound :=
  h.update k _ (fun _ => rfl) (fun _ _ => Iff.rfl) (fun r hr => h.job_iff k r hr)
    (fun r hr => h.not_finished k r hr)

/-- A record that does not wait can go. -/
theorem Sound.unlink (h : q.Sound) {k : Ticket} (hk : q.status? k ≠ some .queued) :
    (q.unlink k).Sound := by
  have back : ∀ k' r, (q.unlink k).get? k' = some r → q.get? k' = some r := by
    intro k' r hr
    rw [get?_unlink] at hr
    split at hr
    · exact absurd hr (by simp)
    · exact hr
  refine ⟨?_, ?_, ?_, by simpa using h.newest_first, ?_, ?_, ?_⟩
  · intro k' r hr
    simpa using h.number_lt k' r (back k' r hr)
  · intro k₁ k₂ r₁ r₂ h₁ h₂
    exact h.number_inj k₁ k₂ r₁ r₂ (back _ _ h₁) (back _ _ h₂)
  · intro k'
    rw [waiting_unlink, h.waiting_iff]
    by_cases hk' : k' = k
    · subst hk'
      simpa [status?, get?_unlink] using hk
    · simp [status?, get?_unlink, hk']
  · exact fun k' r hr => h.job_iff k' r (back k' r hr)
  · exact fun k' r hr => h.not_finished k' r (back k' r hr)
  · rw [limit_unlink]
    exact Nat.le_trans (size_unlink_le q k) h.size_le

theorem Sound.detach (h : q.Sound) (k : Ticket) : (q.detach k).Sound := by
  unfold Queue.detach
  cases hr : q.get? k with
  | none => exact h
  | some r =>
    by_cases hs : r.status = .finished
    · simp only [hs, if_true]
      exact h.unlink (by simp [status?, hr, hs])
    · simp only [hs, if_false]
      refine h.update k _ (fun _ => rfl) (fun _ _ => Iff.rfl) (fun r hr => h.job_iff k r hr) ?_
      intro r' hr' _
      rw [hr] at hr'
      obtain rfl := Option.some.inj hr'
      exact hs

/-- A claim meets a waiting record with its job, or there is none. -/
theorem Sound.claim (h : q.Sound) :
    (q.waiting = [] ∧ q.claim = (.ok none, q)) ∨
      ∃ k rest r job, q.waiting = k :: rest ∧ q.get? k = some r ∧ r.status = .queued ∧
        r.job = some job ∧ q.claim = (.ok (some (k, job)), q.started k rest) := by
  cases hw : q.waiting with
  | nil => exact Or.inl ⟨rfl, by simp [Queue.claim, hw]⟩
  | cons k rest =>
    have hk : q.status? k = some .queued := (h.waiting_iff k).mp (by simp [hw])
    obtain ⟨r, hr, hs⟩ := status?_eq_some.mp hk
    obtain ⟨job, hj⟩ := Option.isSome_iff_exists.mp ((h.job_iff k r hr).mpr hs)
    refine Or.inr ⟨k, rest, r, job, rfl, hr, hs, hj, ?_⟩
    simp [Queue.claim, hw, hr, hs, hj, started, update_waiting]

/-- The claim of the first waiting ticket keeps the queue sound. -/
theorem Sound.started (h : q.Sound) {k : Ticket} {rest : List Ticket}
    (hw : q.waiting = k :: rest) : (q.started k rest).Sound := by
  obtain ⟨hnew, hrest⟩ := List.pairwise_cons.mp (hw ▸ h.newest_first)
  have back : ∀ k' r', (q.started k rest).get? k' = some r' →
      ∃ r, q.get? k' = some r ∧
        (k' = k ∧ r' = { r with status := .running, job := none } ∨ k' ≠ k ∧ r' = r) := by
    intro k' r' hr'
    rw [get?_started] at hr'
    split at hr'
    · next hk =>
      obtain ⟨r, hr, rfl⟩ := Option.map_eq_some_iff.mp hr'
      exact ⟨r, hr, Or.inl ⟨hk, rfl⟩⟩
    · next hk => exact ⟨r', hr', Or.inr ⟨hk, rfl⟩⟩
  refine ⟨?_, ?_, ?_, hrest, ?_, ?_, ?_⟩
  · intro k' r' hr
    obtain ⟨r, hr, -⟩ := back k' r' hr
    simpa using h.number_lt k' r hr
  · intro k₁ k₂ r₁ r₂ h₁ h₂
    obtain ⟨r₁, h₁, -⟩ := back k₁ r₁ h₁
    obtain ⟨r₂, h₂, -⟩ := back k₂ r₂ h₂
    exact h.number_inj k₁ k₂ r₁ r₂ h₁ h₂
  · intro k'
    show k' ∈ rest ↔ _
    rw [status?, get?_started]
    by_cases hk : k' = k
    · subst hk
      have : k' ∉ rest := fun hm => Nat.lt_irrefl _ (hnew k' hm)
      cases q.get? k' <;> simp [this]
    · have := h.waiting_iff k'
      rw [hw, List.mem_cons, status?] at this
      simpa [hk] using this
  · intro k' r' hr'
    obtain ⟨r, hr, ⟨-, rfl⟩ | ⟨-, rfl⟩⟩ := back k' r' hr'
    · simp
    · exact h.job_iff k' _ hr
  · intro k' r' hr'
    obtain ⟨r, hr, ⟨-, rfl⟩ | ⟨-, rfl⟩⟩ := back k' r' hr'
    · simp
    · exact h.not_finished k' _ hr
  · show (q.update k _).size ≤ (q.update k _).limit
    simpa using h.size_le

/-- The finish of a running record keeps the queue sound. -/
theorem Sound.finished (h : q.Sound) {k : Ticket} {r : Record J} (hr : q.get? k = some r)
    (hs : r.status = .running) : (q.finished k).Sound := by
  unfold Queue.finished
  rw [hr]
  by_cases hd : r.detached = true
  · simp only [hd, if_true]
    exact h.unlink (by simp [status?, hr, hs])
  · simp only [hd, if_false, Bool.false_eq_true]
    -- the record to change is the running one, which owns no job
    have same : ∀ r', q.get? k = some r' → r' = r :=
      fun r' hr' => Option.some.inj (hr'.symm.trans hr)
    refine h.update k _ (fun _ => rfl) ?_ ?_ ?_
    · intro r' hr'
      rw [same r' hr', hs]
      simp
    · intro r' hr'
      have hj := h.job_iff k r' hr'
      rw [same r' hr'] at hj ⊢
      simpa [hs] using hj
    · intro r' hr' hd'
      rw [same r' hr'] at hd'
      exact absurd hd' hd

/-! ## 5. The newest record that waits -/

/-- Record `k` waits, and no newer record does. -/
def IsNewest (q : Queue S J) (k : Ticket) : Prop :=
  q.status? k = some .queued ∧ ∀ k', q.status? k' = some .queued → k'.number ≤ k.number

theorem Sound.waiting_eq_nil_iff (h : q.Sound) :
    q.waiting = [] ↔ ∀ k, q.status? k ≠ some .queued := by
  rw [List.eq_nil_iff_forall_not_mem]
  exact forall_congr' fun k => not_congr (h.waiting_iff k)

/-- The first of the waiting tickets is the newest. -/
theorem Sound.isNewest (h : q.Sound) {k : Ticket} {rest : List Ticket}
    (hwait : q.waiting = k :: rest) : q.IsNewest k := by
  refine ⟨(h.waiting_iff k).mp (by simp [hwait]), fun k' hk' => ?_⟩
  have hmem := (h.waiting_iff k').mpr hk'
  rw [hwait] at hmem
  rcases List.mem_cons.mp hmem with rfl | hrest
  · exact Nat.le_refl _
  · have hnew := h.newest_first
    rw [hwait] at hnew
    exact Nat.le_of_lt ((List.pairwise_cons.mp hnew).1 k' hrest)

/-- There is one newest record at most. -/
theorem Sound.isNewest_unique (h : q.Sound) {k k' : Ticket} (hk : q.IsNewest k)
    (hk' : q.IsNewest k') : k = k' := by
  obtain ⟨r, hr, -⟩ := status?_eq_some.mp hk.1
  obtain ⟨r', hr', -⟩ := status?_eq_some.mp hk'.1
  exact h.number_inj k k' r r' hr hr' (Nat.le_antisymm (hk'.2 k hk.1) (hk.2 k' hk'.1))

/-! ## 6. The tickets of a queue -/

/-- The tickets of all records. -/
def tickets (q : Queue S J) : List Ticket :=
  (Slab.cells q.records).filterMap fun cell =>
    (Slab.get? q.records cell).map fun r => ⟨cell, r.number⟩

theorem mem_tickets {k : Ticket} : k ∈ q.tickets ↔ (q.get? k).isSome := by
  obtain ⟨cell, number⟩ := k
  simp only [tickets, List.mem_filterMap, Slab.mem_cells, Option.map_eq_some_iff, Ticket.mk.injEq,
    Option.isSome_iff_exists, get?, Option.filter_eq_some_iff, beq_iff_eq]
  constructor
  · rintro ⟨c, -, r, hr, rfl, rfl⟩
    exact ⟨r, hr, rfl⟩
  · rintro ⟨r, hr, rfl⟩
    exact ⟨cell, ⟨r, hr⟩, r, hr, rfl, rfl⟩

/-- Each occupied cell has one ticket. -/
theorem map_cell_tickets (q : Queue S J) : q.tickets.map (·.cell) = Slab.cells q.records := by
  rw [tickets, List.map_filterMap]
  refine Eq.trans (List.filterMap_congr fun cell hcell => ?_) List.filterMap_some
  obtain ⟨r, hr⟩ := Option.isSome_iff_exists.mp (Slab.mem_cells.mp hcell)
  rw [hr]
  rfl

theorem nodup_tickets (q : Queue S J) : q.tickets.Nodup :=
  List.Nodup.of_map _ (q.map_cell_tickets ▸ Slab.nodup_cells q.records)

/-- A list that names every record once is as long as the queue. -/
theorem size_eq_length {l : List Ticket} (hl : l.Nodup) (hmem : ∀ k, k ∈ l ↔ (q.get? k).isSome) :
    q.size = l.length := by
  have hperm : l.Perm q.tickets :=
    (List.perm_ext_iff_of_nodup hl q.nodup_tickets).mpr fun k => (hmem k).trans mem_tickets.symm
  rw [hperm.length_eq, ← List.length_map (f := (·.cell)), map_cell_tickets, size, Slab.size_eq]

end Queue
end WorkerPool
