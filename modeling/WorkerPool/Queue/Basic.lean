/-
# The record queue

Every accepted submission has a record, and the records of a pool live in a `Queue`: those
that wait, those that run and those that have finished but are not released yet.  All of them
count towards the limit.  A record is named by a `Ticket`: the cell that it lies in, and the
number of its submission.  Cells are used again, numbers are not, so a ticket is compared by
both, and one whose record is gone never meets a later record.

Records that wait are claimed newest first.  Four operations have a precondition; called without
it they answer with a `QueueFault`, and with the queue as far as they had changed it by then:

* `push` needs room;
* `claim` needs the ticket at the head, which it has taken off, to belong to a waiting record with
  its job;
* `finish` needs a running record;
* `remove` needs a record, if there is one, to have finished.

The records lie in any `Slab`; which vacant cell it fills next is never asked.
-/
import WorkerPool.Arena

namespace WorkerPool

/-- The name of a record: its cell and its submission number. -/
structure Ticket where
  cell : Nat
  number : Nat
deriving DecidableEq, Repr

/-- How far a record has come. -/
inductive Status where
  | queued
  | running
  | finished
deriving DecidableEq, Repr

/-- One accepted submission.  The job is there until it is claimed. -/
structure Record (J : Type) where
  number : Nat
  status : Status
  joined : Bool
  detached : Bool
  job : Option J
deriving DecidableEq, Repr

/-- The records of a pool, and the tickets of those that wait, newest first. -/
structure Queue (S : Type → Type) (J : Type) where
  records : S (Record J)
  waiting : List Ticket
  next : Nat
  limit : Nat

/-- A broken precondition of a queue operation. -/
inductive QueueFault where
  /-- A push onto a full queue. -/
  | full
  /-- The head of the waiting tickets has no record. -/
  | queuedGone
  /-- The head of the waiting tickets belongs to a record that does not wait. -/
  | claimedTwice
  /-- The head of the waiting tickets belongs to a record without a job. -/
  | jobMissing
  /-- The record to finish is gone. -/
  | runningGone
  /-- The record to finish does not run. -/
  | finishedTwice
  /-- The record to remove has not finished. -/
  | removedUnfinished
deriving DecidableEq, Repr

/-- The broken precondition in words. -/
def QueueFault.message : QueueFault → String
  | full => "assertion failed: !self.is_full()"
  | queuedGone => "queued record must stay linked until it finishes"
  | claimedTwice => "record claimed twice"
  | jobMissing => "queued record must own its job"
  | runningGone => "running record must stay linked until it finishes"
  | finishedTwice => "record finished twice"
  | removedUnfinished => "assertion `left == right` failed"

namespace Queue

variable {S : Type → Type} [Slab S] {J : Type}

/-! ## 1. Looking -/

/-- No record, and room for `limit`. -/
def empty (limit : Nat) : Queue S J := ⟨Slab.empty, [], 0, limit⟩

/-- The number of records, whatever their status. -/
def size (q : Queue S J) : Nat := Slab.size q.records

/-- Whether there is no record. -/
def isEmpty (q : Queue S J) : Bool := q.size == 0

/-- Whether there is no room for another record. -/
def isFull (q : Queue S J) : Bool := q.limit ≤ q.size

/-- The record named by `k`, unless it is gone. -/
def get? (q : Queue S J) (k : Ticket) : Option (Record J) :=
  (Slab.get? q.records k.cell).filter fun r => r.number == k.number

/-- The status of the record named by `k`, unless it is gone. -/
def status? (q : Queue S J) (k : Ticket) : Option Status := (q.get? k).map (·.status)

/-- Whether nobody needs the record named by `k` any more: it is gone, or joined and
finished. -/
def isSpent (q : Queue S J) (k : Ticket) : Bool :=
  match q.get? k with
  | none => true
  | some r => r.joined && r.status == .finished

/-! ## 2. Changing -/

/-- Changes the record named by `k`; nothing happens if it is gone. -/
def update (q : Queue S J) (k : Ticket) (f : Record J → Record J) : Queue S J :=
  match q.get? k with
  | none => q
  | some _ => { q with records := Slab.modify q.records k.cell f }

/-- Vacates the cell of the record named by `k`; nothing happens if it is gone. -/
def unlink (q : Queue S J) (k : Ticket) : Queue S J :=
  match q.get? k with
  | none => q
  | some _ => { q with records := Slab.erase q.records k.cell }

/-- Adds a waiting record with the next submission number. -/
def push (q : Queue S J) (job : J) : Except QueueFault Ticket × Queue S J :=
  if q.isFull then
    (.error .full, q)
  else
    let ticket : Ticket := ⟨Slab.nextCell q.records, q.next⟩
    (.ok ticket,
      { q with
        records := Slab.insert q.records ⟨q.next, .queued, false, false, some job⟩
        waiting := ticket :: q.waiting
        next := q.next + 1 })

/-- Takes the newest waiting record and marks it running; `none` if no record waits. -/
def claim (q : Queue S J) : Except QueueFault (Option (Ticket × J)) × Queue S J :=
  match q.waiting with
  | [] => (.ok none, q)
  | k :: rest =>
    let taken := { q with waiting := rest }
    match q.get? k with
    | none => (.error .queuedGone, taken)
    | some r =>
      if r.status = .queued then
        let running := taken.update k fun r => { r with status := .running, job := none }
        match r.job with
        | none => (.error .jobMissing, running)
        | some job => (.ok (some (k, job)), running)
      else (.error .claimedTwice, taken)

/-- Marks a running record finished.  A detached record has no owner that would release it and
is unlinked at once; the answer says whether that happened. -/
def finish (q : Queue S J) (k : Ticket) : Except QueueFault Bool × Queue S J :=
  match q.get? k with
  | none => (.error .runningGone, q)
  | some r =>
    if r.status = .running then
      if r.detached then (.ok true, q.unlink k)
      else (.ok false, q.update k fun r => { r with status := .finished })
    else (.error .finishedTwice, q)

/-- Marks the record joined; nothing happens if it is gone. -/
def join (q : Queue S J) (k : Ticket) : Queue S J :=
  q.update k fun r => { r with joined := true }

/-- Unlinks a finished record; nothing happens if it is gone. -/
def remove (q : Queue S J) (k : Ticket) : Except QueueFault Unit × Queue S J :=
  match q.get? k with
  | none => (.ok (), q)
  | some r =>
    if r.status = .finished then (.ok (), q.unlink k) else (.error .removedUnfinished, q)

/-- Gives up the ownership of a record: a finished one is unlinked at once, any other when
it finishes. -/
def detach (q : Queue S J) (k : Ticket) : Queue S J :=
  match q.get? k with
  | none => q
  | some r =>
    if r.status = .finished then q.unlink k
    else q.update k fun r => { r with detached := true }

/-! ## 3. What the small changes do to the records -/

@[simp] theorem get?_empty (limit : Nat) (k : Ticket) :
    (empty limit : Queue S J).get? k = none := by
  simp [get?, empty]

@[simp] theorem size_update (q : Queue S J) (k : Ticket) (f : Record J → Record J) :
    (q.update k f).size = q.size := by
  unfold update
  split
  · rfl
  · simp [size]

/-- Two tickets of present records that share a cell are the same ticket. -/
theorem eq_of_cell_eq {q : Queue S J} {k k' : Ticket} {r r' : Record J}
    (h : q.get? k = some r) (h' : q.get? k' = some r') (hs : k.cell = k'.cell) : k = k' := by
  obtain ⟨hr, hid⟩ := Option.filter_eq_some_iff.mp h
  obtain ⟨hr', hid'⟩ := Option.filter_eq_some_iff.mp h'
  rw [hs, hr'] at hr
  obtain rfl := Option.some.inj hr
  have : k.number = k'.number := (eq_of_beq hid).symm.trans (eq_of_beq hid')
  cases k; cases k'; simp_all

/-- A change that keeps the submission number is seen under its own ticket and under no other. -/
theorem get?_update (q : Queue S J) (k k' : Ticket) (f : Record J → Record J)
    (hf : ∀ r, (f r).number = r.number) :
    (q.update k f).get? k' = if k' = k then (q.get? k').map f else q.get? k' := by
  unfold update
  split
  · next h =>
    split
    · next hk => rw [hk, h]; rfl
    · rfl
  · next r h =>
    obtain ⟨hr, hid⟩ := Option.filter_eq_some_iff.mp h
    simp only [get?, Slab.get?_modify]
    by_cases hk : k' = k
    · rw [if_pos hk, if_pos (by rw [hk]), hk, hr]
      simp [Option.filter, hf]
    · rw [if_neg hk]
      split
      · next hs =>
        rw [hs, hr]
        have hne : ¬ r.number = k'.number := by
          intro hid'
          exact hk (by cases k; cases k'; simp_all)
        simp [Option.filter, hf, hne]
      · rfl

/-- Unlinking removes the record under its own ticket and no other. -/
theorem get?_unlink (q : Queue S J) (k k' : Ticket) :
    (q.unlink k).get? k' = if k' = k then none else q.get? k' := by
  unfold unlink
  split
  · next h =>
    split
    · next hk => rw [hk, h]
    · rfl
  · next r h =>
    obtain ⟨hr, hid⟩ := Option.filter_eq_some_iff.mp h
    simp only [get?, Slab.get?_erase]
    by_cases hk : k' = k
    · rw [if_pos hk, if_pos (by rw [hk])]
      rfl
    · rw [if_neg hk]
      split
      · next hs =>
        rw [hs, hr]
        have hne : ¬ r.number = k'.number := by
          intro hid'
          exact hk (by cases k; cases k'; simp_all)
        simp [Option.filter, hne]
      · rfl

end Queue
end WorkerPool
