/-
# What a history tells of a record queue

A trial of a record queue can be told without any queue: by the list of the steps that were
tried, each with its reply.  Record `n` is that of the push that succeeded as number `n`, and
whether it waits, runs, has finished or is gone, whether it is joined or detached, and with what
label it waits, are questions about that list alone.

* It waits until a claim answers with it, runs until a finish of it succeeds, and has finished then.
* It is joined or detached once that was asked for, at any time since its push.
* It is gone once it has finished and was detached, before or after, or removed after its finish.

So is every reply: `QueueHistory.reply?` says what the next step will be answered with.
-/
import WorkerPool.Queue.Trial

namespace WorkerPool

/-- The key that a step names. -/
def QueueStep.key? {L : Type} : QueueStep L → Option Nat
  | finish n => some n
  | join n => some n
  | remove n => some n
  | detach n => some n
  | get n => some n
  | _ => none

/-- A step that was tried, with its reply. -/
structure QueueEvent (L : Type) where
  step : QueueStep L
  reply : QueueReply L

namespace QueueEvent

variable {L : Type}

/-- The label of a record that was pushed. -/
def pushed? (e : QueueEvent L) : Option L :=
  match e.step, e.reply with
  | .push label, .pushed _ => some label
  | _, _ => none

/-- Whether a claim was answered with record `n`. -/
def claims (e : QueueEvent L) (n : Nat) : Bool :=
  match e.step, e.reply with
  | .claim, .claimed m _ => m == n
  | _, _ => false

/-- Whether record `n` was finished. -/
def finishes (e : QueueEvent L) (n : Nat) : Bool :=
  match e.step, e.reply with
  | .finish m, .finished _ => m == n
  | _, _ => false

def joins (e : QueueEvent L) (n : Nat) : Bool :=
  match e.step with
  | .join m => m == n
  | _ => false

def detaches (e : QueueEvent L) (n : Nat) : Bool :=
  match e.step with
  | .detach m => m == n
  | _ => false

def removes (e : QueueEvent L) (n : Nat) : Bool :=
  match e.step with
  | .remove m => m == n
  | _ => false

/-- The record that the event is about. -/
def key? (e : QueueEvent L) : Option Nat :=
  match e.step, e.reply with
  | .claim, .claimed n _ => some n
  | s, _ => s.key?

end QueueEvent

/-- The steps that were tried, newest first. -/
abbrev QueueHistory (L : Type) := List (QueueEvent L)

namespace QueueHistory

variable {L : Type}

/-! ## 1. What has become of a record -/

/-- The labels that were pushed, oldest first. -/
def labels (h : QueueHistory L) : List L := h.reverse.filterMap QueueEvent.pushed?

/-- The number of pushes that succeeded. -/
def pushes (h : QueueHistory L) : Nat := h.labels.length

def claimed (h : QueueHistory L) (n : Nat) : Bool := h.any (·.claims n)

def finished (h : QueueHistory L) (n : Nat) : Bool := h.any (·.finishes n)

def joined (h : QueueHistory L) (n : Nat) : Bool := h.any (·.joins n)

def detached (h : QueueHistory L) (n : Nat) : Bool := h.any (·.detaches n)

/-- Whether a removal of the record came after its finish. -/
def removed : QueueHistory L → Nat → Bool
  | [], _ => false
  | e :: older, n => e.removes n && finished older n || removed older n

/-- Whether the record was there and is no longer. -/
def gone (h : QueueHistory L) (n : Nat) : Bool := h.finished n && (h.detached n || h.removed n)

/-- How far the record has come, if it is there. -/
def status (h : QueueHistory L) (n : Nat) : Status :=
  if h.finished n then .finished else if h.claimed n then .running else .queued

/-- The record, unless it is gone.  It has its label while it waits. -/
def record? (h : QueueHistory L) (n : Nat) : Option (Record L) :=
  if h.gone n then none
  else some ⟨n, h.status n, h.joined n, h.detached n,
    if h.status n = .queued then h.labels[n]? else none⟩

/-! ## 2. What the queue as a whole looks like -/

/-- The records that are there: as many as were pushed, less those that are gone. -/
def size (h : QueueHistory L) : Nat := h.pushes - (List.range h.pushes).countP h.gone

/-- The newest record that waits, with its label. -/
def newest? (h : QueueHistory L) : Option (Nat × L) := do
  let n ← ((List.range h.pushes).filter fun n => h.status n = .queued).max?
  let label ← h.labels[n]?
  return (n, label)

/-- What is seen of a queue after a reply. -/
def answer (h : QueueHistory L) (limit : Nat) (reply : QueueReply L) : QueueAnswer L where
  reply
  size := h.size
  isEmpty := h.size == 0
  isFull := limit ≤ h.size
  marks := (List.range h.pushes).map fun n => (h.record? n).map (·.mark)

/-! ## 3. What the next step is answered with -/

/-- The reply to a step on record `n`, if there was ever such a record. -/
def onKey (h : QueueHistory L) (n : Nat) (f : Option (Record L) → QueueReply L) :
    Except QueueRefusal (QueueReply L) :=
  if n < h.pushes then .ok (f (h.record? n)) else .error .noKey

/-- The reply to the finish of a record. -/
def finishReply : Option (Record L) → QueueReply L
  | none => .fault .runningGone
  | some r => if r.status = .running then .finished r.detached else .fault .finishedTwice

/-- The reply to the removal of a record. -/
def removeReply : Option (Record L) → QueueReply L
  | none => .done
  | some r => if r.status = .finished then .done else .fault .removedUnfinished

/-- The reply to a step, in a queue with room for `limit` records. -/
def reply? (h : QueueHistory L) (limit : Nat) : QueueStep L → Except QueueRefusal (QueueReply L)
  | .push _ => .ok (if limit ≤ h.size then .fault .full else .pushed h.pushes)
  | .claim =>
    .ok (match h.newest? with
      | none => .nothingQueued
      | some (n, label) => .claimed n label)
  | .finish n => h.onKey n finishReply
  | .join n => h.onKey n fun _ => .done
  | .remove n => h.onKey n removeReply
  | .detach n => h.onKey n fun _ => .done
  | .get n => h.onKey n fun r? => .mark (r?.map (·.mark))
  | .limit => .ok (.limit limit)
  | .unkeyed => .error .noKey
  | .unknown => .error .badRequest

/-- The answers to a list of steps, told from the history before them. -/
def answers (limit : Nat) (h : QueueHistory L) :
    List (QueueStep L) → List (Except QueueRefusal (QueueAnswer L))
  | [] => []
  | s :: rest =>
    match h.reply? limit s with
    | .error e => .error e :: answers limit h rest
    | .ok reply =>
      .ok (answer (⟨s, reply⟩ :: h) limit reply) :: answers limit (⟨s, reply⟩ :: h) rest

/-- The history after a list of steps. -/
def follow (limit : Nat) (h : QueueHistory L) : List (QueueStep L) → QueueHistory L
  | [] => h
  | s :: rest =>
    match h.reply? limit s with
    | .error _ => follow limit h rest
    | .ok reply => follow limit (⟨s, reply⟩ :: h) rest

end QueueHistory
end WorkerPool
