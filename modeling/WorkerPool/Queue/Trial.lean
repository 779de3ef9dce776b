/-
# A trial of a record queue on its own

A `QueueTrial` is a queue together with the tickets of the pushes that succeeded.  Its steps name
a ticket by the order of those pushes, so that they can name a record that is long gone.  Each
step is answered with a reply and with what the queue looks like afterwards.  A step that breaks
a precondition is answered with the fault, and goes on with the queue that the operation left.
-/
import WorkerPool.Queue.Basic

namespace WorkerPool

/-- A step of a trial; its keys count the successful pushes. -/
inductive QueueStep (L : Type) where
  | push (label : L)
  | claim
  | finish (key : Nat)
  | join (key : Nat)
  | remove (key : Nat)
  | detach (key : Nat)
  | get (key : Nat)
  | limit
  /-- A step on a record that names none. -/
  | unkeyed
  /-- A request that makes no sense. -/
  | unknown
deriving DecidableEq, Repr

/-- What an observer sees of a record that is there. -/
structure Mark where
  status : Status
  joined : Bool
deriving DecidableEq, Repr

/-- What an observer sees of a record. -/
def Record.mark {J : Type} (r : Record J) : Mark := ⟨r.status, r.joined⟩

/-- The status by its first letter, and a `j` if the record is joined. -/
def Mark.text (m : Mark) : String :=
  (match m.status with
    | .queued => "Q"
    | .running => "R"
    | .finished => "F") ++ if m.joined then "j" else ""

/-- What a step is answered with. -/
inductive QueueReply (L : Type) where
  | pushed (number : Nat)
  /-- No record waits. -/
  | nothingQueued
  | claimed (number : Nat) (label : L)
  | finished (unlinked : Bool)
  | done
  | mark (m : Option Mark)
  | limit (n : Nat)
  | fault (f : QueueFault)
deriving DecidableEq, Repr

/-- A step that could not be tried. -/
inductive QueueRefusal where
  /-- The step names no push, or one that never happened. -/
  | noKey
  | badRequest
deriving DecidableEq, Repr

/-- A reply, and the queue after the step. -/
structure QueueAnswer (L : Type) where
  reply : QueueReply L
  size : Nat
  isEmpty : Bool
  isFull : Bool
  /-- For each push that succeeded, oldest first, what is seen of its record. -/
  marks : List (Option Mark)
deriving DecidableEq, Repr

/-- A queue, and the tickets of its successful pushes, in their order. -/
structure QueueTrial (S : Type → Type) (L : Type) where
  queue : Queue S L
  tickets : List Ticket

namespace QueueTrial

variable {S : Type → Type} [Slab S] {L : Type}

/-- A trial that has not begun. -/
def start (limit : Nat) : QueueTrial S L := ⟨.empty limit, []⟩

/-- What is seen of the record of a ticket. -/
def mark? (t : QueueTrial S L) (k : Ticket) : Option Mark := (t.queue.get? k).map (·.mark)

/-- The answer that shows the queue as it is. -/
def answer (t : QueueTrial S L) (reply : QueueReply L) : QueueAnswer L where
  reply
  size := t.queue.size
  isEmpty := t.queue.isEmpty
  isFull := t.queue.isFull
  marks := t.tickets.map t.mark?

/-- Replies with what an operation answered; the trial goes on with the queue that it left. -/
def settle {β : Type} (t : QueueTrial S L) (r : Except QueueFault β × Queue S L)
    (reply : β → QueueReply L) : QueueReply L × QueueTrial S L :=
  match r with
  | (.error fault, q) => (.fault fault, { t with queue := q })
  | (.ok b, q) => (reply b, { t with queue := q })

/-- The reply to a claim. -/
def claimReply : Option (Ticket × L) → QueueReply L
  | none => .nothingQueued
  | some (k, label) => .claimed k.number label

/-- One step on a push that succeeded. -/
def onKey (t : QueueTrial S L) (n : Nat)
    (f : Ticket → QueueReply L × QueueTrial S L) :
    Except QueueRefusal (QueueReply L × QueueTrial S L) :=
  match t.tickets[n]? with
  | none => .error .noKey
  | some k => .ok (f k)

/-- One step. -/
def step (t : QueueTrial S L) : QueueStep L → Except QueueRefusal (QueueReply L × QueueTrial S L)
  | .push label =>
    .ok <| match t.queue.push label with
      | (.error fault, q) => (.fault fault, { t with queue := q })
      | (.ok k, q) => (.pushed k.number, ⟨q, t.tickets ++ [k]⟩)
  | .claim => .ok (t.settle t.queue.claim claimReply)
  | .finish n => t.onKey n fun k => t.settle (t.queue.finish k) .finished
  | .join n => t.onKey n fun k => (.done, { t with queue := t.queue.join k })
  | .remove n => t.onKey n fun k => t.settle (t.queue.remove k) fun _ => .done
  | .detach n => t.onKey n fun k => (.done, { t with queue := t.queue.detach k })
  | .get n => t.onKey n fun k => (.mark (t.mark? k), t)
  | .limit => .ok (.limit t.queue.limit, t)
  | .unkeyed => .error .noKey
  | .unknown => .error .badRequest

/-- The answers to a list of steps. -/
def run (t : QueueTrial S L) : List (QueueStep L) → List (Except QueueRefusal (QueueAnswer L))
  | [] => []
  | s :: rest =>
    match t.step s with
    | .error e => .error e :: t.run rest
    | .ok (reply, t') => .ok (t'.answer reply) :: t'.run rest

end QueueTrial
end WorkerPool
