/-
# Misuse of a record queue

Push, finish and remove have a precondition, and a trial may try them without it.  What then
happens is told by what is seen of the queue before the step (`complaint?_push`,
`complaint?_finish`, `complaint?_remove`), and it is only an answer: these three check before they
change anything, and the trial stays as it was (`eq_of_fault`).  So a list of steps can be cleared
of everything that was complained about (`lawful`) without any other answer noticing (`run_lawful`,
`after_lawful`).

The other steps are never complained about.  For a claim that takes the invariant of the queue:
its own three checks come after it has taken the head of the waiting tickets off, and ask that this
ticket has a record, that the record waits, and that it has its job.  No misuse before it can break
that.
-/
import WorkerPool.Proofs.QueueHistory

namespace WorkerPool
namespace QueueTrial

variable {S : Type → Type} [Slab S] {L : Type} {t t' : QueueTrial S L} {h : QueueHistory L}
  {limit : Nat} {s : QueueStep L} {f : QueueFault}

/-! ## 1. What is complained about -/

/-- The complaint that a step is answered with, if it breaks a precondition. -/
def complaint? (t : QueueTrial S L) (s : QueueStep L) : Option String :=
  match t.step s with
  | .ok (.fault f, _) => some f.message
  | _ => none

/-- A push is complained about exactly when there is no room. -/
theorem complaint?_push (t : QueueTrial S L) (label : L) :
    t.complaint? (.push label) =
      if t.queue.limit ≤ t.queue.size then some QueueFault.full.message else none := by
  by_cases hle : t.queue.limit ≤ t.queue.size <;>
    simp [complaint?, step, Queue.push_eq, Queue.isFull, hle]

/-- A finish is complained about exactly when the record does not run. -/
theorem complaint?_finish {n : Nat} {k : Ticket} (hk : t.tickets[n]? = some k) :
    t.complaint? (.finish n) =
      match t.queue.get? k with
      | none => some QueueFault.runningGone.message
      | some r => if r.status = .running then none else some QueueFault.finishedTwice.message := by
  simp only [complaint?, step, onKey, hk]
  cases hr : t.queue.get? k with
  | none => simp [Queue.finish, hr, settle]
  | some r =>
    by_cases hs : r.status = .running
    · simp [Queue.finish_running hr hs, hs, settle]
    · simp [Queue.finish, hr, hs, settle]

/-- A removal is complained about exactly when there is a record that has not finished. -/
theorem complaint?_remove {n : Nat} {k : Ticket} (hk : t.tickets[n]? = some k) :
    t.complaint? (.remove n) =
      match t.queue.get? k with
      | none => none
      | some r =>
        if r.status = .finished then none else some QueueFault.removedUnfinished.message := by
  simp only [complaint?, step, onKey, hk]
  cases hr : t.queue.get? k with
  | none => simp [Queue.remove, hr, settle]
  | some r =>
    by_cases hs : r.status = .finished
    · simp [Queue.remove_finished hr hs, hs, settle]
    · simp [Queue.remove, hr, hs, settle]

/-- The head of the waiting tickets of a sound queue has a record that waits with its job. -/
theorem complaint?_claim (hq : t.queue.Sound) : t.complaint? .claim = none := by
  rcases hq.claim with ⟨-, hc⟩ | ⟨k, rest, r, label, -, -, -, -, hc⟩ <;>
    simp [complaint?, step, hc, settle, claimReply]

/-- Joining, detaching and looking have no precondition. -/
theorem complaint?_onKey (hs : ∀ n, s ≠ .finish n ∧ s ≠ .remove n) {n : Nat}
    (hn : s.key? = some n) : t.complaint? s = none := by
  cases s with
  | finish m => exact absurd rfl (hs m).1
  | remove m => exact absurd rfl (hs m).2
  | join m => cases hk : t.tickets[m]? <;> simp [complaint?, step, onKey, hk]
  | detach m => cases hk : t.tickets[m]? <;> simp [complaint?, step, onKey, hk]
  | get m => cases hk : t.tickets[m]? <;> simp [complaint?, step, onKey, hk]
  | _ => exact absurd hn (by simp [QueueStep.key?])

/-! ## 2. What a complaint leaves -/

/-- A push, a finish and a removal check before they change anything. -/
theorem eq_of_push_fault {q : Queue S L} {label : L} (h : (q.push label).1 = .error f) :
    (q.push label).2 = q := by
  rw [Queue.push_eq] at h ⊢
  cases hfull : q.isFull with
  | true => simp
  | false => simp [hfull] at h

theorem eq_of_finish_fault {q : Queue S L} {k : Ticket} (h : (q.finish k).1 = .error f) :
    (q.finish k).2 = q := by
  cases hr : q.get? k with
  | none => simp [Queue.finish, hr]
  | some r =>
    by_cases hs : r.status = .running
    · simp [Queue.finish_running hr hs] at h
    · simp [Queue.finish, hr, hs]

theorem eq_of_remove_fault {q : Queue S L} {k : Ticket} (h : (q.remove k).1 = .error f) :
    (q.remove k).2 = q := by
  cases hr : q.get? k with
  | none => simp [Queue.remove, hr]
  | some r =>
    by_cases hs : r.status = .finished
    · simp [Queue.remove_finished hr hs] at h
    · simp [Queue.remove, hr, hs]

/-- A claim has taken its ticket off before it checks, but none of its checks fails. -/
theorem claim_ne_fault {q : Queue S L} (hq : q.Sound) : q.claim.1 ≠ .error f := by
  rcases hq.claim with ⟨-, hc⟩ | ⟨k, rest, r, label, -, -, -, -, hc⟩ <;> simp [hc]

omit [Slab S] in
/-- What is answered with a fault is a fault of the operation. -/
theorem eq_of_settle_fault {β : Type} {r : Except QueueFault β × Queue S L}
    {reply : β → QueueReply L} (hreply : ∀ b, reply b ≠ .fault f)
    (hr : r.1 = .error f → r.2 = t.queue) (h : t.settle r reply = (.fault f, t')) : t' = t := by
  obtain ⟨e | b, q⟩ := r
  · obtain ⟨rfl, rfl⟩ : e = f ∧ { t with queue := q } = t' := by simpa [settle] using h
    obtain rfl : q = t.queue := hr rfl
    rfl
  · exact absurd (congrArg Prod.fst h) (hreply b)

/-- **A step that is complained about changes nothing.** -/
theorem eq_of_fault (hq : t.queue.Sound) (h : t.step s = .ok (.fault f, t')) : t' = t := by
  have onKey_cases {n : Nat} {g : Ticket → QueueReply L × QueueTrial S L}
      (h : t.onKey n g = .ok (.fault f, t')) : ∃ k, g k = (.fault f, t') := by
    unfold onKey at h
    split at h
    · exact absurd h (by simp)
    · next k _ => exact ⟨k, Except.ok.inj h⟩
  cases s with
  | push label =>
    have hfault := Except.ok.inj h
    have hpush : (t.queue.push label).1 = .error f → (t.queue.push label).2 = t.queue :=
      eq_of_push_fault
    rcases hr : t.queue.push label with ⟨e | k, q⟩
    · rw [hr] at hfault hpush
      obtain ⟨rfl, rfl⟩ : e = f ∧ { t with queue := q } = t' := by simpa using hfault
      obtain rfl : q = t.queue := hpush rfl
      rfl
    · rw [hr] at hfault
      exact absurd (congrArg Prod.fst hfault) (by simp)
  | claim =>
    refine eq_of_settle_fault (fun b => ?_) (fun hf => absurd hf (claim_ne_fault hq))
      (Except.ok.inj h)
    rcases b with _ | ⟨k, label⟩ <;> simp [claimReply]
  | finish n =>
    obtain ⟨k, h⟩ := onKey_cases h
    exact eq_of_settle_fault (fun b => by simp) eq_of_finish_fault h
  | remove n =>
    obtain ⟨k, h⟩ := onKey_cases h
    exact eq_of_settle_fault (fun b => by simp) eq_of_remove_fault h
  | join n =>
    obtain ⟨k, h⟩ := onKey_cases h
    exact absurd (congrArg Prod.fst h) (by simp)
  | detach n =>
    obtain ⟨k, h⟩ := onKey_cases h
    exact absurd (congrArg Prod.fst h) (by simp)
  | get n =>
    obtain ⟨k, h⟩ := onKey_cases h
    exact absurd (congrArg Prod.fst h) (by simp)
  | limit => exact absurd (congrArg Prod.fst (Except.ok.inj h)) (by simp)
  | unkeyed => exact absurd h (by simp [step])
  | unknown => exact absurd h (by simp [step])

/-! ## 3. Lists of steps cleared of misuse -/

/-- The steps of a list that are not complained about when their turn comes. -/
def lawful (t : QueueTrial S L) : List (QueueStep L) → List (QueueStep L)
  | [] => []
  | s :: rest =>
    match t.step s with
    | .error _ => s :: t.lawful rest
    | .ok (.fault _, t') => t'.lawful rest
    | .ok (_, t') => s :: t'.lawful rest

/-- Whether an answer is a complaint. -/
def isComplaint (a : Except QueueRefusal (QueueAnswer L)) : Bool :=
  match a with
  | .ok ⟨.fault _, _, _, _, _⟩ => true
  | _ => false

theorem isComplaint_answer (t : QueueTrial S L) (reply : QueueReply L) :
    isComplaint (.ok (t.answer reply)) = true ↔ ∃ f, reply = .fault f := by
  cases reply <;> simp [isComplaint, answer]

/-- The first step of a list is refused, complained about or carried out. -/
theorem lawful_cons (ht : Tells limit t h) (s : QueueStep L) (rest : List (QueueStep L)) :
    (∃ e, t.step s = .error e ∧ t.lawful (s :: rest) = s :: t.lawful rest) ∨
    (∃ f, t.step s = .ok (.fault f, t) ∧ t.lawful (s :: rest) = t.lawful rest) ∨
    ∃ reply t' h', t.step s = .ok (reply, t') ∧ (∀ f, reply ≠ .fault f) ∧ Tells limit t' h' ∧
      t.lawful (s :: rest) = s :: t'.lawful rest := by
  cases ht.step s with
  | @refused e hs _ => exact Or.inl ⟨e, hs, by simp [lawful, hs]⟩
  | replied reply t' hs _ ht' =>
    by_cases hf : ∃ f, reply = .fault f
    · obtain ⟨f, rfl⟩ := hf
      obtain rfl := eq_of_fault ht.sound hs
      exact Or.inr (Or.inl ⟨f, hs, by simp [lawful, hs]⟩)
    · refine Or.inr (Or.inr ⟨reply, t', _, hs, fun f hr => hf ⟨f, hr⟩, ht', ?_⟩)
      cases reply <;> simp_all [lawful]

/-- Without the misuse, the other answers are the same. -/
theorem run_lawful (ht : Tells limit t h) (steps : List (QueueStep L)) :
    t.run (t.lawful steps) = (t.run steps).filter fun a => !isComplaint a := by
  induction steps generalizing t h with
  | nil => rfl
  | cons s rest ih =>
    rcases lawful_cons ht s rest with
      ⟨e, hs, hl⟩ | ⟨f, hs, hl⟩ | ⟨reply, t', h', hs, hr, ht', hl⟩
    · rw [hl]
      simp only [run, hs]
      rw [List.filter_cons_of_pos rfl, ih ht]
    · rw [hl, ih ht]
      simp only [run, hs]
      rw [List.filter_cons_of_neg (by simp [isComplaint_answer])]
    · rw [hl]
      simp only [run, hs]
      have hkeep : isComplaint (.ok (t'.answer reply)) = false := by
        rw [Bool.eq_false_iff, ne_eq, isComplaint_answer]
        rintro ⟨f, hf⟩
        exact hr f hf
      rw [List.filter_cons_of_pos (by simp [hkeep]), ih ht']

/-- Without the misuse, the trial comes to the same end: the same records, the same tickets. -/
theorem after_lawful (ht : Tells limit t h) (steps : List (QueueStep L)) :
    t.after (t.lawful steps) = t.after steps := by
  induction steps generalizing t h with
  | nil => rfl
  | cons s rest ih =>
    rcases lawful_cons ht s rest with
      ⟨e, hs, hl⟩ | ⟨f, hs, hl⟩ | ⟨reply, t', h', hs, -, ht', hl⟩
    · rw [hl]
      simp only [after, hs, ih ht]
    · rw [hl]
      simp only [after, hs, ih ht]
    · rw [hl]
      simp only [after, hs, ih ht']

/-! ## 4. The law -/

/-- **Misuse of a record queue is caught and harmless.**  Whatever steps were tried before, a push
is complained about exactly when there is no room; a finish exactly when the record does
not run, and the words tell a record that is gone from one that waits or has finished; a removal
exactly when there is a record that has not finished; and nothing else ever.  A complaint changes
nothing, and a list of steps that is cleared of all that was complained about gives the other
answers as they were, with the same tickets and the same records at the end. -/
theorem misuse_is_harmless (limit : Nat) (steps : List (QueueStep L)) :
    let t := (start limit : QueueTrial S L).after steps
    (∀ label m, t.complaint? (.push label) = some m ↔
      m = "assertion failed: !self.is_full()" ∧ limit ≤ t.queue.size) ∧
    (∀ n k, t.tickets[n]? = some k → ∀ m, t.complaint? (.finish n) = some m ↔
      m = "running record must stay linked until it finishes" ∧ t.queue.status? k = none ∨
      m = "record finished twice" ∧
        (t.queue.status? k = some .queued ∨ t.queue.status? k = some .finished)) ∧
    (∀ n k, t.tickets[n]? = some k → ∀ m, t.complaint? (.remove n) = some m ↔
      m = "assertion `left == right` failed" ∧
        (t.queue.status? k = some .queued ∨ t.queue.status? k = some .running)) ∧
    t.complaint? .claim = none ∧
    (∀ n, t.complaint? (.join n) = none ∧ t.complaint? (.detach n) = none ∧
      t.complaint? (.get n) = none) ∧
    (∀ s f t', t.step s = .ok (.fault f, t') → t' = t) ∧
    (start limit : QueueTrial S L).run ((start limit : QueueTrial S L).lawful steps) =
      ((start limit : QueueTrial S L).run steps).filter (fun a => !isComplaint a) ∧
    (start limit).after ((start limit : QueueTrial S L).lawful steps) = t := by
  intro t
  have ht : Tells limit t _ := (Tells.start limit).after steps
  refine ⟨fun label m => ?_, fun n k hk m => ?_, fun n k hk m => ?_, complaint?_claim ht.sound,
    fun n => ⟨?_, ?_, ?_⟩, fun s f t' => eq_of_fault ht.sound,
    run_lawful (.start limit) steps, after_lawful (.start limit) steps⟩
  · rw [complaint?_push, ht.limit_eq]
    split <;> simp_all [QueueFault.message, eq_comm]
  · rw [complaint?_finish hk, Queue.status?]
    cases t.queue.get? k with
    | none => simp [QueueFault.message, eq_comm]
    | some r => cases hs : r.status <;> simp [hs, QueueFault.message, eq_comm]
  · rw [complaint?_remove hk, Queue.status?]
    cases t.queue.get? k with
    | none => simp
    | some r => cases hs : r.status <;> simp [hs, QueueFault.message, eq_comm]
  all_goals exact complaint?_onKey (fun m => by simp) rfl

/-- Five complaints about one record, before its claim, before its finish and after its removal. -/
theorem misused_record_is_unharmed :
    let steps : List (QueueStep String) := [.push "only", .finish 0, .push "more", .claim,
      .remove 0, .finish 0, .finish 0, .remove 0, .finish 0]
    let t := (start 1 : QueueTrial Arena String).after steps
    t.tickets[0]? = some ⟨0, 0⟩ ∧
    t.complaint? (.finish 0) = some "running record must stay linked until it finishes" ∧
    t.complaint? (.remove 0) = none ∧
    (start 1).lawful steps = [.push "only", .claim, .finish 0, .remove 0] ∧
    (start 1).run [.push "only", .claim, .finish 0, .remove 0] =
      ((start 1).run steps).filter (fun a => !isComplaint a) := by
  intro steps t
  obtain ⟨-, hfinish, hremove, -, -, -, hrun, -⟩ :=
    misuse_is_harmless (S := Arena) (L := String) 1 steps
  have hticket : t.tickets[0]? = some ⟨0, 0⟩ := by decide
  have hgone : t.queue.status? ⟨0, 0⟩ = none := by decide
  have hlawful : (start 1).lawful steps = [.push "only", .claim, .finish 0, .remove 0] := by decide
  refine ⟨hticket, (hfinish 0 _ hticket _).mpr (Or.inl ⟨rfl, hgone⟩), ?_, hlawful, ?_⟩
  · refine Option.eq_none_iff_forall_ne_some.mpr fun m hm => ?_
    obtain ⟨-, hs | hs⟩ := (hremove 0 _ hticket m).mp hm <;>
      exact absurd (hgone.symm.trans hs) (by simp)
  · rw [← hlawful]
    exact hrun

end QueueTrial
end WorkerPool
