/-
# Pools without marks

Of all that is done to a pool, only a release asks whether a record was joined.  So the sections of
a pool do not read the marks of its records (`Pool.IgnoresMarks`): whether they are taken away
before a section or after it makes no difference.
-/
import WorkerPool.Proofs.Confluence.Pool

namespace WorkerPool

/-! ## 1. Queues -/

theorem Arena.map_insert {β : Type} (f : β → β) (a : Arena β) (b : β) :
    (a.insert b).map f = (a.map f).insert (f b) := by
  refine ext_get? (fun c => ?_) rfl rfl
  rw [get?_map, get?_insert, get?_insert, get?_map]
  show _ = if c = a.nextCell then _ else _
  split <;> rfl

namespace Queue

variable {J : Type} (q : Queue Arena J) (k : Ticket)

@[simp] theorem waiting_unmarked : q.unmarked.waiting = q.waiting := rfl

@[simp] theorem isFull_unmarked : q.unmarked.isFull = q.isFull := by
  rw [isFull, isFull, size_unmarked]
  rfl

@[simp] theorem isEmpty_unmarked : q.unmarked.isEmpty = q.isEmpty := by
  rw [isEmpty, isEmpty, size_unmarked]

theorem push_unmarked (job : J) :
    q.unmarked.push job = ((q.push job).1, (q.push job).2.unmarked) := by
  unfold push
  rw [isFull_unmarked]
  cases q.isFull with
  | true => rfl
  | false =>
    have hrecords := q.records.map_insert Record.unmark ⟨q.next, .queued, false, false, some job⟩
    exact congrArg (fun records : Arena (Record J) => (Except.ok _, { q with
      records, waiting := ⟨q.records.nextCell, q.next⟩ :: q.waiting, next := q.next + 1 }))
      hrecords.symm

theorem claim_unmarked : q.unmarked.claim = (q.claim.1, q.claim.2.unmarked) := by
  unfold claim
  rw [waiting_unmarked]
  cases q.waiting with
  | nil => rfl
  | cons k rest =>
    dsimp only
    rw [get?_unmarked]
    cases q.get? k with
    | none => rfl
    | some r =>
      dsimp only [Option.map_some, Record.unmark]
      split
      · have hrunning := unmarked_update (f := fun r : Record J =>
          { r with status := .running, job := none }) (fun _ => rfl) { q with waiting := rest } k
        cases r.job with
        | none => exact congrArg (Prod.mk _) hrunning.symm
        | some job => exact congrArg (Prod.mk _) hrunning.symm
      · rfl

theorem finish_unmarked : q.unmarked.finish k = ((q.finish k).1, (q.finish k).2.unmarked) := by
  unfold finish
  rw [get?_unmarked]
  cases q.get? k with
  | none => rfl
  | some r =>
    dsimp only [Option.map_some, Record.unmark]
    split
    · split
      · exact congrArg (Prod.mk _) (q.unmarked_unlink k).symm
      · have hupdate := unmarked_update (f := fun r : Record J => { r with status := .finished })
          (fun _ => rfl) q k
        exact congrArg (Prod.mk _) hupdate.symm
    · rfl

theorem remove_unmarked : q.unmarked.remove k = ((q.remove k).1, (q.remove k).2.unmarked) := by
  unfold remove
  rw [get?_unmarked]
  cases q.get? k with
  | none => rfl
  | some r =>
    dsimp only [Option.map_some, Record.unmark]
    split
    · exact congrArg (Prod.mk _) (q.unmarked_unlink k).symm
    · rfl

theorem detach_unmarked : q.unmarked.detach k = (q.detach k).unmarked := by
  unfold detach
  rw [get?_unmarked]
  cases q.get? k with
  | none => rfl
  | some r =>
    dsimp only [Option.map_some, Record.unmark]
    split
    · exact (q.unmarked_unlink k).symm
    · have hupdate := unmarked_update (f := fun r : Record J => { r with detached := true })
        (fun _ => rfl) q k
      exact hupdate.symm

end Queue

/-! ## 2. Sections -/

namespace Pool

variable {α : Type} {p q : Pool α} {f g : Pool α → Pool α}

/-- The pool as if nothing had been joined. -/
def unmarked (p : Pool α) : Pool α := { p with queue := p.queue.unmarked }

/-- What does not read the marks of the records, and does not change them. -/
def IgnoresMarks (f : Pool α → Pool α) : Prop := ∀ p, f p.unmarked = (f p).unmarked

@[simp] theorem queue_unmarked (p : Pool α) : p.unmarked.queue = p.queue.unmarked := rfl

@[simp] theorem plan_unmarked (p : Pool α) : p.unmarked.plan = p.plan := rfl

@[simp] theorem threads_unmarked (p : Pool α) : p.unmarked.threads = p.threads := rfl

@[simp] theorem isActive_unmarked (p : Pool α) : p.unmarked.isActive = p.isActive := rfl

@[simp] theorem wantsWorker_unmarked (p : Pool α) : p.unmarked.wantsWorker = p.wantsWorker := rfl

theorem unmarked_unmarked (p : Pool α) : p.unmarked.unmarked = p.unmarked := by
  have hrecords : (p.queue.records.map Record.unmark).map Record.unmark =
      p.queue.records.map Record.unmark := by
    refine Arena.ext_get? (fun c => ?_) rfl rfl
    rw [Arena.get?_map, Arena.get?_map, Option.map_map]
    rfl
  exact congrArg (fun records : Arena (Record Job) =>
    { p with queue := { p.queue with records } }) hrecords

/-- In a new pool there is nothing to mark. -/
theorem unmarked_create (id : String) (plan : Plan) :
    (create (α := α) id plan).unmarked = create id plan := by
  have hrecords : (Arena.empty : Arena (Record Job)).map Record.unmark = .empty := by
    refine Arena.ext_get? (fun c => ?_) rfl rfl
    rw [Arena.get?_map]
    rfl
  exact congrArg (fun records : Arena (Record Job) =>
    { create (α := α) id plan with queue := ⟨records, [], 0, plan.limit⟩ }) hrecords

theorem unmarked_join (p : Pool α) (k : Ticket) : (p.join k).unmarked = p.unmarked :=
  congrArg (fun q : Queue Arena Job => { p with queue := q }) (p.queue.unmarked_join k)

theorem IgnoresMarks.comp (hf : IgnoresMarks f) (hg : IgnoresMarks g) :
    IgnoresMarks fun p : Pool α => f (g p) :=
  fun p => (congrArg f (hg p)).trans (hf (g p))

theorem ignoresMarks_setPhase (w : Nat) (phase : Phase) :
    IgnoresMarks fun p : Pool α => p.setPhase w phase := fun _ => rfl

theorem ignoresMarks_note (n : PoolNote) : IgnoresMarks fun p : Pool α => p.note n := fun _ => rfl

theorem ignoresMarks_detach (k : Ticket) : IgnoresMarks fun p : Pool α => p.detach k :=
  fun p => congrArg (fun q : Queue Arena Job => { p with queue := q }) (p.queue.detach_unmarked k)

theorem ignoresMarks_unlink (k : Ticket) : IgnoresMarks fun p : Pool α => p.unlink k := by
  intro p
  simp only [unlink, unmarked, Queue.remove_unmarked]
  rcases p.queue.remove k with ⟨_ | _, _⟩ <;> rfl

theorem ignoresMarks_putResult (k : Ticket) (v : Value α) :
    IgnoresMarks fun p : Pool α => p.putResult k v := by
  intro p
  unfold putResult
  dsimp only [unmarked]
  split <;> rfl

theorem ignoresMarks_advance (w : Nat) : IgnoresMarks fun p : Pool α => p.advance w := by
  intro p
  simp only [advance, unmarked, Queue.claim_unmarked]
  rcases p.queue.claim with ⟨_ | _ | _, _⟩
  · rfl
  · show (if p.isActive then _ else _) = _
    cases p.isActive <;> rfl
  · rfl

theorem ignoresMarks_wake (w : Nat) : IgnoresMarks fun p : Pool α => p.wake w :=
  fun p => ignoresMarks_advance w { p with busy := p.busy + 1 }

theorem ignoresMarks_finish (w : Nat) (k : Ticket) :
    IgnoresMarks fun p : Pool α => p.finish w k := by
  intro p
  simp only [finish, unmarked, Queue.finish_unmarked]
  rcases p.queue.finish k with ⟨_ | unlinked, u⟩
  · rfl
  · exact ignoresMarks_advance w ({ p with queue := u }.note (.finished w k.number unlinked))

theorem ignoresMarks_awaitWorkers : IgnoresMarks (awaitWorkers (α := α)) := by
  intro p
  unfold awaitWorkers
  rw [threads_unmarked]
  split <;> rfl

theorem ignoresMarks_drop : IgnoresMarks (drop (α := α)) := by
  intro p
  unfold drop
  rw [isActive_unmarked, queue_unmarked, Queue.size_unmarked]
  split
  · rfl
  · rfl

/-- A shutdown answers the same, whatever was joined. -/
theorem shutdown_unmarked (p : Pool α) :
    p.unmarked.shutdown = (p.shutdown.1, p.shutdown.2.unmarked) := by
  unfold shutdown
  rw [queue_unmarked, Queue.isEmpty_unmarked, Queue.size_unmarked]
  split
  · let told : Pool α := { p with standing := .stopping false }.notifyWorkers
    exact Prod.ext rfl (ignoresMarks_awaitWorkers told)
  · rfl

theorem grow_unmarked (p : Pool α) (refusal : Option String) :
    p.unmarked.grow refusal = ((p.grow refusal).1, (p.grow refusal).2.unmarked) := by
  unfold grow
  rw [wantsWorker_unmarked]
  split
  · cases refusal with
    | none => rfl
    | some cause =>
      dsimp only
      rw [threads_unmarked]
      split <;> rfl
  · rfl

/-- A submission answers the same, whatever was joined. -/
theorem submit_unmarked (p : Pool α) (refusal : Option String) (job : Job) :
    p.unmarked.submit refusal job =
      ((p.submit refusal job).1, (p.submit refusal job).2.unmarked) := by
  unfold submit
  rw [grow_unmarked, queue_unmarked, Queue.isFull_unmarked]
  split
  · rfl
  · obtain ⟨_ | e, grown⟩ := p.grow refusal
    · dsimp only
      rw [queue_unmarked, Queue.push_unmarked]
      rcases grown.queue.push job with ⟨_ | _, _⟩ <;> rfl
    · rfl

end Pool
end WorkerPool
