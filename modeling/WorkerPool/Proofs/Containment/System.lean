/-
# A panic in one of two runs

Two runs differ in one thing: in the second, one run of one task panics where it would return a
value.  A `Mishap` says how far that has changed the second run: not at all, until the body of that
run ends; from then on the pool of its submission has no result for it, has noted a panic, and has
reported it if it has a handler.  `Mishap.Apart` says that two systems differ by no more than that.

Whatever is done to both, answers the same and leaves them apart by the same mishap, except that
joins of the one submission answer that its body panicked (`Mishap.reads`).
-/
import WorkerPool.Proofs.SideBySide
import WorkerPool.Proofs.Containment.Pool

namespace WorkerPool

/-! ## 1. The mishap -/

/-- Whether a body submits a task, on some runs. -/
def Kind.isSubmit {α : Type} : Kind α → Bool
  | .submit .. => true
  | _ => false

/-- The set of runs with one more. -/
def RunSet.insert : RunSet → Nat → RunSet
  | .never, n => .only [n]
  | .always, _ => .always
  | .only runs, n => .only (n :: runs)

theorem RunSet.has_insert (runs : RunSet) (n m : Nat) :
    (runs.insert n).has m = (m == n || runs.has m) := by
  rw [Bool.eq_iff_iff]
  cases runs <;> simp [insert, has]

/-- The body, if it panics at the end of one more run. -/
def Body.panickingAt {α : Type} (b : Body α) (run : Nat) : Body α :=
  { b with panics := b.panics.insert run }

/-- The task, if one more run of it panics. -/
def Task.panickingAt {α : Type} (run : Nat) (t : Task α) : Task α :=
  { t with body := t.body.panickingAt run }

/-- How far one more panic has changed a run. -/
structure Mishap (α : Type) where
  /-- The run that panics in the second run only. -/
  task : Nat
  run : Nat
  /-- The submission that it was the run of, once its body has ended. -/
  site : Option Submission
  /-- What the pool of that submission had noted then, in the first run and in the second. -/
  poolNotes : List PoolNote × List PoolNote
  /-- What had happened by then. -/
  events : List (Event α) × List (Event α)

namespace Mishap

variable {α : Type} (m : Mishap α)

/-- The number of the submission that has no result in the second run, if it is one of pool `i`. -/
def lost (i : Nat) : Option Nat :=
  m.site.bind fun x => if x.pool = i then some x.ticket.number else none

/-- What pool `i` had noted when the body ended. -/
def notesOf (i : Nat) : List PoolNote × List PoolNote :=
  if (m.lost i).isSome then m.poolNotes else ([], [])

/-- What the second run reads where the first has the answer of a submission. -/
def reads (x : Submission) (answer : Except Failure (Value α)) : Except Failure (Value α) :=
  if m.lost x.pool = some x.ticket.number then .error .taskPanicked else answer

/-- How a join reads its answer: an error is the same in both runs. -/
def rereads (x : Submission) : Except Failure (Value α) → Except Failure (Value α)
  | .ok v => m.reads x (.ok v)
  | .error e => .error e

/-- Pool `i` of the two runs. -/
inductive Pools (i : Nat) : Pool α → Pool α → Prop where
  | mk (r : Pool α) (h : ∀ n, m.lost i = some n → (r.results[n]?).isSome) :
      Pools i (r.older (m.notesOf i).1) ((r.without (m.lost i)).older (m.notesOf i).2)

/-- The first system is apart from the second by no more than the mishap. -/
structure Apart (s t : System α) : Prop where
  pools : ∀ i : Nat, Option.Rel (m.Pools i) s.pools[i]? t.pools[i]?
  /-- The submission belongs to a pool that is there. -/
  fresh : ∀ i, s.pools.length ≤ i → m.lost i = none
  /-- In the first run, the body gives a value at the end of the run, and submits nothing. -/
  target : ∃ b : Task α, s.tasks[m.task]? = some b ∧ b.body.panics.has m.run = false ∧
    b.body.kind.isSubmit = false
  tasks : t.tasks = s.tasks.modify m.task (Task.panickingAt m.run)
  joiners : t.joiners = s.joiners.map (·.reread m.rereads)
  events : ∃ new, s.events = new ++ m.events.1 ∧ t.events = new ++ m.events.2
  journal : s.journal = t.journal
  clock : s.clock = t.clock
  refusal : s.refusal = t.refusal
  processors : s.processors = t.processors

variable {m}

theorem notesOf_of_lost {i : Nat} (h : m.lost i = none) : m.notesOf i = ([], []) := by
  rw [notesOf, h]
  rfl

/-! ## 2. Pools and tasks of both -/

namespace Pools

variable {i : Nat} {p q : Pool α}

/-- What reads neither the journal nor the results gives the same in both. -/
theorem read {β : Type} (h : m.Pools i p q) {g : Pool α → β}
    (hnotes : ∀ (r : Pool α) notes, g (r.older notes) = g r)
    (hresults : ∀ (r : Pool α) results, g (r.withResults results) = g r) : g p = g q := by
  have hwithout (r : Pool α) (n? : Option Nat) : g (r.without n?) = g r := by
    cases n? with
    | none => rfl
    | some n => exact hresults r _
  cases h with
  | mk r _ => rw [hnotes, hnotes, hwithout]

theorem id_eq (h : m.Pools i p q) : p.id = q.id := h.read (fun _ _ => rfl) fun _ _ => rfl

theorem plan_eq (h : m.Pools i p q) : p.plan = q.plan := h.read (fun _ _ => rfl) fun _ _ => rfl

theorem queue_eq (h : m.Pools i p q) : p.queue = q.queue := h.read (fun _ _ => rfl) fun _ _ => rfl

theorem workers_eq (h : m.Pools i p q) : p.workers = q.workers :=
  h.read (fun _ _ => rfl) fun _ _ => rfl

theorem standing_eq (h : m.Pools i p q) : p.standing = q.standing :=
  h.read (fun _ _ => rfl) fun _ _ => rfl

theorem face_eq (h : m.Pools i p q) : p.face = q.face := h.read (fun _ _ => rfl) fun _ _ => rfl

theorem blockedRuns_eq (h : m.Pools i p q) (a : Nat) : p.blockedRuns a = q.blockedRuns a :=
  h.read (g := (·.blockedRuns a)) (fun _ _ => rfl) fun _ _ => rfl

theorem workerName_eq (h : m.Pools i p q) (w : Nat) : p.workerName w = q.workerName w :=
  h.read (g := (·.workerName w)) (fun _ _ => rfl) fun _ _ => rfl

theorem outcome_eq (h : m.Pools i p q) (k : Ticket) :
    q.outcome k = m.reads ⟨i, k⟩ (p.outcome k) := by
  cases h with
  | mk r _ => exact r.outcome_without (m.lost i) k

/-- A section that neither reads the journal nor has to do with results. -/
theorem map (h : m.Pools i p q) {f : Pool α → Pool α} (hf : Pool.Blind f)
    (hf' : Pool.Heedless f) : m.Pools i (f p) (f q) := by
  cases h with
  | mk r hr =>
    rw [hf, hf, hf'.without]
    exact .mk (f r) fun n hn => by rw [hf'.results_eq]; exact hr n hn

theorem submit (h : m.Pools i p q) (refusal : Option String) (job : Job) :
    (p.submit refusal job).1 = (q.submit refusal job).1 ∧
      m.Pools i (p.submit refusal job).2 (q.submit refusal job).2 := by
  cases h with
  | mk r hr =>
    have hsubmit := r.reply_without (f := fun r => r.submit refusal job)
      (fun p results => p.submit_withResults results refusal job) (m.lost i)
    have hresults : (r.submit refusal job).2.results = r.results := by
      have hsame := r.submit_withResults r.results refusal job
      exact congrArg (fun reply : Except Failure Ticket × Pool α => reply.2.results) hsame
    rw [Pool.submit_older, Pool.submit_older, hsubmit]
    exact ⟨rfl, .mk _ fun n hn => by rw [hresults]; exact hr n hn⟩

theorem shutdown (h : m.Pools i p q) :
    p.shutdown.1 = q.shutdown.1 ∧ m.Pools i p.shutdown.2 q.shutdown.2 := by
  cases h with
  | mk r hr =>
    have hshutdown := r.reply_without (f := Pool.shutdown) Pool.shutdown_withResults (m.lost i)
    have hresults : r.shutdown.2.results = r.results :=
      congrArg (fun reply : Option Failure × Pool α => reply.2.results)
        (r.shutdown_withResults r.results)
    rw [Pool.shutdown_older, Pool.shutdown_older, hshutdown]
    exact ⟨rfl, .mk _ fun n hn => by rw [hresults]; exact hr n hn⟩

/-- The result of another submission. -/
theorem putResult (h : m.Pools i p q) {k : Ticket} (hk : m.lost i ≠ some k.number)
    (v : Value α) : m.Pools i (p.putResult k v) (q.putResult k v) := by
  cases h with
  | mk r hr =>
    have hnotes (r : Pool α) notes :
        (r.older notes).putResult k v = (r.putResult k v).older notes :=
      Pool.blind_putResult k v r notes
    rw [hnotes, hnotes, r.putResult_without hk]
    refine .mk _ fun n hn => ?_
    have hne : k.number ≠ n := fun he => hk (he ▸ hn)
    unfold Pool.putResult
    split
    · exact hr n hn
    · show ((r.results.insert k.number v)[n]?).isSome = true
      rw [Std.ExtTreeMap.getElem?_insert]
      simp only [Nat.compare_eq_eq, if_neg hne]
      exact hr n hn

end Pools

namespace Apart

variable {s t : System α}

theorem pool_cases (h : m.Apart s t) (i : Nat) :
    s.pools[i]? = none ∧ t.pools[i]? = none ∨
      ∃ p q, s.pools[i]? = some p ∧ t.pools[i]? = some q ∧ m.Pools i p q :=
  rel_cases (h.pools i)

theorem map_pools {β : Type} (h : m.Apart s t) {f : Pool α → β}
    (hf : ∀ {i p q}, m.Pools i p q → f p = f q) : s.pools.map f = t.pools.map f :=
  map_eq_of_rel h.pools fun _ _ _ => hf

theorem length_pools (h : m.Apart s t) : s.pools.length = t.pools.length :=
  length_eq_of_rel h.pools

theorem task_eq (h : m.Apart s t) (a : Nat) :
    t.tasks[a]? = if a = m.task then s.tasks[a]?.map (Task.panickingAt m.run) else s.tasks[a]? := by
  rw [h.tasks, List.getElem?_modify]
  by_cases ha : a = m.task
  · rw [if_pos ha, ha]
    simp
  · rw [if_neg ha]
    simp [Ne.symm ha]

/-- A task of the second system, beside the same task of the first. -/
theorem task_cases (h : m.Apart s t) (a : Nat) :
    s.tasks[a]? = none ∧ t.tasks[a]? = none ∨
      ∃ b b', s.tasks[a]? = some b ∧ t.tasks[a]? = some b' ∧
        b' = if a = m.task then b.panickingAt m.run else b := by
  rw [h.task_eq]
  cases hb : s.tasks[a]? with
  | none => exact Or.inl ⟨rfl, by split <;> rfl⟩
  | some b => exact Or.inr ⟨b, _, rfl, by split <;> rfl, rfl⟩

theorem map_tasks {β : Type} (h : m.Apart s t) {f : Task α → β}
    (hf : ∀ b, f (Task.panickingAt m.run b) = f b) : t.tasks.map f = s.tasks.map f := by
  refine List.ext_getElem? fun a => ?_
  rw [List.getElem?_map, List.getElem?_map]
  rcases h.task_cases a with ⟨hb, hb'⟩ | ⟨b, b', hb, hb', rfl⟩ <;> rw [hb, hb']
  split
  · exact congrArg some (hf b)
  · rfl

theorem record?_eq (h : m.Apart s t) (x : Submission) : s.record? x = t.record? x := by
  unfold System.record?
  rcases h.pool_cases x.pool with ⟨hp, hq⟩ | ⟨p, q, hp, hq, hpools⟩ <;> rw [hp, hq]
  show p.queue.get? _ = q.queue.get? _
  rw [hpools.queue_eq]

theorem isSpent_eq (h : m.Apart s t) (x : Submission) : s.isSpent x = t.isSpent x := by
  unfold System.isSpent
  rcases h.pool_cases x.pool with ⟨hp, hq⟩ | ⟨p, q, hp, hq, hpools⟩ <;> rw [hp, hq]
  show p.queue.isSpent _ = q.queue.isSpent _
  rw [hpools.queue_eq]

theorem outcome_eq (h : m.Apart s t) (x : Submission) :
    t.outcome x = m.rereads x (s.outcome x) := by
  unfold System.outcome
  rcases h.pool_cases x.pool with ⟨hp, hq⟩ | ⟨p, q, hp, hq, hpools⟩ <;> rw [hp, hq]
  · rfl
  dsimp only
  rw [hpools.outcome_eq]
  cases he : p.outcome x.ticket with
  | ok v => rfl
  | error e =>
    -- a body that left no result has panicked in both
    have hpanicked : e = .taskPanicked := by
      unfold Pool.outcome at he
      split at he
      · cases he
      · exact (Except.error.inj he).symm
    show m.reads x (.error e) = .error e
    rw [reads, hpanicked]
    split <;> rfl

theorem alike (h : m.Apart s t) : s.Alike t where
  pools := h.map_pools Pools.face_eq
  tasks := (h.map_tasks fun _ => rfl).symm
  status x := by rw [h.record?_eq]
  blocked a := by
    rw [System.blockedRuns, System.blockedRuns, List.flatMap_def, List.flatMap_def,
      h.map_pools fun hpools => hpools.blockedRuns_eq a]
  clock := h.clock
  processors := h.processors

end Apart
end Mishap
end WorkerPool
