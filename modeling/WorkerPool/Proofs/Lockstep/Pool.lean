/-
# Two pools that do the same

Runs are compared pool by pool.  There are two ways in which a pool of one run is beside the same
pool of another:

* it is the same but for what was noted before the comparison began (`Pool.older`).  No section of
  a pool reads the journal (`Blind`), so whatever is done to both, they stay like that, and note
  the same from then on;
* it was dropped, and the other was not (`DroppedTwin`).  Its workers have left where those of the
  other wait for work, and its counters differ by that; the records and the bodies under way
  are the same.  A pool that nobody submits to any more tells no worker to look, so the two stay
  like that, too: a worker that finds nothing to run leaves the one and waits in the other.
-/
import WorkerPool.Proofs.Sections
import WorkerPool.Proofs.Frames

namespace WorkerPool

namespace Pool

variable {α : Type} {p q : Pool α} {f g : Pool α → Pool α}

/-! ## 1. What was noted before -/

/-- The pool, had it noted `notes` before anything else. -/
def older (p : Pool α) (notes : List PoolNote) : Pool α := { p with journal := p.journal ++ notes }

@[simp] theorem queue_older (p : Pool α) (notes : List PoolNote) :
    (p.older notes).queue = p.queue := rfl

@[simp] theorem results_older (p : Pool α) (notes : List PoolNote) :
    (p.older notes).results = p.results := rfl

@[simp] theorem isActive_older (p : Pool α) (notes : List PoolNote) :
    (p.older notes).isActive = p.isActive := rfl

/-- What does not read the journal, and adds to it at its front. -/
def Blind (f : Pool α → Pool α) : Prop := ∀ p notes, f (older p notes) = (f p).older notes

theorem Blind.comp (hf : Blind f) (hg : Blind g) : Blind fun p : Pool α => f (g p) :=
  fun p notes => (congrArg f (hg p notes)).trans (hf (g p) notes)

theorem blind_setPhase (w : Nat) (phase : Phase) : Blind fun p : Pool α => p.setPhase w phase :=
  fun _ _ => rfl

theorem blind_note (n : PoolNote) : Blind fun p : Pool α => p.note n := fun _ _ => rfl

theorem blind_join (k : Ticket) : Blind fun p : Pool α => p.join k := fun _ _ => rfl

theorem blind_detach (k : Ticket) : Blind fun p : Pool α => p.detach k := fun _ _ => rfl

theorem blind_mapWorkers (f : Phase → Phase) :
    Blind fun p : Pool α => { p with workers := p.workers.map f } :=
  fun _ _ => rfl

theorem blind_unlink (k : Ticket) : Blind fun p : Pool α => p.unlink k := by
  intro p notes
  show (p.older notes).unlink k = (p.unlink k).older notes
  unfold unlink
  rw [queue_older]
  rcases p.queue.remove k with ⟨_ | _, _⟩ <;> rfl

theorem blind_putResult (k : Ticket) (v : Value α) : Blind fun p : Pool α => p.putResult k v := by
  intro p notes
  show (p.older notes).putResult k v = (p.putResult k v).older notes
  unfold putResult
  rw [results_older]
  cases p.results.contains k.number <;> rfl

theorem blind_advance (w : Nat) : Blind fun p : Pool α => p.advance w := by
  intro p notes
  show (p.older notes).advance w = (p.advance w).older notes
  unfold advance
  rw [queue_older]
  rcases p.queue.claim with ⟨_ | _ | _, u⟩
  · rfl
  · show (if p.isActive then _ else _) = older (if p.isActive then _ else _) notes
    cases p.isActive <;> rfl
  · rfl

theorem blind_wake (w : Nat) : Blind fun p : Pool α => p.wake w :=
  fun p notes => blind_advance w { p with busy := p.busy + 1 } notes

theorem blind_finish (w : Nat) (k : Ticket) : Blind fun p : Pool α => p.finish w k := by
  intro p notes
  show (p.older notes).finish w k = (p.finish w k).older notes
  unfold finish
  rw [queue_older]
  rcases p.queue.finish k with ⟨_ | unlinked, u⟩
  · rfl
  · exact blind_advance w ({ p with queue := u }.note (.finished w k.number unlinked)) notes

theorem blind_awaitWorkers : Blind (awaitWorkers (α := α)) := by
  intro p notes
  unfold awaitWorkers
  by_cases h : p.threads = 0
  · rw [if_pos h, if_pos (show (p.older notes).threads = 0 from h)]
    rfl
  · rw [if_neg h, if_neg (show ¬(p.older notes).threads = 0 from h)]
    rfl

theorem blind_drop : Blind (drop (α := α)) := by
  intro p notes
  unfold drop
  rw [isActive_older]
  cases p.isActive <;> rfl

/-- A shutdown answers the same, whatever was noted. -/
theorem shutdown_older (p : Pool α) (notes : List PoolNote) :
    (p.older notes).shutdown = (p.shutdown.1, p.shutdown.2.older notes) := by
  unfold shutdown
  rw [queue_older]
  cases p.queue.isEmpty with
  | true =>
    let told : Pool α := { p with standing := .stopping false }.notifyWorkers
    exact Prod.ext rfl (blind_awaitWorkers told notes)
  | false => rfl

theorem grow_older (p : Pool α) (notes : List PoolNote) (refusal : Option String) :
    (p.older notes).grow refusal = ((p.grow refusal).1, (p.grow refusal).2.older notes) := by
  unfold grow
  rw [show (p.older notes).wantsWorker = p.wantsWorker from rfl]
  cases p.wantsWorker with
  | false => rfl
  | true =>
    cases refusal with
    | none => rfl
    | some cause =>
      by_cases h : 0 < p.threads
      · simp only [if_true, if_pos h, if_pos (show 0 < (p.older notes).threads from h)]
        rfl
      · simp only [if_true, if_neg h, if_neg (show ¬0 < (p.older notes).threads from h)]
        rfl

/-- A submission answers the same, whatever was noted. -/
theorem submit_older (p : Pool α) (notes : List PoolNote) (refusal : Option String) (job : Job) :
    (p.older notes).submit refusal job =
      ((p.submit refusal job).1, (p.submit refusal job).2.older notes) := by
  unfold submit
  rw [queue_older, grow_older]
  cases p.queue.isFull with
  | true => rfl
  | false =>
    obtain ⟨_ | e, grown⟩ := p.grow refusal
    · simp only [queue_older]
      rcases grown.queue.push job with ⟨_ | _, _⟩ <;> rfl
    · rfl

end Pool

/-! ## 2. A pool that was dropped, beside the same pool in use -/

/-- Where a worker of the dropped pool is, and where it is in the other. -/
inductive Phase.Beside : Phase → Phase → Prop where
  | same {phase : Phase} (h : phase.isLooking = false) : Beside phase phase
  /-- There was nothing to run. -/
  | idle : Beside exited (parked false)

namespace Phase.Beside

variable {phase phase' : Phase}

theorem isUnderWay_eq (h : phase.Beside phase') : phase.isUnderWay = phase'.isUnderWay := by
  cases h <;> rfl

theorem isLooking_eq (h : phase.Beside phase') :
    phase.isLooking = false ∧ phase'.isLooking = false := by
  cases h with
  | same h => exact ⟨h, h⟩
  | idle => exact ⟨rfl, rfl⟩

theorem blockedRun?_eq (h : phase.Beside phase') : phase.blockedRun? = phase'.blockedRun? := by
  cases h <;> rfl

theorem opened (h : phase.Beside phase') (task run : Nat) :
    (phase.opened task run).Beside (phase'.opened task run) := by
  cases h with
  | same h =>
    refine .same ?_
    cases phase <;> exact h
  | idle => exact .idle

end Phase.Beside

namespace Pool

variable {α : Type} {p q : Pool α} {name : String}

/-- Pool `p` was dropped; beyond that, it is as pool `q`, which is still in use.  Both have the id
`name`. -/
structure DroppedTwin (name : String) (p q : Pool α) : Prop where
  id_left : p.id = name
  id_right : q.id = name
  plan_eq : p.plan = q.plan
  queue_eq : p.queue = q.queue
  results_eq : p.results = q.results
  dropped : p.standing = .dropped
  active : q.standing = .active
  workers : ∀ w : Nat, Option.Rel Phase.Beside p.workers[w]? q.workers[w]?

namespace DroppedTwin

theorem inactive (h : DroppedTwin name p q) : p.isActive = false := by
  rw [isActive, h.dropped]
  rfl

theorem isActive (h : DroppedTwin name p q) : q.isActive = true := by
  rw [Pool.isActive, h.active]
  rfl

theorem outcome_eq (h : DroppedTwin name p q) (k : Ticket) : p.outcome k = q.outcome k := by
  rw [outcome, outcome, h.results_eq]

/-- Whatever does not tell the phases apart sees the same workers. -/
theorem map_workers {β : Type} (h : DroppedTwin name p q) {f : Phase → β}
    (hf : ∀ {phase phase'}, phase.Beside phase' → f phase = f phase') :
    p.workers.map f = q.workers.map f := by
  refine List.ext_getElem? fun w => ?_
  rw [List.getElem?_map, List.getElem?_map]
  rcases rel_cases (h.workers w) with ⟨hp, hq⟩ | ⟨phase, phase', hp, hq, hb⟩ <;> rw [hp, hq]
  exact congrArg some (hf hb)

theorem length_workers (h : DroppedTwin name p q) : p.workers.length = q.workers.length := by
  have hmap := congrArg List.length (h.map_workers (f := fun _ => ()) fun _ => rfl)
  rwa [List.length_map, List.length_map] at hmap

theorem blockedRuns_eq (h : DroppedTwin name p q) (task : Nat) :
    p.blockedRuns task = q.blockedRuns task := by
  have hmap : ∀ {f : Phase → Option Nat} (ws : List Phase),
      ws.filterMap f = (ws.map f).filterMap fun run => run :=
    fun ws => by rw [List.filterMap_map]; rfl
  rw [blockedRuns, blockedRuns, hmap, hmap]
  exact congrArg _ (h.map_workers fun hb => by rw [hb.blockedRun?_eq])

/-! What is done to both keeps them beside each other. -/

theorem note (h : DroppedTwin name p q) (n n' : PoolNote) :
    DroppedTwin name (p.note n) (q.note n') :=
  ⟨h.id_left, h.id_right, h.plan_eq, h.queue_eq, h.results_eq, h.dropped, h.active, h.workers⟩

theorem fault (h : DroppedTwin name p q) (e e' : Fault) :
    DroppedTwin name (p.fault e) (q.fault e') :=
  ⟨h.id_left, h.id_right, h.plan_eq, h.queue_eq, h.results_eq, h.dropped, h.active, h.workers⟩

theorem setQueue (h : DroppedTwin name p q) (u : Queue Arena Job) :
    DroppedTwin name { p with queue := u } { q with queue := u } :=
  ⟨h.id_left, h.id_right, h.plan_eq, rfl, h.results_eq, h.dropped, h.active, h.workers⟩

theorem setPhase (h : DroppedTwin name p q) (w : Nat) {phase phase' : Phase}
    (hb : phase.Beside phase') : DroppedTwin name (p.setPhase w phase) (q.setPhase w phase') := by
  refine ⟨h.id_left, h.id_right, h.plan_eq, h.queue_eq, h.results_eq, h.dropped, h.active,
    fun v => ?_⟩
  show Option.Rel Phase.Beside (p.workers.set w phase)[v]? (q.workers.set w phase')[v]?
  rw [List.getElem?_set, List.getElem?_set, h.length_workers]
  split
  · split
    · exact .some hb
    · exact .none
  · exact h.workers v

theorem setCounts (h : DroppedTwin name p q) (threads busy threads' busy' : Nat) :
    DroppedTwin name { p with threads, busy } { q with threads := threads', busy := busy' } :=
  ⟨h.id_left, h.id_right, h.plan_eq, h.queue_eq, h.results_eq, h.dropped, h.active, h.workers⟩

theorem openGate (h : DroppedTwin name p q) (task run : Nat) :
    DroppedTwin name { p with workers := p.workers.map (Phase.opened task run) }
      { q with workers := q.workers.map (Phase.opened task run) } := by
  refine ⟨h.id_left, h.id_right, h.plan_eq, h.queue_eq, h.results_eq, h.dropped, h.active,
    fun w => ?_⟩
  show Option.Rel Phase.Beside (p.workers.map _)[w]? (q.workers.map _)[w]?
  rw [List.getElem?_map, List.getElem?_map]
  rcases rel_cases (h.workers w) with ⟨hp, hq⟩ | ⟨phase, phase', hp, hq, hb⟩ <;> rw [hp, hq]
  · exact .none
  · exact .some (hb.opened task run)

theorem join (h : DroppedTwin name p q) (k : Ticket) : DroppedTwin name (p.join k) (q.join k) := by
  have hq := h.setQueue (q.queue.join k)
  rwa [show { p with queue := q.queue.join k } = p.join k from by rw [Pool.join, h.queue_eq]] at hq

theorem detach (h : DroppedTwin name p q) (k : Ticket) :
    DroppedTwin name (p.detach k) (q.detach k) := by
  have hq := h.setQueue (q.queue.detach k)
  rwa [show { p with queue := q.queue.detach k } = p.detach k from by
    rw [Pool.detach, h.queue_eq]] at hq

theorem unlink (h : DroppedTwin name p q) (k : Ticket) :
    DroppedTwin name (p.unlink k) (q.unlink k) := by
  unfold Pool.unlink
  rw [h.queue_eq]
  split
  · exact h.setQueue _
  · exact (h.setQueue _).fault _ _

theorem putResult (h : DroppedTwin name p q) (k : Ticket) (v : Value α) :
    DroppedTwin name (p.putResult k v) (q.putResult k v) := by
  unfold Pool.putResult
  rw [h.results_eq]
  split
  · exact h.fault _ _
  · exact ⟨h.id_left, h.id_right, h.plan_eq, h.queue_eq, rfl, h.dropped, h.active, h.workers⟩

/-- A worker that looks for work takes the same record from both, or leaves one and waits in
the other. -/
theorem advance (h : DroppedTwin name p q) (w : Nat) :
    DroppedTwin name (p.advance w) (q.advance w) := by
  unfold Pool.advance
  rw [h.queue_eq]
  split
  · exact ((h.setQueue _).fault _ _).setPhase w (.same rfl)
  · exact ((h.setQueue _).setPhase w (.same rfl)).note _ _
  · next u _ =>
    have hu := h.setQueue u
    rw [h.inactive, h.isActive, if_pos rfl, if_neg Bool.false_ne_true]
    have hset := hu.setPhase w .idle
    exact ⟨hset.id_left, hset.id_right, hset.plan_eq, hset.queue_eq, hset.results_eq,
      congrArg Standing.notify h.dropped, hset.active, hset.workers⟩

theorem wake (h : DroppedTwin name p q) (w : Nat) : DroppedTwin name (p.wake w) (q.wake w) :=
  (h.setCounts p.threads (p.busy + 1) q.threads (q.busy + 1)).advance w

theorem finish (h : DroppedTwin name p q) (w : Nat) (k : Ticket) :
    DroppedTwin name (p.finish w k) (q.finish w k) := by
  unfold Pool.finish
  rw [h.queue_eq]
  split
  · exact ((h.setQueue _).fault _ _).setPhase w (.same rfl)
  · exact ((h.setQueue _).note _ _).advance w

end DroppedTwin

end Pool
end WorkerPool
