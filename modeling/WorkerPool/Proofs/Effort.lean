/-
# Every move of a pool takes some effort, and there is only so much

Bodies may submit tasks, among them the one that they run for, so it is not plain that a pool that
nobody asks for anything comes to rest.  It does, because a record keeps its place in the queue
until it is given back, and nobody gives back anything while the threads move: the places that are
left for records (`Pool.room`) only get fewer.  A place pays for all that can come of a record: its
own way through the hands of a worker, a new worker for it, and a useless look of everybody who was
told.

`Pool.effort` adds up what places, records and workers may still cost.  Each section that a thread
makes on its own takes some of it, and a submission takes more than it brings.  The part that is not
paid for by places is the `backlog`.
-/
import Mathlib.Algebra.GroupWithZero.Nat
import WorkerPool.Proofs.Workers

namespace WorkerPool

/-! ## 1. The measure -/

/-- How many moves of the worker are certain, at most: a body of its own and what follows, or a look
for work that fails. -/
def Phase.effort : Phase → Nat
  | starting => 3
  | parked notified => if notified then 3 else 2
  | executing _ _ .entering => 5
  | executing _ _ (.atGate _) => 4
  | executing _ _ (.past _) => 4
  | executing _ _ .over => 3
  | exited => 0

/-- A shutdown that was told looks once. -/
def Standing.effort (standing : Standing) : Nat := if standing.isWoken then 1 else 0

namespace Queue

variable {S : Type → Type} [Slab S] {J : Type} {q q' : Queue S J}

/-- Whether the ticket names a record that stays until it is given back. -/
def isKept (q : Queue S J) (k : Ticket) : Bool := (q.get? k).any fun r => !r.detached

/-- The number of records that stay until they are given back. -/
def kept (q : Queue S J) : Nat := q.tickets.countP q.isKept

/-- A list that names each kept record once is as long as there are any. -/
theorem kept_eq_length {l : List Ticket} (hl : l.Nodup) (hmem : ∀ k, k ∈ l ↔ q.isKept k = true) :
    q.kept = l.length := by
  have hperm : l.Perm (q.tickets.filter q.isKept) := by
    refine (List.perm_ext_iff_of_nodup hl (q.nodup_tickets.filter _)).mpr fun k => ?_
    rw [hmem, List.mem_filter, mem_tickets]
    refine ⟨fun hk => ⟨?_, hk⟩, And.right⟩
    cases hr : q.get? k with
    | none => simp [isKept, hr] at hk
    | some r => rfl
  rw [hperm.length_eq, kept, List.countP_eq_length_filter]

theorem mem_filter_isKept {k : Ticket} :
    k ∈ q.tickets.filter q.isKept ↔ q.isKept k = true := by
  rw [List.mem_filter, mem_tickets]
  refine ⟨And.right, fun hk => ⟨?_, hk⟩⟩
  cases hr : q.get? k with
  | none => simp [isKept, hr] at hk
  | some r => rfl

theorem kept_congr (h : ∀ k, q'.isKept k = q.isKept k) : q'.kept = q.kept := by
  rw [kept_eq_length (q := q') (q.nodup_tickets.filter q.isKept) fun k => by
    rw [mem_filter_isKept, h], kept, List.countP_eq_length_filter]

theorem kept_le_size (q : Queue S J) : q.kept ≤ q.size := by
  rw [size_eq_length q.nodup_tickets fun k => q.mem_tickets]
  exact List.countP_le_length

theorem kept_pushed (q : Queue S J) (job : J) : (q.pushed job).kept = q.kept + 1 := by
  have hfresh : q.freshTicket ∉ q.tickets.filter q.isKept := by
    rw [mem_filter_isKept, isKept, get?_freshTicket]
    simp
  rw [kept_eq_length (q := q.pushed job) (List.nodup_cons.mpr ⟨hfresh, q.nodup_tickets.filter _⟩),
    List.length_cons, kept, List.countP_eq_length_filter]
  intro k
  rw [List.mem_cons, mem_filter_isKept, isKept, isKept, get?_pushed]
  by_cases hk : k = q.freshTicket <;> simp [hk]

theorem kept_started (q : Queue S J) (k : Ticket) (rest : List Ticket) :
    (q.started k rest).kept = q.kept := by
  refine kept_congr fun k' => ?_
  rw [isKept, isKept, get?_started]
  split
  · cases q.get? k' <;> rfl
  · rfl

theorem kept_join (q : Queue S J) (k : Ticket) : (q.join k).kept = q.kept := by
  refine kept_congr fun k' => ?_
  rw [isKept, isKept, get?_join]
  split
  · cases q.get? k' <;> rfl
  · rfl

/-- A record that goes when it has finished was not counted. -/
theorem kept_finished {k : Ticket} {r : Record J} (hr : q.get? k = some r) :
    (q.finished k).kept = q.kept := by
  refine kept_congr fun k' => ?_
  rw [isKept, isKept, get?_finished hr]
  split
  · next hk =>
    rw [hk, hr]
    cases hd : r.detached <;> simp [hd]
  · rfl

end Queue

namespace Pool

variable {α : Type} {p : Pool α}

/-- The places left for records, if nothing is given back. -/
def room (p : Pool α) : Nat := p.queue.limit - p.queue.kept

/-- What the records that wait and the workers may still cost. -/
def backlog (p : Pool α) : Nat :=
  3 * p.queue.waiting.length + (p.workers.map Phase.effort).sum

/-- What may still be done in a pool. -/
def effort (p : Pool α) : Nat :=
  p.room * (p.plan.capacity + 8) + p.backlog + p.standing.effort

/-! ## 2. Workers -/

/-- The sum over a list after the change of one entry. -/
theorem sum_map_set {β : Type} (f : β → Nat) {l : List β} {i : Nat} {b : β} (hi : l[i]? = some b)
    (b' : β) : ((l.set i b').map f).sum + f b = (l.map f).sum + f b' := by
  induction l generalizing i with
  | nil => simp at hi
  | cons a rest ih =>
    cases i with
    | zero =>
      obtain rfl : a = b := by simpa using hi
      simp only [List.set_cons_zero, List.map_cons, List.sum_cons]
      omega
    | succ i =>
      have := ih (i := i) (by simpa using hi)
      simp only [List.set_cons_succ, List.map_cons, List.sum_cons]
      omega

theorem backlog_setPhase {w : Nat} {old : Phase} (hw : p.workers[w]? = some old) (phase : Phase) :
    (p.setPhase w phase).backlog + old.effort = p.backlog + phase.effort := by
  have hsum := sum_map_set Phase.effort hw phase
  show 3 * p.queue.waiting.length + ((p.workers.set w phase).map Phase.effort).sum + old.effort = _
  rw [backlog]
  omega

theorem standing_effort_notify (standing : Standing) :
    standing.notify.effort ≤ standing.effort + 1 := by
  unfold Standing.effort
  split <;> omega

/-- A look for work takes at least one move off a worker: a record is claimed, or the worker waits
or leaves. -/
theorem effort_advance (hq : p.queue.Sound) {w : Nat} (hw : p.workers[w]? = some .starting) :
    (p.advance w).room = p.room ∧ (p.advance w).backlog < p.backlog ∧
      (p.advance w).effort < p.effort := by
  rcases advance_cases hq w with
    ⟨k, rest, r, job, hwait, -, -, -, he⟩ | ⟨-, ⟨-, he⟩ | ⟨-, he⟩⟩ <;> rw [he]
  · have hroom : ({ p with queue := p.queue.started k rest }.claimed w k job).room = p.room := by
      show (p.queue.started k rest).limit - (p.queue.started k rest).kept = _
      rw [Queue.kept_started, Queue.started, room]
      simp
    have hbacklog : ({ p with queue := p.queue.started k rest }.claimed w k job).backlog + 1 =
        p.backlog := by
      have hsum := sum_map_set Phase.effort hw (.executing k job .entering)
      show 3 * rest.length +
        ((p.workers.set w (.executing k job .entering)).map Phase.effort).sum + 1 = _
      rw [backlog, hwait, List.length_cons]
      simp only [Phase.effort] at hsum ⊢
      omega
    refine ⟨hroom, by omega, ?_⟩
    rw [effort, effort, hroom]
    show p.room * (p.plan.capacity + 8) + _ + p.standing.effort < _
    omega
  · have hbacklog := backlog_setPhase hw (.parked false)
    simp only [Phase.effort, Bool.false_eq_true, if_false] at hbacklog
    have hsame : (p.park w).backlog = (p.setPhase w (.parked false)).backlog := rfl
    refine ⟨rfl, by omega, ?_⟩
    show p.room * (p.plan.capacity + 8) + (p.park w).backlog + p.standing.effort < p.effort
    rw [effort]
    omega
  · have hbacklog := backlog_setPhase hw .exited
    simp only [Phase.effort] at hbacklog
    have hsame : (p.leave w).backlog = (p.setPhase w .exited).backlog := rfl
    have hnotify := standing_effort_notify p.standing
    refine ⟨rfl, by omega, ?_⟩
    show p.room * (p.plan.capacity + 8) + (p.leave w).backlog + p.standing.notify.effort < p.effort
    rw [effort]
    omega

/-- A worker comes to its look for work with as much before it as it had. -/
theorem effort_goOn (h : p.Sound) {w : Nat} {phase : Phase} (hw : p.workers[w]? = some phase)
    (hlooks : phase.looksNext = true) :
    (p.goOn w phase).room = p.room ∧ (p.goOn w phase).backlog < p.backlog ∧
      (p.goOn w phase).effort < p.effort := by
  suffices hlook : ∃ q : Pool α, q.queue.Sound ∧ q.workers[w]? = some .starting ∧
      q.room = p.room ∧ q.backlog = p.backlog ∧ q.effort = p.effort ∧
      p.goOn w phase = q.advance w by
    obtain ⟨q, hq, hstarting, hroom, hbacklog, heffort, he⟩ := hlook
    rw [he, ← hroom, ← hbacklog, ← heffort]
    exact effort_advance hq hstarting
  rcases phase with _ | notified | ⟨k, job, stage⟩ | _
  · exact ⟨p, h.queue, hw, rfl, rfl, rfl, rfl⟩
  · obtain rfl : notified = true := hlooks
    have hbacklog := backlog_setPhase hw .starting
    simp only [Phase.effort, if_true, Nat.add_right_cancel_iff] at hbacklog
    refine ⟨{ p with busy := p.busy + 1 }.setPhase w .starting, h.queue, ?_, rfl, hbacklog, ?_, ?_⟩
    · exact workers_setPhase_self (p := { p with busy := p.busy + 1 }) hw .starting
    · show p.room * (p.plan.capacity + 8) + (p.setPhase w .starting).backlog + p.standing.effort = _
      rw [hbacklog, effort]
    · exact (advance_setPhase { p with busy := p.busy + 1 } w .starting).symm
  · cases stage with
    | «over» =>
      obtain ⟨r, hr, -, he⟩ := h.finish_eq hw
      have hroom : (p.ended w k r.detached).room = p.room := by
        show (p.queue.finished k).limit - (p.queue.finished k).kept = _
        rw [Queue.kept_finished hr, Queue.limit_finished, room]
      have hbacklog : (p.ended w k r.detached).backlog = p.backlog := by
        have hsum := sum_map_set Phase.effort hw .starting
        show 3 * (p.queue.finished k).waiting.length +
          ((p.workers.set w .starting).map Phase.effort).sum = _
        rw [Queue.waiting_finished, backlog]
        simp only [Phase.effort] at hsum
        omega
      refine ⟨p.ended w k r.detached, (h.ended hw _).queue, workers_setPhase_self hw .starting,
        hroom, hbacklog, ?_, he⟩
      rw [effort, effort, hroom, hbacklog]
      rfl
    | _ => exact absurd hlooks (by simp [Phase.looksNext, Phase.isLooking])
  · exact absurd hlooks (by simp [Phase.looksNext, Phase.isLooking])

/-- A body that goes on comes nearer to its end. -/
theorem effort_setPhase {w : Nat} {old : Phase} (hw : p.workers[w]? = some old) (phase : Phase)
    (hlt : phase.effort < old.effort) : (p.setPhase w phase).effort < p.effort := by
  have hbacklog := backlog_setPhase hw phase
  show p.room * (p.plan.capacity + 8) + (p.setPhase w phase).backlog + p.standing.effort < _
  rw [effort]
  omega

/-! ## 3. Shutdowns, joins and submissions -/

theorem effort_awaitWorkers (hwoken : p.standing.isWoken = true) :
    p.awaitWorkers.effort < p.effort := by
  have hbefore : p.standing.effort = 1 := by simp [Standing.effort, hwoken]
  have hafter : p.awaitWorkers.effort = p.room * (p.plan.capacity + 8) + p.backlog := by
    unfold awaitWorkers
    split <;> rfl
  rw [hafter, effort]
  omega

theorem effort_join (p : Pool α) (k : Ticket) : (p.join k).effort = p.effort := by
  have hroom : (p.join k).room = p.room := by
    show (p.queue.join k).limit - (p.queue.join k).kept = _
    rw [Queue.kept_join, Queue.join, Queue.limit_update, room]
  have hbacklog : (p.join k).backlog = p.backlog := by
    show 3 * (p.queue.join k).waiting.length + _ = _
    rw [Queue.join, Queue.waiting_update]
    rfl
  rw [effort, effort, hroom, hbacklog]
  rfl

/-- Telling all workers brings one move for each of them, at most. -/
theorem sum_effort_notify (l : List Phase) :
    ((l.map Phase.notify).map Phase.effort).sum ≤ (l.map Phase.effort).sum + l.length := by
  induction l with
  | nil => simp
  | cons phase rest ih =>
    have hphase : phase.notify.effort ≤ phase.effort + 1 := by
      rcases phase with _ | notified | _ | _
      · exact Nat.le_succ _
      · cases notified <;> decide
      · exact Nat.le_succ _
      · exact Nat.le_succ _
    simp only [List.map_cons, List.sum_cons, List.length_cons]
    omega

/-- A record that is linked takes a place, and brings less than the place was worth. -/
theorem effort_linked {g : Pool α} (hroom : 0 < g.room)
    (hworkers : g.workers.length ≤ g.plan.capacity) (job : Job) :
    (g.linked job).room + 1 = g.room ∧ (g.linked job).effort + 5 ≤ g.effort := by
  have hroom' : (g.linked job).room + 1 = g.room := by
    show (g.queue.pushed job).limit - (g.queue.pushed job).kept + 1 = g.room
    have hlimit : (g.queue.pushed job).limit = g.queue.limit := rfl
    rw [Queue.kept_pushed, hlimit]
    unfold room at hroom ⊢
    omega
  refine ⟨hroom', ?_⟩
  have hbacklog : (g.linked job).backlog ≤ g.backlog + 3 + g.workers.length := by
    have hsum := sum_effort_notify g.workers
    show 3 * (g.queue.pushed job).waiting.length +
      ((g.workers.map Phase.notify).map Phase.effort).sum ≤ _
    have hlength : (g.queue.pushed job).waiting.length = g.queue.waiting.length + 1 := rfl
    rw [hlength, backlog]
    omega
  have hplaces : g.room * (g.plan.capacity + 8) =
      (g.linked job).room * (g.plan.capacity + 8) + (g.plan.capacity + 8) := by
    rw [← hroom', Nat.succ_mul]
  show (g.linked job).room * (g.plan.capacity + 8) + (g.linked job).backlog + g.standing.effort + 5
    ≤ g.effort
  rw [effort]
  omega

/-- A submission to a pool in use is refused and changes nothing of it, or takes a place. -/
theorem effort_submit (h : p.Sound) (henlisted : p.Enlisted) (hactive : p.isActive = true)
    (refusal : Option String) (job : Job) :
    let q := (p.submit refusal job).2
    (∃ e, (p.submit refusal job).1 = .error e) ∧ q.room = p.room ∧ q.effort = p.effort ∨
      (∃ ticket, (p.submit refusal job).1 = .ok ticket) ∧ q.room + 1 = p.room ∧
        q.effort < p.effort := by
  rcases submit_cases p refusal job with ⟨-, he⟩ | ⟨e, -, hgrow, he⟩ | ⟨hfull, -, he⟩ <;> rw [he]
  · exact Or.inl ⟨⟨_, rfl⟩, rfl, rfl⟩
  · left
    rcases p.grow_cases refusal with ⟨-, hg⟩ | ⟨-, -, hg⟩ | ⟨_, -, -, ⟨-, hg⟩ | ⟨-, hg⟩⟩
    · exact absurd hgrow (by simp [hg])
    · exact absurd hgrow (by simp [hg])
    · exact ⟨⟨_, rfl⟩, by rw [hg]; rfl, by rw [hg]; rfl⟩
    · exact ⟨⟨_, rfl⟩, by rw [hg]; rfl, by rw [hg]; rfl⟩
  · refine Or.inr ⟨⟨_, rfl⟩, ?_⟩
    have hsize : p.queue.size < p.queue.limit := by simpa [Queue.isFull] using hfull
    have hkept := p.queue.kept_le_size
    have hpos : 0 < p.room := by unfold room; omega
    -- the pool after a worker was started, if one was
    have hgrown : (p.grow refusal).2.room = p.room ∧ (p.grow refusal).2.effort ≤ p.effort + 3 ∧
        (p.grow refusal).2.workers.length ≤ (p.grow refusal).2.plan.capacity := by
      have hlength := henlisted.threads_eq h.counted hactive
      have hle := h.counted.threads_le
      rcases p.grow_cases refusal with
        ⟨-, hg⟩ | ⟨hwant, -, hg⟩ | ⟨_, -, -, ⟨-, hg⟩ | ⟨-, hg⟩⟩ <;> rw [hg]
      · exact ⟨rfl, Nat.le_add_right _ _, hlength ▸ hle⟩
      · have hlt : p.threads < p.plan.capacity := by
          simp only [wantsWorker, Bool.and_eq_true, decide_eq_true_eq] at hwant
          exact hwant.2
        refine ⟨rfl, ?_, ?_⟩
        · have hbacklog : p.startWorker.backlog = p.backlog + 3 := by
            simp only [backlog, startWorker, Pool.note, List.map_append, List.sum_append,
              List.map_cons, List.map_nil, List.sum_cons, List.sum_nil, Phase.effort]
            omega
          show p.room * (p.plan.capacity + 8) + p.startWorker.backlog + p.standing.effort ≤ _
          rw [hbacklog, effort]
          omega
        · rw [length_startWorker, ← hlength]
          exact hlt
      · exact ⟨rfl, Nat.le_add_right _ _, hlength ▸ hle⟩
      · exact ⟨rfl, Nat.le_add_right _ _, hlength ▸ hle⟩
    obtain ⟨hroom, heffort, hworkers⟩ := hgrown
    obtain ⟨hroom', heffort'⟩ := effort_linked (hroom ▸ hpos) hworkers job
    refine ⟨hroom'.trans hroom, ?_⟩
    show ((p.grow refusal).2.linked job).effort < p.effort
    omega

/-- The budget of a pool covers its effort. -/
theorem effort_le_budget (h : p.Sound) : p.effort ≤ System.poolBudget p := by
  have hwaiting := h.length_waiting_le
  have hworkers : (p.workers.map Phase.effort).sum ≤ 5 * p.workers.length := by
    induction p.workers with
    | nil => simp
    | cons phase rest ih =>
      have hphase : phase.effort ≤ 5 := by
        rcases phase with _ | notified | ⟨_, _, stage⟩ | _
        · decide
        · cases notified <;> decide
        · cases stage <;> simp [Phase.effort]
        · decide
      simp only [List.map_cons, List.sum_cons, List.length_cons]
      omega
  have hstanding : p.standing.effort ≤ 1 := by
    unfold Standing.effort
    split <;> omega
  have hroom : p.room * (p.plan.capacity + 8) ≤ p.queue.limit * (p.plan.capacity + 8) :=
    Nat.mul_le_mul_right _ (Nat.sub_le _ _)
  have hrecords : 3 * p.queue.waiting.length ≤ p.queue.size * (p.plan.capacity + 8) := by
    calc 3 * p.queue.waiting.length
        ≤ (p.plan.capacity + 8) * p.queue.size := Nat.mul_le_mul (by omega) hwaiting
      _ = p.queue.size * (p.plan.capacity + 8) := Nat.mul_comm _ _
  rw [effort, backlog, System.poolBudget, Nat.add_mul]
  omega

end Pool
end WorkerPool
