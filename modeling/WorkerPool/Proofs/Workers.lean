/-
# The workers of a pool, counted

A pool counts its workers in four places: a submission starts one and counts it as busy before it
has run, a worker that parks or is woken goes off and on the count, and one that leaves goes off
both counts.  `Tallied` says what the two counters come to, whatever happened before.  The workers
that were ever started are the `crew`, read off the journal: their indices are 0, 1, 2, ..., as only
a thread that was really started takes one.

A section that is not a submission is `Steady` (`Section.steady`), and a submission starts one
worker at most and is `Steady` otherwise, so what is said of the crew has one step to look at.
-/
import WorkerPool.Proofs.SystemSound

namespace WorkerPool

/-! ## 1. Who was started, and who runs what -/

/-- The index of a worker that was started, and how many there were with it. -/
def PoolNote.started? : PoolNote → Option (Nat × Nat)
  | spawnedWorker worker threads => some (worker, threads)
  | _ => none

/-- Whether the worker is parked, gone or held up in a body. -/
def Phase.isSettled : Phase → Bool
  | starting => false
  | executing _ _ (.atGate _) => true
  | executing _ _ _ => false
  | _ => true

/-- The tickets of the running records. -/
def Queue.running {S : Type → Type} [Slab S] {J : Type} (q : Queue S J) : List Ticket :=
  q.tickets.filter fun k => q.status? k = some .running

namespace Pool

variable {α : Type} {p p' : Pool α}

/-- The workers that were started, in this order, each with the number of threads at its start. -/
def crew (p : Pool α) : List (Nat × Nat) := p.journal.reverse.filterMap PoolNote.started?

/-- The tickets that the workers have claimed and not finished, by the index of the worker. -/
def inHand (p : Pool α) : List Ticket := p.workers.filterMap Phase.ticket?

theorem crew_note (p : Pool α) {n : PoolNote} (hn : n.started? = none) :
    (p.note n).crew = p.crew := by
  simp [crew, note, hn]

theorem crew_startWorker (p : Pool α) :
    p.startWorker.crew = p.crew ++ [(p.workers.length, p.threads + 1)] := by
  simp [crew, startWorker, note, PoolNote.started?]

theorem length_startWorker (p : Pool α) :
    p.startWorker.workers.length = p.workers.length + 1 := by
  simp [startWorker, note]

theorem exited_mem_startWorker (p : Pool α) :
    .exited ∈ p.startWorker.workers ↔ .exited ∈ p.workers := by
  simp [startWorker, note]

/-! ## 2. What a section does to the crew -/

/-- Nobody is started, nobody leaves a pool that is in use afterwards, and a pool that has ended
does not come back. -/
structure Steady (p p' : Pool α) : Prop where
  active : p'.isActive = true → p.isActive = true
  stays : p'.isActive = true → .exited ∈ p'.workers → .exited ∈ p.workers
  length_eq : p'.workers.length = p.workers.length
  crew_eq : p'.crew = p.crew

theorem Steady.refl (p : Pool α) : Steady p p := ⟨fun ha => ha, fun _ he => he, rfl, rfl⟩

theorem Steady.trans {p'' : Pool α} (h : Steady p p') (h' : Steady p' p'') : Steady p p'' :=
  ⟨fun ha => h.active (h'.active ha), fun ha he => h.stays (h'.active ha) (h'.stays ha he),
    h'.length_eq.trans h.length_eq, h'.crew_eq.trans h.crew_eq⟩

/-- Counters, records, results and checks play no part. -/
theorem Steady.congr {p'' : Pool α} (h : Steady p p') (hs : p''.standing = p'.standing)
    (hw : p''.workers = p'.workers) (hj : p''.journal = p'.journal) : Steady p p'' where
  active := by simpa only [isActive, hs] using h.active
  stays := by simpa only [isActive, hs, hw] using h.stays
  length_eq := hw ▸ h.length_eq
  crew_eq := (congrArg (fun j : List PoolNote => j.reverse.filterMap PoolNote.started?) hj).trans
    h.crew_eq

theorem Steady.note (h : Steady p p') {n : PoolNote} (hn : n.started? = none) :
    Steady p (p'.note n) :=
  ⟨h.active, h.stays, h.length_eq, (crew_note p' hn).trans h.crew_eq⟩

/-- A worker goes to a phase of one that has not left, or the pool has ended. -/
theorem Steady.setPhase (h : Steady p p') (w : Nat) (phase : Phase)
    (hphase : p'.isActive = true → phase ≠ .exited) : Steady p (p'.setPhase w phase) where
  active := h.active
  stays := by
    intro ha he
    rcases List.mem_or_eq_of_mem_set he with he | he
    · exact h.stays ha he
    · exact absurd he.symm (hphase ha)
  length_eq := by
    rw [← h.length_eq]
    exact List.length_set
  crew_eq := h.crew_eq

/-- All workers change, and nobody leaves by that. -/
theorem Steady.mapWorkers (h : Steady p p') (f : Phase → Phase)
    (hf : ∀ phase, f phase = .exited → phase = .exited) :
    Steady p { p' with workers := p'.workers.map f } where
  active := h.active
  stays := by
    intro ha he
    obtain ⟨phase, hmem, hphase⟩ := List.mem_map.mp he
    exact h.stays ha (hf phase hphase ▸ hmem)
  length_eq := by
    rw [← h.length_eq]
    exact List.length_map f
  crew_eq := h.crew_eq

theorem Steady.notifyWorkers (h : Steady p p') : Steady p p'.notifyWorkers :=
  h.mapWorkers Phase.notify fun phase => by cases phase <;> simp [Phase.notify]

/-- The pool has ended; it does not matter how. -/
theorem Steady.setStanding (h : Steady p p') {standing : Standing} (hs : standing ≠ .active) :
    Steady p { p' with standing } where
  active := fun ha => absurd ha (by simpa [isActive] using hs)
  stays := fun ha => absurd ha (by simpa [isActive] using hs)
  length_eq := h.length_eq
  crew_eq := h.crew_eq

theorem steady_advance (h : p.queue.Sound) (w : Nat) : Steady p (p.advance w) := by
  rcases advance_cases h w with
    ⟨k, rest, r, job, -, -, -, -, he⟩ | ⟨-, ⟨-, he⟩ | ⟨hina, he⟩⟩ <;> rw [he]
  · have hqueue : Steady p { p with queue := p.queue.started k rest } :=
      (Steady.refl p).congr rfl rfl rfl
    exact (hqueue.setPhase w (.executing k job .entering) (by simp)).note
      (n := .claimed w k.number) rfl
  · have hbusy : Steady p { p with busy := p.busy - 1 } := (Steady.refl p).congr rfl rfl rfl
    exact hbusy.setPhase w (.parked false) (by simp)
  · have hstanding : p.standing.notify ≠ .active := by
      cases hs : p.standing <;> simp_all [Standing.notify, isActive]
    have hleft : Steady p { p with
        busy := p.busy - 1, threads := p.threads - 1, standing := p.standing.notify } :=
      ((Steady.refl p).setStanding hstanding).congr rfl rfl rfl
    exact (hleft.setPhase w .exited fun ha => absurd ha (by simpa [isActive] using hstanding)).note
      (n := .workerExited w) rfl

theorem steady_ended (p : Pool α) (w : Nat) (k : Ticket) (unlinked : Bool) :
    Steady p (p.ended w k unlinked) := by
  have hqueue : Steady p { p with queue := p.queue.finished k } := (Steady.refl p).congr rfl rfl rfl
  exact (hqueue.note (n := .finished w k.number unlinked) rfl).setPhase w _ (by simp)

theorem steady_awaitWorkers (h : Steady p p') : Steady p p'.awaitWorkers := by
  unfold Pool.awaitWorkers
  split
  · exact (h.setStanding (by simp)).note rfl
  · exact h.setStanding (by simp)

/-- A submission starts one worker first, or none. -/
theorem steady_submit (p : Pool α) (refusal : Option String) (job : Job) :
    Steady p (p.submit refusal job).2 ∨
      refusal = none ∧ Steady p.startWorker (p.submit refusal job).2 := by
  have hgrow : Steady p (p.grow refusal).2 ∨
      refusal = none ∧ Steady p.startWorker (p.grow refusal).2 := by
    rcases p.grow_cases refusal with
      ⟨-, he⟩ | ⟨-, hnone, he⟩ | ⟨_, -, -, ⟨-, he⟩ | ⟨-, he⟩⟩ <;> rw [he]
    · exact Or.inl (.refl p)
    · exact Or.inr ⟨hnone, .refl _⟩
    · exact Or.inl ((Steady.refl p).note rfl)
    · exact Or.inl ((Steady.refl p).note rfl)
  -- what follows the growth starts nobody
  have hlinked (q : Pool α) : Steady q (q.linked job) := by
    have hpushed : Steady q { q with queue := q.queue.pushed job } :=
      (Steady.refl q).congr rfl rfl rfl
    exact hpushed.notifyWorkers.note rfl
  rcases submit_cases p refusal job with ⟨-, he⟩ | ⟨e, -, -, he⟩ | ⟨-, -, he⟩ <;> rw [he]
  · exact Or.inl ((Steady.refl p).note rfl)
  · exact hgrow
  · exact hgrow.imp (·.trans (hlinked _)) (And.imp_right (·.trans (hlinked _)))

/-- A section that is not a submission to a pool in use is steady. -/
theorem Section.steady (hs : Section p p') (h : p.Sound) :
    Steady p p' ∨
      ∃ refusal job, p.isActive = true ∧ p' = (p.submit refusal job).2 := by
  have hrefl := Steady.refl p
  cases hs with
  | submit hactive refusal job => exact Or.inr ⟨refusal, job, hactive, rfl⟩
  | advance hw => exact Or.inl (steady_advance h.queue _)
  | wake hw =>
    have hbusy : Steady p { p with busy := p.busy + 1 } := hrefl.congr rfl rfl rfl
    exact Or.inl (hbusy.trans (steady_advance (p := { p with busy := p.busy + 1 }) h.queue _))
  | enterBody hw hs => exact Or.inl (hrefl.setPhase _ _ (by simp))
  | panicBody hw => exact Or.inl ((hrefl.note rfl).setPhase _ _ (by simp))
  | returnBody hw v =>
    refine Or.inl (Steady.setPhase ?_ _ _ (by simp))
    unfold putResult
    split <;> exact hrefl.congr rfl rfl rfl
  | finish hw =>
    obtain ⟨r, -, -, he⟩ := h.finish_eq hw
    rw [he]
    exact Or.inl ((steady_ended p _ _ _).trans (steady_advance (h.ended hw _).queue _))
  | openGate task run =>
    exact Or.inl (hrefl.mapWorkers _ fun phase => by cases phase <;> simp [Phase.opened])
  | join k => exact Or.inl (hrefl.congr rfl rfl rfl)
  | detach k => exact Or.inl (hrefl.congr rfl rfl rfl)
  | unlink k =>
    rcases p.unlink_cases k with he | he | ⟨f, he⟩ <;> rw [he]
    · exact Or.inl hrefl
    · exact Or.inl (hrefl.congr rfl rfl rfl)
    · exact Or.inl (hrefl.congr rfl rfl rfl)
  | shutdown hactive =>
    unfold Pool.shutdown
    split
    · exact Or.inl (steady_awaitWorkers (hrefl.setStanding (by simp)).notifyWorkers)
    · exact Or.inl (hrefl.note rfl)
  | awaitWorkers hwoken => exact Or.inl (steady_awaitWorkers hrefl)
  | drop =>
    unfold Pool.drop
    split
    · exact Or.inl ((hrefl.setStanding (by simp)).notifyWorkers.note rfl)
    · exact Or.inl hrefl

/-- A section starts one worker in a pool in use, or nobody. -/
theorem Section.staffing (hs : Section p p') (h : p.Sound) :
    Steady p p' ∨ p.isActive = true ∧ Steady p.startWorker p' := by
  rcases hs.steady h with hs | ⟨refusal, job, hactive, rfl⟩
  · exact Or.inl hs
  · exact (steady_submit p refusal job).imp (fun hs => hs) fun hgrown => ⟨hactive, hgrown.2⟩

/-! ## 3. The crew -/

/-- The crew is numbered in turn, and nobody leaves a pool in use. -/
structure Enlisted (p : Pool α) : Prop where
  crew_eq : p.crew = (List.range p.workers.length).map fun w => (w, w + 1)
  stays : p.isActive = true → .exited ∉ p.workers

theorem Enlisted.create (id : String) (plan : Plan) : (create id plan : Pool α).Enlisted := by
  constructor <;> simp [crew, Pool.create]

/-- In a pool in use, every worker that was started is a thread. -/
theorem Enlisted.threads_eq (h : p.Enlisted) (hp : p.Counted) (hactive : p.isActive = true) :
    p.threads = p.workers.length := by
  rw [hp.threads_eq, List.countP_eq_length]
  intro phase hmem
  cases phase with
  | exited => exact absurd hmem (h.stays hactive)
  | _ => rfl

theorem Enlisted.steady (h : p.Enlisted) (hs : Steady p p') : p'.Enlisted where
  crew_eq := by rw [hs.crew_eq, hs.length_eq, h.crew_eq]
  stays := fun ha he => h.stays (hs.active ha) (hs.stays ha he)

theorem Enlisted.startWorker (h : p.Enlisted) (hp : p.Counted) (hactive : p.isActive = true) :
    p.startWorker.Enlisted where
  crew_eq := by
    rw [crew_startWorker, length_startWorker, List.range_succ, List.map_append, h.crew_eq,
      h.threads_eq hp hactive]
    rfl
  stays := fun ha he => h.stays ha ((exited_mem_startWorker p).mp he)

theorem Enlisted.section (h : p.Enlisted) (hp : p.Sound) (hs : Section p p') : p'.Enlisted := by
  rcases hs.staffing hp with hs | ⟨hactive, hs⟩
  · exact h.steady hs
  · exact (h.startWorker hp.counted hactive).steady hs

/-- A crew only grows, and a pool that has ended stays so. -/
theorem Sections.crew_prefix (hs : Sections p p') (h : p.Sound) :
    p.crew <+: p'.crew ∧ p.workers.length ≤ p'.workers.length ∧
      (p'.isActive = true → p.isActive = true) := by
  refine hs.induct (P := fun q => p.crew <+: q.crew ∧ p.workers.length ≤ q.workers.length ∧
    (q.isActive = true → p.isActive = true)) h ⟨List.prefix_rfl, Nat.le_refl _, fun ha => ha⟩ ?_
  rintro q q' hq ⟨hcrew, hlength, hactive⟩ hs
  rcases hs.staffing hq with hs | ⟨ha, hs⟩
  · exact ⟨hs.crew_eq ▸ hcrew, hs.length_eq ▸ hlength, fun ha' => hactive (hs.active ha')⟩
  · refine ⟨?_, ?_, fun _ => hactive ha⟩
    · rw [hs.crew_eq, crew_startWorker]
      exact hcrew.trans (List.prefix_append _ _)
    · rw [hs.length_eq, length_startWorker]
      exact Nat.le_succ_of_le hlength

/-! ## 4. The counters -/

/-- What the counters of a pool come to. -/
structure Tallied (p : Pool α) : Prop where
  /-- The workers that were started have the indices 0, 1, 2, ... in this order. -/
  crew_eq : p.crew = (List.range p.workers.length).map fun w => (w, w + 1)
  /-- `threads` counts those of them that have not left. -/
  threads_eq : p.threads = p.workers.countP Phase.isIn
  /-- `busy` counts those that have not left and are not parked. -/
  busy_eq : p.busy = p.workers.countP Phase.isBusy
  /-- The running records are those between a claim and a finish. -/
  mem_running : ∀ k, k ∈ p.queue.running ↔ k ∈ p.inHand
  running_nodup : p.queue.running.Nodup
  /-- No two workers have the same record. -/
  inHand_nodup : p.inHand.Nodup
  /-- A busy worker has a running record or has not looked for one yet. -/
  busy_eq_add : p.busy = p.queue.running.length + p.workers.count .starting
  running_le : p.queue.running.length ≤ p.busy
  busy_le : p.busy ≤ p.threads
  threads_le : p.threads ≤ p.plan.capacity
  /-- While the pool is in use, every worker that was started is a thread. -/
  threads_eq_length : p.isActive = true → p.threads = p.workers.length
  /-- When nobody is on the way, every busy worker has a running record. -/
  settled : (∀ phase ∈ p.workers, phase.isSettled = true) → p.busy = p.queue.running.length

theorem mem_inHand {k : Ticket} : k ∈ p.inHand ↔ ∃ w, p.ticketOf? w = some k := by
  simp only [inHand, List.mem_filterMap, ticketOf?, Option.bind_eq_some_iff]
  constructor
  · rintro ⟨phase, hmem, hk⟩
    obtain ⟨w, hw⟩ := List.getElem?_of_mem hmem
    exact ⟨w, phase, hw, hk⟩
  · rintro ⟨w, phase, hw, hk⟩
    exact ⟨phase, List.mem_of_getElem? hw, hk⟩

theorem Staffed.mem_running (h : p.Staffed) (k : Ticket) :
    k ∈ p.queue.running ↔ k ∈ p.inHand := by
  have hrun : k ∈ p.queue.running ↔ p.queue.status? k = some .running := by
    rw [Queue.running, List.mem_filter, decide_eq_true_eq, Queue.mem_tickets]
    refine ⟨And.right, fun hk => ⟨?_, hk⟩⟩
    obtain ⟨r, hr, -⟩ := Queue.status?_eq_some.mp hk
    simp [hr]
  rw [hrun, mem_inHand]
  exact ⟨h.executed k, fun ⟨w, hw⟩ => h.executing w k hw⟩

theorem Staffed.inHand_nodup (h : p.Staffed) : p.inHand.Nodup := by
  refine List.pairwise_filterMap.mpr (List.pairwise_iff_getElem.mpr ?_)
  rintro w v hw hv hlt k hk _ hk' rfl
  have hticket {w : Nat} (hw : w < p.workers.length) : p.ticketOf? w = p.workers[w].ticket? :=
    ticketOf?_of_phase (List.getElem?_eq_getElem hw)
  exact absurd (h.executed_once w v k ((hticket hw).trans hk) ((hticket hv).trans hk'))
    (Nat.ne_of_lt hlt)

/-- As many records run as workers have one. -/
theorem Staffed.length_running (h : p.Staffed) :
    p.queue.running.length = p.workers.countP fun phase => phase.ticket?.isSome := by
  have hperm : p.queue.running.Perm p.inHand :=
    (List.perm_ext_iff_of_nodup (p.queue.nodup_tickets.filter _) h.inHand_nodup).mpr h.mem_running
  rw [hperm.length_eq]
  exact List.length_filterMap_eq_countP

theorem Sound.waiting_nodup (h : p.Sound) : p.queue.waiting.Nodup :=
  h.queue.newest_first.imp fun hlt he => absurd (he ▸ hlt) (Nat.lt_irrefl _)

theorem Sound.length_waiting_le (h : p.Sound) : p.queue.waiting.length ≤ p.queue.size := by
  rw [Queue.size_eq_length p.queue.nodup_tickets fun k => Queue.mem_tickets]
  refine h.waiting_nodup.length_le_of_subset fun k hk => ?_
  obtain ⟨r, hr, -⟩ := Queue.status?_eq_some.mp ((h.queue.waiting_iff k).mp hk)
  exact Queue.mem_tickets.mpr (by simp [hr])

theorem Sound.tallied (h : p.Sound) (henlisted : p.Enlisted) : p.Tallied := by
  have hbusy : p.busy = p.queue.running.length + p.workers.count .starting := by
    rw [h.counted.busy_eq, h.staffed.length_running]
    refine countP_eq_add fun phase _ => ?_
    cases phase <;> simp [Phase.isBusy, Phase.ticket?]
  exact
    { crew_eq := henlisted.crew_eq
      threads_eq := h.counted.threads_eq
      busy_eq := h.counted.busy_eq
      mem_running := h.staffed.mem_running
      running_nodup := p.queue.nodup_tickets.filter _
      inHand_nodup := h.staffed.inHand_nodup
      busy_eq_add := hbusy
      running_le := hbusy ▸ Nat.le_add_right _ _
      busy_le := h.counted.busy_le
      threads_le := h.counted.threads_le
      threads_eq_length := henlisted.threads_eq h.counted
      settled := by
        intro hsettled
        have hnone : p.workers.count .starting = 0 := by
          refine List.count_eq_zero.mpr fun hmem => ?_
          exact absurd (hsettled _ hmem) (by simp [Phase.isSettled])
        rw [hbusy, hnone, Nat.add_zero] }

/-- A refused thread is not counted and takes no index. -/
theorem submit_refused (p : Pool α) (cause : String) (job : Job) :
    let q := (p.submit (some cause) job).2
    q.threads = p.threads ∧ q.busy = p.busy ∧ q.workers.length = p.workers.length ∧
      q.crew = p.crew := by
  have hgrow : (p.grow (some cause)).2.threads = p.threads ∧
      (p.grow (some cause)).2.busy = p.busy := by
    rcases p.grow_cases (some cause) with
      ⟨-, he⟩ | ⟨-, hnone, -⟩ | ⟨_, -, -, ⟨-, he⟩ | ⟨-, he⟩⟩
    · rw [he]
      exact ⟨rfl, rfl⟩
    · exact absurd hnone (by simp)
    · rw [he]
      exact ⟨rfl, rfl⟩
    · rw [he]
      exact ⟨rfl, rfl⟩
  rcases steady_submit p (some cause) job with hs | ⟨hnone, -⟩
  · refine ⟨?_, ?_, hs.length_eq, hs.crew_eq⟩
    all_goals rcases submit_cases p (some cause) job with ⟨-, he⟩ | ⟨e, -, -, he⟩ | ⟨-, -, he⟩
    all_goals rw [he]
    · rfl
    · exact hgrow.1
    · exact hgrow.1
    · rfl
    · exact hgrow.2
    · exact hgrow.2
  · exact absurd hnone (by simp)

end Pool

/-! ## 5. The pools of a program -/

namespace Program

variable {α : Type} {p : Program α}

theorem Reachable.enlisted (h : p.Reachable) {i : Nat} {pool : Pool α}
    (hi : p.system.pools[i]? = some pool) : pool.Enlisted :=
  h.pool_induct hi .create fun _ _ hq he hs => he.section hq hs

/-- A worker that looks for work next comes to its look with both counters positive: what it may
take off them is there. -/
theorem Reachable.counted_of_looksNext (h : p.Reachable) {i w : Nat} {pool : Pool α}
    {phase : Phase} (hi : p.system.pools[i]? = some pool) (hw : pool.workers[w]? = some phase)
    (hlooks : phase.looksNext = true) :
    ∃ q : Pool α, (p.act (.move (.worker i w))).system.pools[i]? = some (q.advance w) ∧
      q.threads = pool.threads ∧ q.busy = pool.busy + (if phase.isBusy then 0 else 1) ∧
      0 < q.busy ∧ q.busy ≤ q.threads := by
  obtain ⟨q, hlook, hq⟩ := System.perform_look hi (h.poolsSound i pool hi) hw hlooks
  exact ⟨q, hq, hlook.threads_eq, hlook.busy_eq,
    hlook.sound.counted.busy_pos hlook.starting rfl, hlook.sound.counted.busy_le⟩

/-- **The workers are counted.**  In every pool that is reached the counters come to what `Tallied`
says; a worker that may go off a count is on it; a thread that the system refuses changes no
counter and takes no index; and later on the crew only grows, and the number of threads with
it for as long as the pool is in use. -/
theorem workers_are_counted (h : p.Reachable) {i : Nat} {pool : Pool α}
    (hi : p.system.pools[i]? = some pool) :
    pool.Tallied ∧
    (∀ w phase, pool.workers[w]? = some phase → phase.looksNext = true →
      ∃ q : Pool α, (p.act (.move (.worker i w))).system.pools[i]? = some (q.advance w) ∧
        q.threads = pool.threads ∧ q.busy = pool.busy + (if phase.isBusy then 0 else 1) ∧
        0 < q.busy ∧ q.busy ≤ q.threads) ∧
    (∀ cause job, let q := (pool.submit (some cause) job).2
      q.threads = pool.threads ∧ q.busy = pool.busy ∧ q.workers.length = pool.workers.length ∧
        q.crew = pool.crew) ∧
    ∀ q, Leads p q → ∃ pool', q.system.pools[i]? = some pool' ∧ pool.crew <+: pool'.crew ∧
      (pool'.isActive = true → pool.isActive = true ∧ pool.threads ≤ pool'.threads) := by
  have hs := h.poolsSound i pool hi
  refine ⟨hs.tallied (h.enlisted hi), fun w phase hw => h.counted_of_looksNext hi hw,
    pool.submit_refused, fun q hq => ?_⟩
  obtain ⟨pool', hi', hsections⟩ := hq.sections hi
  obtain ⟨hcrew, hlength, hactive⟩ := hsections.crew_prefix hs
  refine ⟨pool', hi', hcrew, fun ha => ⟨hactive ha, ?_⟩⟩
  have hreach := h.leads hq
  calc pool.threads
      = pool.workers.length := (h.enlisted hi).threads_eq hs.counted (hactive ha)
    _ ≤ pool'.workers.length := hlength
    _ = pool'.threads :=
      ((hreach.enlisted hi').threads_eq (hreach.poolsSound i pool' hi').counted ha).symm

/-- Two submissions, the newer of which is claimed: one thread, which is busy. -/
theorem counting_tallies :
    let p := counting.run [.submit 0 0, .submit 0 0, .move (.worker 0 0)]
    ∃ pool, p.system.pools[0]? = some pool ∧ pool.crew = [(0, 1)] ∧ pool.inHand = [⟨1, 1⟩] ∧
      pool.Tallied := by
  intro p
  obtain ⟨pool, hi, hpool⟩ : ∃ pool, p.system.pools[0]? = some pool ∧
      (pool.crew, pool.inHand) = ([(0, 1)], [⟨1, 1⟩]) := Option.map_eq_some_iff.mp (by decide)
  obtain ⟨hcrew, hinHand⟩ := Prod.mk.inj hpool
  exact ⟨pool, hi, hcrew, hinHand, (workers_are_counted (counting_reachable (by decide)) hi).1⟩

end Program
end WorkerPool
