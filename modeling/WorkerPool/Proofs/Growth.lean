/-
# How many workers a pool starts

A submission starts a worker if it finds every worker of the pool busy.  A parked worker is idle to
it, also one that was told of an earlier submission and has not woken yet; such a pool is
`isLagging`, and a submission that finds it so may leave a record for which no worker is free.  That
is all that can go wrong (`Pool.Provided`): while a pool in use that was refused no thread has fewer
threads than it may have, the records that have not finished are as many as its threads at most,
plus one for each submission that found it lagging.

Between two accepted submissions the threads stay and no work is added (`Sections.kept`).  With what
an accepted one does (`accepted_cases`) two theorems follow by induction on the run:

* `growth_is_exact`: if every submission found the pool settled, there are as many threads as the
  peak of the unfinished records, up to the capacity;
* `work_waits_only_for_the_hurried`: whatever the submissions found, a record waits behind running
  bodies only, in a pool that may still grow, after a submission to a lagging pool.
-/
import WorkerPool.Proofs.Acceptances
import WorkerPool.Proofs.Workers

namespace WorkerPool

/-! ## 1. Definitions -/

/-- Whether the worker waits for work, told or not. -/
def Phase.isParked : Phase → Bool
  | parked _ => true
  | _ => false

/-- Whether the worker has claimed a record and not finished it. -/
def Phase.hasRecord (phase : Phase) : Bool := phase.ticket?.isSome

/-- Whether the system refused a thread. -/
def PoolNote.isRefusal : PoolNote → Bool
  | extraWorkerRefused _ => true
  | firstWorkerRefused _ => true
  | _ => false

/-- The number of records that wait or run. -/
def Queue.unfinished {S : Type → Type} [Slab S] {J : Type} (q : Queue S J) : Nat :=
  q.tickets.countP fun k => q.status? k != some .finished

namespace Pool

variable {α : Type} {p p' : Pool α}

/-- Whether the system has refused no thread so far. -/
def isGranted (p : Pool α) : Bool := p.journal.all fun n => !n.isRefusal

/-- Whether a record waits beside a parked worker. -/
def isLagging (p : Pool α) : Bool := p.workers.any Phase.isParked && !p.queue.waiting.isEmpty

/-- Whether every worker is parked or runs a body, and no record waits beside a parked one. -/
def isAtRest (p : Pool α) : Bool :=
  (p.workers.all fun phase => phase.isParked || phase.hasRecord) && !p.isLagging

/-- The tickets that wait and those that workers have in hand. -/
def load (p : Pool α) : Nat := p.queue.waiting.length + p.workers.countP Phase.hasRecord

/-- The threads suffice for all but `late` of the unfinished records, or there are no more to be
had. -/
def Provided (p : Pool α) (late : Nat) : Prop :=
  p.threads < p.plan.capacity → p.load ≤ p.threads + late

/-! ## 2. Workers and records, counted together -/

/-- The unfinished records are those that wait and those in the hands of workers. -/
theorem Sound.unfinished_eq (h : p.Sound) : p.queue.unfinished = p.load := by
  have hmem (k : Ticket) : k ∈ p.queue.tickets.filter (fun k => p.queue.status? k != some .finished)
      ↔ k ∈ p.queue.waiting ++ p.queue.running := by
    rw [List.mem_append, h.queue.waiting_iff, h.staffed.mem_running, ← h.staffed.mem_running,
      Queue.running, List.mem_filter, List.mem_filter, Queue.mem_tickets, Queue.status?]
    cases p.queue.get? k with
    | none => simp
    | some r => cases hs : r.status <;> simp [hs]
  have hnodup : (p.queue.waiting ++ p.queue.running).Nodup := by
    refine List.nodup_append'.mpr ⟨h.waiting_nodup, p.queue.nodup_tickets.filter _, ?_⟩
    intro k hk hk'
    rw [h.queue.waiting_iff] at hk
    rw [Queue.running, List.mem_filter, decide_eq_true_eq, hk] at hk'
    exact absurd hk'.2 (by simp)
  have hperm := (List.perm_ext_iff_of_nodup (p.queue.nodup_tickets.filter _) hnodup).mpr hmem
  calc p.queue.unfinished
      = (p.queue.tickets.filter fun k => p.queue.status? k != some .finished).length :=
        List.countP_eq_length_filter
    _ = (p.queue.waiting ++ p.queue.running).length := hperm.length_eq
    _ = p.load := by rw [List.length_append, h.staffed.length_running, load]; rfl

/-- Every worker that has a record is busy. -/
theorem countP_hasRecord_le (h : p.Counted) : p.workers.countP Phase.hasRecord ≤ p.busy := by
  rw [h.busy_eq]
  refine List.countP_mono_left fun phase _ hrecord => ?_
  cases phase <;> simp_all [Phase.hasRecord, Phase.ticket?, Phase.isBusy]

/-- In a pool that nobody has left, the workers that have a record are as many as the threads, if
all have one. -/
theorem countP_hasRecord_eq (hlen : p.threads = p.workers.length)
    (hall : ∀ phase ∈ p.workers, phase.hasRecord = true) :
    p.workers.countP Phase.hasRecord = p.threads := by
  rw [hlen]
  exact List.countP_eq_length.mpr hall

/-- A pool at rest does not lag. -/
theorem isLagging_of_isAtRest (h : p.isAtRest = true) : p.isLagging = false := by
  simpa using ((Bool.and_eq_true _ _).mp h).2

/-- Where some worker is not busy, it is parked. -/
theorem Counted.exists_parked (h : p.Counted) (hlt : p.busy < p.threads) :
    ∃ phase ∈ p.workers, phase.isParked = true := by
  by_contra hnone
  have hall : ∀ phase ∈ p.workers, phase.isIn = true → phase.isBusy = true := by
    intro phase hmem hin
    cases phase with
    | parked notified => exact absurd ⟨_, hmem, rfl⟩ hnone
    | exited => exact hin
    | _ => rfl
  have hle : p.threads ≤ p.busy := by
    rw [h.threads_eq, h.busy_eq]
    exact List.countP_mono_left hall
  exact absurd hlt (Nat.not_lt.mpr hle)

/-- No record waits in a pool that does not lag and has a worker that is not busy. -/
theorem Counted.waiting_eq_nil (h : p.Counted) (hlt : p.busy < p.threads)
    (hlag : p.isLagging = false) : p.queue.waiting = [] := by
  obtain ⟨phase, hmem, hparked⟩ := h.exists_parked hlt
  have hany : p.workers.any Phase.isParked = true := List.any_eq_true.mpr ⟨phase, hmem, hparked⟩
  simpa [isLagging, hany] using hlag

/-- At rest, all workers run a body if a record waits. -/
theorem Counted.load_eq (h : p.Counted) (hrest : p.isAtRest = true)
    (hwait : p.queue.waiting ≠ []) (hlen : p.threads = p.workers.length) :
    p.load = p.queue.waiting.length + p.threads ∧ p.busy = p.threads := by
  have hplaced := ((Bool.and_eq_true _ _).mp hrest).1
  have hlag := isLagging_of_isAtRest hrest
  have hall : ∀ phase ∈ p.workers, phase.hasRecord = true := by
    intro phase hmem
    have hphase := List.all_eq_true.mp hplaced phase hmem
    have hnot : phase.isParked = false := by
      by_contra hparked
      have hany : p.workers.any Phase.isParked = true :=
        List.any_eq_true.mpr ⟨phase, hmem, by simpa using hparked⟩
      simp [isLagging, hany, hwait] at hlag
    simpa [hnot] using hphase
  have hrecords := countP_hasRecord_eq hlen hall
  refine ⟨by rw [load, hrecords], Nat.le_antisymm h.busy_le ?_⟩
  exact hrecords ▸ countP_hasRecord_le h

/-! ## 3. What a section does to them -/

/-- The plan stays, notes are added, and no work is. -/
structure Eased (p p' : Pool α) : Prop where
  plan_eq : p'.plan = p.plan
  journal_suffix : p.journal <:+ p'.journal
  load_le : p'.load ≤ p.load

theorem Eased.refl (p : Pool α) : Eased p p := ⟨rfl, List.suffix_rfl, Nat.le_refl _⟩

theorem Eased.trans {p'' : Pool α} (h : Eased p p') (h' : Eased p' p'') : Eased p p'' :=
  ⟨h'.plan_eq.trans h.plan_eq, h.journal_suffix.trans h'.journal_suffix,
    Nat.le_trans h'.load_le h.load_le⟩

/-- Standing, counters, records that do not wait, results and checks play no part. -/
theorem Eased.congr {p'' : Pool α} (h : Eased p p') (hp : p''.plan = p'.plan)
    (hj : p''.journal = p'.journal) (hq : p''.queue.waiting = p'.queue.waiting)
    (hw : p''.workers = p'.workers) : Eased p p'' :=
  ⟨hp.trans h.plan_eq, hj ▸ h.journal_suffix, by simpa only [load, hq, hw] using h.load_le⟩

theorem Eased.note (h : Eased p p') (n : PoolNote) : Eased p (p'.note n) :=
  ⟨h.plan_eq, h.journal_suffix.trans (List.suffix_cons n _), h.load_le⟩

/-- A worker goes to a phase without a record, or had one before. -/
theorem Eased.setPhase (h : Eased p p') {w : Nat} {old phase : Phase}
    (hw : p'.workers[w]? = some old) (hphase : phase.hasRecord = true → old.hasRecord = true) :
    Eased p (p'.setPhase w phase) := by
  refine ⟨h.plan_eq, h.journal_suffix, Nat.le_trans ?_ h.load_le⟩
  have hcount := countP_setPhase hw phase Phase.hasRecord
  have hle : (if phase.hasRecord then 1 else 0) ≤ if old.hasRecord then 1 else 0 := by
    cases hnew : phase.hasRecord with
    | false => simp
    | true => simp [hphase hnew]
  show p'.queue.waiting.length + (p'.setPhase w phase).workers.countP Phase.hasRecord ≤ p'.load
  rw [load]
  omega

theorem Eased.mapWorkers (h : Eased p p') (f : Phase → Phase)
    (hf : ∀ phase, (f phase).hasRecord = phase.hasRecord) :
    Eased p { p' with workers := p'.workers.map f } := by
  refine ⟨h.plan_eq, h.journal_suffix, Nat.le_trans (Nat.le_of_eq ?_) h.load_le⟩
  have hcount : (p'.workers.map f).countP Phase.hasRecord = p'.workers.countP Phase.hasRecord := by
    rw [List.countP_map]
    exact List.countP_congr fun phase _ => by simp [hf]
  rw [load, load, hcount]

theorem hasRecord_notify (phase : Phase) : phase.notify.hasRecord = phase.hasRecord := by
  cases phase <;> rfl

/-- A phase without a record adds none. -/
theorem idle (phase : Phase) (hphase : phase.hasRecord = false) {old : Phase} :
    phase.hasRecord = true → old.hasRecord = true :=
  fun hrecord => absurd (hphase.symm.trans hrecord) (by simp)

theorem eased_advance (h : p.queue.Sound) {w : Nat} (hw : p.workers[w]? = some .starting) :
    Eased p (p.advance w) := by
  rcases advance_cases h w with
    ⟨k, rest, r, job, hwait, -, -, -, he⟩ | ⟨-, ⟨-, he⟩ | ⟨-, he⟩⟩ <;> rw [he]
  · -- the record goes from those that wait to those in hand
    refine ⟨rfl, List.suffix_cons _ _, Nat.le_of_eq ?_⟩
    have hcount := countP_setPhase hw (.executing k job .entering) Phase.hasRecord
    show rest.length + (p.setPhase w (.executing k job .entering)).workers.countP Phase.hasRecord =
      p.load
    have hstarting : Phase.starting.hasRecord = false := rfl
    have hexecuting : (Phase.executing k job .entering).hasRecord = true := rfl
    rw [hstarting, hexecuting] at hcount
    simp only [Bool.false_eq_true, if_false, if_true, Nat.add_zero] at hcount
    rw [load, hwait, hcount, List.length_cons]
    omega
  · have hbusy : Eased p { p with busy := p.busy - 1 } := (Eased.refl p).congr rfl rfl rfl rfl
    exact hbusy.setPhase hw (idle (.parked false) rfl)
  · have hleft : Eased p { p with
        busy := p.busy - 1, threads := p.threads - 1, standing := p.standing.notify } :=
      (Eased.refl p).congr rfl rfl rfl rfl
    exact (hleft.setPhase hw (idle .exited rfl)).note _

theorem eased_awaitWorkers (h : Eased p p') : Eased p p'.awaitWorkers := by
  unfold Pool.awaitWorkers
  split
  · have hstopped : Eased p { p' with standing := .stopped } := h.congr rfl rfl rfl rfl
    exact hstopped.note .shutDown
  · exact h.congr rfl rfl rfl rfl

/-- A submission that takes no number is refused, and noted. -/
theorem submit_of_next_eq {refusal : Option String} {job : Job}
    (hnext : (p.submit refusal job).2.queue.next = p.queue.next) :
    ∃ n : PoolNote, n.started? = none ∧ (p.submit refusal job).2 = p.note n := by
  rcases submit_cases p refusal job with ⟨-, hs⟩ | ⟨_, -, hgrow, hs⟩ | ⟨-, -, hs⟩
  · exact ⟨_, rfl, by rw [hs]⟩
  · rw [hs]
    rcases p.grow_cases refusal with ⟨-, hg⟩ | ⟨-, -, hg⟩ | ⟨_, -, -, ⟨-, hg⟩ | ⟨-, hg⟩⟩
    · exact absurd hgrow (by simp [hg])
    · exact absurd hgrow (by simp [hg])
    · exact ⟨_, rfl, by rw [hg]⟩
    · exact ⟨_, rfl, by rw [hg]⟩
  · have hpushed : p.queue.next = p.queue.next + 1 := by
      calc p.queue.next = ((p.grow refusal).2.queue.pushed job).next := by rw [← hnext, hs]; rfl
        _ = p.queue.next + 1 := by rw [Queue.next_pushed, queue_grow]
    omega

/-- A section that accepts no submission adds no work. -/
theorem Section.eased (hs : Section p p') (h : p.Sound) (hnext : p'.queue.next = p.queue.next) :
    Eased p p' := by
  have hrefl := Eased.refl p
  cases hs with
  | submit hactive refusal job =>
    obtain ⟨n, -, hn⟩ := submit_of_next_eq hnext
    rw [hn]
    exact hrefl.note n
  | advance hw => exact eased_advance h.queue hw
  | wake hw =>
    have hbusy : Eased p { p with busy := p.busy + 1 } := hrefl.congr rfl rfl rfl rfl
    have hwoken := hbusy.setPhase hw (idle .starting rfl)
    have hadvance := eased_advance (h.woken hw).queue
      (workers_setPhase_self (p := { p with busy := p.busy + 1 }) hw .starting)
    rw [advance_setPhase] at hadvance
    exact hwoken.trans hadvance
  | enterBody hw hs => exact hrefl.setPhase hw fun _ => rfl
  | panicBody hw => exact (hrefl.note _).setPhase hw fun _ => rfl
  | @returnBody w run k job hw v =>
    have hput : Eased p (p.putResult k v) := by
      unfold putResult
      split <;> exact hrefl.congr rfl rfl rfl rfl
    exact hput.setPhase ((congrArg (·[_]?) (workers_putResult p k v)).trans hw) fun _ => rfl
  | @finish w k job hw =>
    obtain ⟨r, hr, -, he⟩ := h.finish_eq hw
    have hended : Eased p (p.ended w k r.detached) := by
      have hqueue : Eased p { p with queue := p.queue.finished k } :=
        hrefl.congr rfl rfl (Queue.waiting_finished _ _) rfl
      exact (hqueue.note (.finished w k.number r.detached)).setPhase hw (idle .starting rfl)
    rw [he]
    exact hended.trans (eased_advance (h.ended hw _).queue (workers_setPhase_self hw .starting))
  | openGate task run =>
    exact hrefl.mapWorkers _ fun phase => by cases phase <;> rfl
  | join k => exact hrefl.congr rfl rfl (Queue.waiting_update _ _ _) rfl
  | detach k => exact hrefl.congr rfl rfl (Queue.waiting_detach _ _) rfl
  | unlink k =>
    rcases p.unlink_cases k with he | he | ⟨f, he⟩ <;> rw [he]
    · exact hrefl
    · exact hrefl.congr rfl rfl (Queue.waiting_unlink _ _) rfl
    · exact hrefl.congr rfl rfl rfl rfl
  | shutdown hactive =>
    unfold Pool.shutdown
    split
    · have hstopping : Eased p { p with standing := .stopping false } :=
        hrefl.congr rfl rfl rfl rfl
      exact eased_awaitWorkers (hstopping.mapWorkers _ hasRecord_notify)
    · exact hrefl.note _
  | awaitWorkers hwoken => exact eased_awaitWorkers hrefl
  | drop =>
    unfold Pool.drop
    split
    · have hdropped : Eased p { p with standing := .dropped } := hrefl.congr rfl rfl rfl rfl
      exact (hdropped.mapWorkers _ hasRecord_notify).note _
    · exact hrefl

/-- What an accepted submission does: one worker is started if one is wanted, unless the system
refuses it, and there is one more record. -/
theorem accepted_cases {refusal : Option String} {job : Job} {ticket : Ticket}
    (hok : (p.submit refusal job).1 = .ok ticket)
    (hgranted : (p.submit refusal job).2.isGranted = true) :
    let q := (p.submit refusal job).2
    q.plan = p.plan ∧ q.isActive = p.isActive ∧ p.isGranted = true ∧ q.load = p.load + 1 ∧
      (p.wantsWorker = true ∧ q.threads = p.threads + 1 ∨
        p.wantsWorker = false ∧ q.threads = p.threads) := by
  have hlinked (g : Pool α) : (g.linked job).load = g.load + 1 := by
    have hworkers := ((Eased.refl g).mapWorkers Phase.notify hasRecord_notify).load_le
    have hcount : (g.workers.map Phase.notify).countP Phase.hasRecord =
        g.workers.countP Phase.hasRecord := by
      rw [List.countP_map]
      exact List.countP_congr fun phase _ => by simp [hasRecord_notify]
    show (g.queue.pushed job).waiting.length + (g.workers.map Phase.notify).countP _ = _
    rw [hcount, Queue.pushed, List.length_cons, load]
    omega
  have hnotes (g : Pool α) (hg : (g.linked job).isGranted = true) : g.isGranted = true := by
    simp only [isGranted, List.all_eq_true] at hg ⊢
    exact fun n hn => hg n (List.mem_cons_of_mem _ hn)
  rcases submit_cases p refusal job with ⟨-, he⟩ | ⟨_, -, -, he⟩ | ⟨-, -, he⟩
  · exact absurd hok (by simp [he])
  · exact absurd hok (by simp [he])
  rw [he] at hgranted ⊢
  have hgrown := hnotes _ hgranted
  rcases p.grow_cases refusal with
    ⟨hwant, hg⟩ | ⟨hwant, -, hg⟩ | ⟨_, -, -, ⟨-, hg⟩ | ⟨-, hg⟩⟩ <;> rw [hg] at hgrown ⊢
  · exact ⟨rfl, rfl, hgrown, hlinked p, Or.inr ⟨hwant, rfl⟩⟩
  · refine ⟨rfl, rfl, ?_, ?_, Or.inl ⟨hwant, rfl⟩⟩
    · simp only [isGranted, List.all_eq_true] at hgrown ⊢
      exact fun n hn => hgrown n (List.mem_cons_of_mem _ hn)
    · rw [hlinked]
      simp [load, startWorker, Pool.note, Phase.hasRecord, Phase.ticket?]
  · exact absurd hgrown (by simp [isGranted, Pool.note, PoolNote.isRefusal])
  · exact absurd hgrown (by simp [isGranted, Pool.note, PoolNote.isRefusal])

/-- The threads of a pool in use are those that were there before, if no submission was accepted. -/
theorem Section.threads_eq (hs : Section p p') (h : p.Sound) (henlisted : p.Enlisted)
    (hnext : p'.queue.next = p.queue.next) (hactive : p'.isActive = true) :
    p.isActive = true ∧ p'.threads = p.threads := by
  have hsteady : Steady p p' := by
    rcases hs.steady h with hsteady | ⟨refusal, job, -, rfl⟩
    · exact hsteady
    · obtain ⟨n, hstarted, hn⟩ := submit_of_next_eq hnext
      rw [hn]
      exact (Steady.refl p).note hstarted
  have hbefore := hsteady.active hactive
  refine ⟨hbefore, ?_⟩
  calc p'.threads
      = p'.workers.length := (henlisted.section h hs).threads_eq (h.section hs).counted hactive
    _ = p.workers.length := hsteady.length_eq
    _ = p.threads := (henlisted.threads_eq h.counted hbefore).symm

/-- While a pool in use accepts nothing, its threads stay and no work is added. -/
theorem Sections.kept (hs : Sections p p') (h : p.Sound) (henlisted : p.Enlisted)
    (hnext : p'.queue.next = p.queue.next) (hactive : p'.isActive = true) :
    p.isActive = true ∧ p'.threads = p.threads ∧ Eased p p' := by
  induction hs with
  | refl => exact ⟨hactive, rfl, .refl p⟩
  | @tail q p' hpq hs ih =>
    have hq := Sections.sound hpq h
    have hmono : p.queue.next ≤ q.queue.next :=
      Sections.induct (P := fun q => p.queue.next ≤ q.queue.next) hpq h (Nat.le_refl _)
        fun _ _ hq hle hs => Nat.le_trans hle (hs.next_le hq)
    have henlistedq : q.Enlisted :=
      Sections.induct hpq h henlisted fun _ _ hq he hs => he.section hq hs
    have hstep : p'.queue.next = q.queue.next :=
      Nat.le_antisymm (hnext ▸ hmono) (hs.next_le hq)
    obtain ⟨hactiveq, hthreads⟩ := hs.threads_eq hq henlistedq hstep hactive
    obtain ⟨hactivep, hthreads', heased⟩ := ih (hstep.symm.trans hnext) hactiveq
    exact ⟨hactivep, hthreads.trans hthreads', heased.trans (hs.eased hq hstep)⟩

theorem Eased.isGranted (h : Eased p p') (hgranted : p'.isGranted = true) :
    p.isGranted = true :=
  List.all_eq_true.mpr fun n hn => List.all_eq_true.mp hgranted n (h.journal_suffix.mem hn)

theorem Eased.provided (h : Eased p p') (hthreads : p'.threads = p.threads) {late : Nat}
    (hp : p.Provided late) : p'.Provided late := by
  intro hlt
  rw [h.plan_eq, hthreads] at hlt
  rw [hthreads]
  exact Nat.le_trans h.load_le (hp hlt)

/-! ## 4. What a submission finds -/

/-- Where no worker is wanted although there may be more, some worker is not busy. -/
theorem busy_lt_of_not_wantsWorker (h : p.Counted) (hwant : p.wantsWorker = false)
    (hlt : p.threads < p.plan.capacity) : p.busy < p.threads := by
  have hne : p.busy ≠ p.threads := by
    simpa [wantsWorker, hlt] using hwant
  exact Nat.lt_of_le_of_ne h.busy_le hne

/-- A worker that is not busy has no record, and none waits unless the pool lags. -/
theorem load_lt_of_not_wantsWorker (h : p.Counted) (hwant : p.wantsWorker = false)
    (hlt : p.threads < p.plan.capacity) (hlag : p.isLagging = false) : p.load < p.threads := by
  have hbusy := busy_lt_of_not_wantsWorker h hwant hlt
  have hrecords := countP_hasRecord_le h
  rw [load, h.waiting_eq_nil hbusy hlag, List.length_nil]
  omega

/-- A submission that finds the pool lagging may be one too many. -/
theorem accepted_provided {refusal : Option String} {job : Job} {ticket : Ticket} (h : p.Counted)
    (hok : (p.submit refusal job).1 = .ok ticket)
    (hgranted : (p.submit refusal job).2.isGranted = true) {late : Nat} (hp : p.Provided late) :
    (p.submit refusal job).2.Provided (late + if p.isLagging then 1 else 0) := by
  obtain ⟨hplan, -, -, hload, hthreads⟩ := accepted_cases hok hgranted
  intro hlt
  rw [hplan] at hlt
  rw [hload]
  rcases hthreads with ⟨hwant, ht⟩ | ⟨hwant, ht⟩ <;> rw [ht] at hlt ⊢
  · have := hp (Nat.lt_of_succ_lt hlt)
    omega
  · cases hlag : p.isLagging with
    | true =>
      have := hp hlt
      simp only [if_true]
      omega
    | false =>
      have := load_lt_of_not_wantsWorker h hwant hlt hlag
      omega

/-- A submission that finds the pool at rest leaves as many threads as there are records, if there
may be so many and there were not as many before. -/
theorem accepted_exact {refusal : Option String} {job : Job} {ticket : Ticket} (h : p.Counted)
    (henlisted : p.Enlisted) (hactive : p.isActive = true) (hrest : p.isAtRest = true)
    (hp : p.Provided 0) (hok : (p.submit refusal job).1 = .ok ticket)
    (hgranted : (p.submit refusal job).2.isGranted = true) :
    let q := (p.submit refusal job).2
    q.threads = max (min q.plan.capacity q.load) p.threads := by
  obtain ⟨hplan, -, -, hload, hthreads⟩ := accepted_cases hok hgranted
  have hcapacity := h.threads_le
  dsimp only
  rw [hplan, hload]
  rcases hthreads with ⟨hwant, ht⟩ | ⟨hwant, ht⟩ <;> rw [ht]
  · -- nobody is parked, so that everybody has a record
    obtain ⟨hbusy, hlt⟩ : p.busy = p.threads ∧ p.threads < p.plan.capacity := by
      simpa [wantsWorker] using hwant
    have hall : ∀ phase ∈ p.workers, phase.hasRecord = true := by
      intro phase hmem
      have hplaced := List.all_eq_true.mp ((Bool.and_eq_true _ _).mp hrest).1 phase hmem
      have hin : p.workers.countP Phase.isBusy = p.workers.length := by
        rw [← h.busy_eq, hbusy, henlisted.threads_eq h hactive]
      have hisBusy := List.countP_eq_length.mp hin phase hmem
      cases phase <;> simp_all [Phase.isParked, Phase.isBusy]
    have hrecords := countP_hasRecord_eq (henlisted.threads_eq h hactive) hall
    have hle := hp hlt
    rw [load, hrecords] at hle ⊢
    omega
  · rcases Nat.lt_or_ge p.threads p.plan.capacity with hlt | hge
    · have := load_lt_of_not_wantsWorker h hwant hlt (isLagging_of_isAtRest hrest)
      omega
    · omega

end Pool

namespace Program

variable {α : Type}

/-! ## 5. Runs -/

/-- The most threads that the accepted submissions called for, each by itself. -/
def peak (xs : List (Acceptance α)) : Nat :=
  xs.foldr (fun x n => max (min x.left.plan.capacity x.left.queue.unfinished) n) 0

theorem peak_concat (xs : List (Acceptance α)) (x : Acceptance α) :
    peak (xs ++ [x]) = max (min x.left.plan.capacity x.left.queue.unfinished) (peak xs) := by
  induction xs with
  | nil => rfl
  | cons y rest ih =>
    have hcons (ys : List (Acceptance α)) : peak (y :: ys) =
        max (min y.left.plan.capacity y.left.queue.unfinished) (peak ys) := rfl
    rw [List.cons_append, hcons, ih, hcons, Nat.max_left_comm]

/-- Nobody is late where every submission finds the pool at rest. -/
theorem countP_lagging_eq_zero {xs : List (Acceptance α)}
    (h : ∀ x ∈ xs, x.found.isAtRest = true) : xs.countP (·.found.isLagging) = 0 :=
  List.countP_eq_zero.mpr fun x hx hlag =>
    absurd ((Pool.isLagging_of_isAtRest (h x hx)).symm.trans hlag) (by simp)

/-- **The threads suffice for all but the late.**  They suffice exactly if nobody was late. -/
theorem sized_run {n i : Nat} {as : List (Action α)} {pool : Pool α}
    (hallows : (start n).Allows as) (hi : ((start n).run as).system.pools[i]? = some pool)
    (hactive : pool.isActive = true) (hgranted : pool.isGranted = true) :
    let xs := (start n).acceptances i as
    pool.Provided (xs.countP (·.found.isLagging)) ∧
      ((∀ x ∈ xs, x.found.isAtRest = true) → pool.threads = peak xs) := by
  induction as using List.reverseRecOn generalizing pool with
  | nil => exact absurd hi (by simp [run, start, System.start])
  | append_singleton as a ih =>
    have hallows' := ((allows_append _ _ _).mp hallows).1
    have ih := @ih
    have hreach : ((start n).run as).Reachable := ⟨n, leads_run as _ hallows'⟩
    dsimp only
    rcases acceptances_concat hallows hi with
      ⟨hnone, hxs, hnext, id, plan, hs⟩ | ⟨found, hfound, hxs, hs, hnext⟩ |
        ⟨found, refusal, job, ticket, hfound, hxs, hactivef, hok, hs, hqueue⟩
    · -- a new pool has no threads and nothing to do
      have hnil : (start n).acceptances i as = [] :=
        List.eq_nil_of_length_eq_zero ((length_acceptances hallows').trans (by rw [hnone]; rfl))
      obtain ⟨-, hthreads, heased⟩ := hs.kept (.create id plan) (.create id plan) hnext hactive
      have hload : pool.load ≤ 0 := heased.load_le
      rw [hxs, hnil]
      exact ⟨fun _ => Nat.le_trans hload (Nat.zero_le _), fun _ => hthreads⟩
    · obtain ⟨hactivef, hthreads, heased⟩ :=
        hs.kept (hreach.poolsSound i found hfound) (hreach.enlisted hfound) hnext hactive
      obtain ⟨hprovided, hexact⟩ :=
        ih hallows' hfound hactivef (heased.isGranted hgranted)
      rw [hxs]
      exact ⟨heased.provided hthreads hprovided, fun hrest => hthreads.trans (hexact hrest)⟩
    · have hsound := hreach.poolsSound i found hfound
      have henlisted := hreach.enlisted hfound
      have hsubmit : Pool.Section found (found.submit refusal job).2 := .submit hactivef refusal job
      obtain ⟨-, hthreads, heased⟩ :=
        hs.kept (hsound.section hsubmit) (henlisted.section hsound hsubmit)
          (congrArg Queue.next hqueue) hactive
      have hgranted' := heased.isGranted hgranted
      obtain ⟨-, -, hgrantedf, hload, -⟩ := Pool.accepted_cases hok hgranted'
      obtain ⟨hprovided, hexact⟩ := ih hallows' hfound hactivef hgrantedf
      rw [hxs]
      constructor
      · rw [List.countP_append, List.countP_singleton]
        exact heased.provided hthreads
          (Pool.accepted_provided hsound.counted hok hgranted' hprovided)
      · intro hrest
        have hrest' : ∀ x ∈ (start n).acceptances i as, x.found.isAtRest = true :=
          fun x hx => hrest x (List.mem_append_left _ hx)
        have hrestf : found.isAtRest = true :=
          hrest ⟨found, pool⟩ (List.mem_append_right _ (List.mem_singleton_self _))
        rw [countP_lagging_eq_zero hrest'] at hprovided
        have hunfinished : pool.queue.unfinished = (found.submit refusal job).2.load := by
          rw [hqueue, (hsound.section hsubmit).unfinished_eq]
        rw [peak_concat, ← hexact hrest', hthreads, heased.plan_eq, hunfinished]
        exact Pool.accepted_exact hsound.counted henlisted hactivef hrestf hprovided hok hgranted'

/-- **Growth is exact.**  Take a pool in use that was refused no thread and was at rest at each
submission that it accepted.  It has as many threads as the peak of the records that had not
finished, up to its capacity.  So when it is at rest and a record waits, it has all the threads
that it may have, and each of them is busy. -/
theorem growth_is_exact {n i : Nat} {as : List (Action α)} {pool : Pool α}
    (hallows : (start n).Allows as) (hi : ((start n).run as).system.pools[i]? = some pool)
    (hactive : pool.isActive = true) (hgranted : pool.isGranted = true)
    (hfound : ∀ x ∈ (start n).acceptances i as, x.found.isAtRest = true) :
    pool.threads = peak ((start n).acceptances i as) ∧
    (pool.isAtRest = true → (∃ k, pool.queue.status? k = some .queued) →
      pool.threads = pool.plan.capacity ∧ pool.busy = pool.plan.capacity) := by
  obtain ⟨hprovided, hexact⟩ := sized_run hallows hi hactive hgranted
  refine ⟨hexact hfound, fun hrest ⟨k, hk⟩ => ?_⟩
  have hreach : ((start n).run as).Reachable := ⟨n, leads_run as _ hallows⟩
  have hsound := hreach.poolsSound i pool hi
  have hwait : pool.queue.waiting ≠ [] :=
    List.ne_nil_of_mem ((hsound.queue.waiting_iff k).mpr hk)
  obtain ⟨hload, hbusy⟩ := hsound.counted.load_eq hrest hwait
    ((hreach.enlisted hi).threads_eq hsound.counted hactive)
  have hlate := countP_lagging_eq_zero hfound
  have hfull : pool.threads = pool.plan.capacity := by
    by_contra hne
    have hle := hprovided (Nat.lt_of_le_of_ne hsound.counted.threads_le hne)
    have hpos := List.length_pos_iff.mpr hwait
    omega
  exact ⟨hfull, hbusy.trans hfull⟩

/-- A pool for two workers.  The only one so far has run a body and parked; the body waits at a gate
from its second run on. -/
def rested : List (Action Nat) :=
  [.addPool "pool" ⟨"pool", 2, 3, none, by decide, by decide, by decide, by decide⟩,
    .addTask "task" ⟨.count, .only [2, 3], .never, 0⟩,
    .submit 0 0, .move (.worker 0 0), .move (.worker 0 0), .move (.worker 0 0),
    .move (.worker 0 0)]

/-- Two submissions, the second of which comes when the worker is in the body of the first: there
are two threads then, as there are two records. -/
theorem rested_grows_to_the_peak :
    let as := rested ++ [.submit 0 0, .move (.worker 0 0), .move (.worker 0 0), .submit 0 0]
    ∃ pool, ((start 1).run as).system.pools[0]? = some pool ∧
      (∀ x ∈ (start 1).acceptances 0 as, x.found.isAtRest = true) ∧
      pool.threads = 2 ∧ peak ((start 1).acceptances 0 as) = 2 := by
  intro as
  obtain ⟨pool, hi, hpool⟩ : ∃ pool, ((start 1).run as).system.pools[0]? = some pool ∧
      (pool.isActive, pool.isGranted, pool.threads) = (true, true, 2) :=
    Option.map_eq_some_iff.mp (by decide)
  obtain ⟨hactive, hpool⟩ := Prod.mk.inj hpool
  obtain ⟨hgranted, hthreads⟩ := Prod.mk.inj hpool
  have hfound : ∀ x ∈ (start 1).acceptances 0 as, x.found.isAtRest = true := by decide
  have hexact := (growth_is_exact (by decide) hi hactive hgranted hfound).1
  exact ⟨pool, hi, hfound, hthreads, hexact ▸ hthreads⟩

/-! ## 6. Submissions in a hurry -/

/-- A submission that comes between the wake-up call of a worker and its look at the records leaves
a record behind a running body, in a pool that has one of two threads. -/
theorem hurried_record_waits :
    ∃ as : List (Action Nat), (start 1).Allows as ∧
      ∃ pool, ((start 1).run as).system.pools[0]? = some pool ∧
        pool.isActive = true ∧ pool.isGranted = true ∧
        (∃ k, pool.queue.status? k = some .queued) ∧
        (∀ phase ∈ pool.workers, phase.blockedRun?.isSome = true) ∧
        pool.threads < pool.plan.capacity := by
  let as := rested ++ [.submit 0 0, .submit 0 0, .move (.worker 0 0), .move (.worker 0 0)]
  have hrun : ((start 1).run as).system.pools[0]?.any (fun pool =>
      decide (pool.isActive = true ∧ pool.isGranted = true ∧
        pool.queue.status? ⟨1, 1⟩ = some .queued ∧
        (∀ phase ∈ pool.workers, phase.blockedRun?.isSome = true) ∧
        pool.threads < pool.plan.capacity)) = true := by decide
  obtain ⟨pool, hi, hpool⟩ := (Option.any_eq_true _ _).mp hrun
  obtain ⟨hactive, hgranted, hk, hblocked, hlt⟩ := of_decide_eq_true hpool
  exact ⟨as, by decide, pool, hi, hactive, hgranted, ⟨_, hk⟩, hblocked, hlt⟩

/-- **Work waits only for the hurried.**  Take a pool in use that was refused no thread, whatever
its submissions found.  While it has fewer threads than it may have, its unfinished records exceed
them by no more than the submissions that it accepted while lagging.  So if a record waits although
every worker runs a body and there may be more of them, then some submission found the pool lagging:
a record waited for a worker that was told and had not woken. -/
theorem work_waits_only_for_the_hurried {n i : Nat} {as : List (Action α)} {pool : Pool α}
    (hallows : (start n).Allows as) (hi : ((start n).run as).system.pools[i]? = some pool)
    (hactive : pool.isActive = true) (hgranted : pool.isGranted = true) :
    let xs := (start n).acceptances i as
    (pool.threads < pool.plan.capacity →
      pool.queue.unfinished ≤ pool.threads + xs.countP (·.found.isLagging)) ∧
    ((∃ k, pool.queue.status? k = some .queued) →
      (∀ phase ∈ pool.workers, phase.hasRecord = true) → pool.threads < pool.plan.capacity →
      ∃ x ∈ xs, x.found.isLagging = true) ∧
    ∀ x ∈ xs, x.found.isLagging = true →
      (∃ k, x.found.queue.status? k = some .queued) ∧
        .parked true ∈ x.found.workers ∧ .parked false ∉ x.found.workers := by
  obtain ⟨hprovided, -⟩ := sized_run hallows hi hactive hgranted
  have hreach : ((start n).run as).Reachable := ⟨n, leads_run as _ hallows⟩
  have hsound := hreach.poolsSound i pool hi
  refine ⟨fun hlt => hsound.unfinished_eq ▸ hprovided hlt, ?_, fun x hx hlag => ?_⟩
  · rintro ⟨k, hk⟩ hall hlt
    by_contra hnone
    have hlate : ((start n).acceptances i as).countP (·.found.isLagging) = 0 :=
      List.countP_eq_zero.mpr fun x hx hlag => hnone ⟨x, hx, hlag⟩
    have hrecords :=
      Pool.countP_hasRecord_eq ((hreach.enlisted hi).threads_eq hsound.counted hactive) hall
    have hpos := List.length_pos_iff.mpr
      (List.ne_nil_of_mem ((hsound.queue.waiting_iff k).mpr hk))
    have hle := hprovided hlt
    rw [hlate, Pool.load, hrecords] at hle
    omega
  · have hfound := acceptances_sound ⟨n, .refl⟩ hallows x hx
    obtain ⟨hany, hwaiting⟩ := (Bool.and_eq_true _ _).mp hlag
    have hne : x.found.queue.waiting ≠ [] := by simpa using hwaiting
    have htold : .parked false ∉ x.found.workers := by
      intro hmem
      obtain ⟨w, hw⟩ := List.getElem?_of_mem hmem
      exact hfound.alert.told (Or.inl hne) w hw
    obtain ⟨phase, hmem, hparked⟩ := List.any_eq_true.mp hany
    obtain ⟨k, hk⟩ := List.exists_mem_of_ne_nil _ hne
    refine ⟨⟨k, (hfound.queue.waiting_iff k).mp hk⟩, ?_, htold⟩
    rcases phase with _ | _ | _ | _
    · exact absurd hparked (by simp [Phase.isParked])
    · next notified =>
      cases notified with
      | false => exact absurd hmem htold
      | true => exact hmem
    · exact absurd hparked (by simp [Phase.isParked])
    · exact absurd hparked (by simp [Phase.isParked])

/-- The run of `hurried_record_waits`: the second submission found the first one waiting. -/
theorem rested_waits_for_the_hurried :
    let as := rested ++ [.submit 0 0, .submit 0 0, .move (.worker 0 0), .move (.worker 0 0)]
    ∃ pool, ((start 1).run as).system.pools[0]? = some pool ∧ pool.threads = 1 ∧
      pool.queue.unfinished ≤ 2 ∧ ∃ x ∈ (start 1).acceptances 0 as, x.found.isLagging = true := by
  intro as
  have hrun : ((start 1).run as).system.pools[0]?.any (fun pool =>
      decide (pool.isActive = true ∧ pool.isGranted = true ∧
        pool.queue.status? ⟨1, 1⟩ = some .queued ∧
        (∀ phase ∈ pool.workers, phase.hasRecord = true) ∧
        pool.threads = 1 ∧ pool.plan.capacity = 2)) = true := by decide
  obtain ⟨pool, hi, hpool⟩ := (Option.any_eq_true _ _).mp hrun
  obtain ⟨hactive, hgranted, hk, hall, hthreads, hcapacity⟩ := of_decide_eq_true hpool
  have hlt : pool.threads < pool.plan.capacity := by omega
  obtain ⟨hle, hlate, -⟩ := work_waits_only_for_the_hurried (by decide) hi hactive hgranted
  have hcount : ((start 1).acceptances 0 as).countP (·.found.isLagging) = 1 := by decide
  refine ⟨pool, hi, hthreads, ?_, hlate ⟨_, hk⟩ hall hlt⟩
  have := hle hlt
  rw [hcount, hthreads] at this
  exact this

end Program
end WorkerPool
