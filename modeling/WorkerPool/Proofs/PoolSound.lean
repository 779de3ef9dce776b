/-
# What always holds of a pool

`Pool.Sound` is the invariant of one pool under its lock.  It says of the counters that `threads`
counts the workers that have not left and `busy` those of them that are not parked; of the records
that each running one is in the hands of exactly one worker; and of the wake-ups that nobody
is left parked who should look: no worker while a record waits or the pool has ended, and no
shutdown when the last worker has left.

Every section keeps it, whatever worker or caller enters next.  The sections of a worker all end in
`advance`, so the proof has one lemma for `advance` and shows of the others that they hand over a
sound pool in which the worker is about to look.
-/
import Mathlib.Data.List.Count
import WorkerPool.Proofs.QueueSound
import WorkerPool.Pool.Submit
import WorkerPool.Pool.Worker
import WorkerPool.Pool.End

namespace WorkerPool

/-! ## 1. Phases -/

namespace Phase

/-- Whether the worker has not left its loop. -/
def isIn : Phase → Bool
  | exited => false
  | _ => true

/-- Whether the worker counts as busy: it is neither parked nor gone. -/
def isBusy : Phase → Bool
  | parked _ => false
  | exited => false
  | _ => true

/-- The ticket of the record that the worker runs. -/
def ticket? : Phase → Option Ticket
  | executing ticket _ _ => some ticket
  | _ => none

/-- Whether the next section of the worker ends with a look for work. -/
def looksNext : Phase → Bool
  | executing _ _ .over => true
  | phase => phase.isLooking

theorem isIn_of_isBusy {phase : Phase} (h : phase.isBusy = true) : phase.isIn = true := by
  cases phase <;> simp_all [isBusy, isIn]

@[simp] theorem isIn_notify (phase : Phase) : phase.notify.isIn = phase.isIn := by
  cases phase <;> rfl

@[simp] theorem isBusy_notify (phase : Phase) : phase.notify.isBusy = phase.isBusy := by
  cases phase <;> rfl

@[simp] theorem ticket?_notify (phase : Phase) : phase.notify.ticket? = phase.ticket? := by
  cases phase <;> rfl

/-- Nobody who was told to look is parked for good. -/
theorem notify_ne_parked (phase : Phase) : phase.notify ≠ parked false := by
  cases phase <;> simp [notify]

end Phase

/-- Two kinds that exclude each other are counted apart. -/
theorem countP_eq_add {β : Type} {f g h : β → Bool} {l : List β}
    (hl : ∀ b ∈ l, f b = (g b || h b) ∧ (g b && h b) = false) :
    l.countP f = l.countP g + l.countP h := by
  induction l with
  | nil => rfl
  | cons b l ih =>
    obtain ⟨hf, hgh⟩ := hl b (List.mem_cons_self ..)
    have ih := ih fun c hc => hl c (List.mem_cons_of_mem _ hc)
    simp only [List.countP_cons, ih, hf]
    cases hg : g b <;> cases hh : h b <;> simp_all <;> omega

namespace Pool

variable {α : Type} {p : Pool α}

/-- The ticket of the record that a worker runs. -/
def ticketOf? (p : Pool α) (w : Nat) : Option Ticket := p.workers[w]?.bind Phase.ticket?

theorem ticketOf?_of_phase {w : Nat} {phase : Phase} (h : p.workers[w]? = some phase) :
    p.ticketOf? w = phase.ticket? := by
  simp [ticketOf?, h]

theorem workers_setPhase {w : Nat} {old : Phase} (hw : p.workers[w]? = some old) (phase : Phase)
    (v : Nat) :
    (p.setPhase w phase).workers[v]? = if v = w then some phase else p.workers[v]? := by
  obtain ⟨hlt, -⟩ := List.getElem?_eq_some_iff.mp hw
  simp only [setPhase, List.getElem?_set]
  by_cases hv : v = w
  · simp [hv, hlt]
  · rw [if_neg (Ne.symm hv), if_neg hv]

theorem workers_setPhase_self {w : Nat} {old : Phase} (hw : p.workers[w]? = some old)
    (phase : Phase) : (p.setPhase w phase).workers[w]? = some phase :=
  (workers_setPhase hw phase w).trans (if_pos rfl)

theorem ticketOf?_setPhase {w : Nat} {old : Phase} (hw : p.workers[w]? = some old)
    (phase : Phase) (v : Nat) :
    (p.setPhase w phase).ticketOf? v = if v = w then phase.ticket? else p.ticketOf? v := by
  rw [ticketOf?, workers_setPhase hw]
  split
  · rfl
  · rfl

/-- Moving one worker changes a count by what that worker counts before and after. -/
theorem countP_setPhase {w : Nat} {old : Phase} (hw : p.workers[w]? = some old) (phase : Phase)
    (f : Phase → Bool) :
    (p.setPhase w phase).workers.countP f + (if f old then 1 else 0) =
      p.workers.countP f + (if f phase then 1 else 0) := by
  obtain ⟨hlt, hget⟩ := List.getElem?_eq_some_iff.mp hw
  have hset := List.countP_set (p := f) (a := phase) hlt
  have hpos : (if f old then 1 else 0) ≤ p.workers.countP f := by
    split
    · next hf => exact List.countP_pos_iff.mpr ⟨old, hget ▸ List.getElem_mem hlt, hf⟩
    · exact Nat.zero_le _
  simp only [setPhase]
  rw [hset, hget]
  omega

/-- A worker that runs no record before or after a move leaves all tickets where they are. -/
theorem ticketOf?_setPhase_of_none {w : Nat} {old phase : Phase} (hw : p.workers[w]? = some old)
    (hold : old.ticket? = none) (hnew : phase.ticket? = none) (v : Nat) :
    (p.setPhase w phase).ticketOf? v = p.ticketOf? v := by
  rw [ticketOf?_setPhase hw]
  split
  · next hv => rw [hv, ticketOf?_of_phase hw, hold, hnew]
  · rfl

/-- A worker that moves elsewhere than to a place to park leaves nobody parked who was not. -/
theorem parked_of_setPhase {w : Nat} {old phase : Phase} (hw : p.workers[w]? = some old)
    (hp : phase ≠ .parked false) {v : Nat}
    (hv : (p.setPhase w phase).workers[v]? = some (.parked false)) :
    p.workers[v]? = some (.parked false) := by
  rw [workers_setPhase hw] at hv
  split at hv
  · exact absurd (Option.some.inj hv) hp
  · exact hv

/-! ## 2. Soundness -/

/-- The counters count. -/
structure Counted (p : Pool α) : Prop where
  threads_eq : p.threads = p.workers.countP Phase.isIn
  busy_eq : p.busy = p.workers.countP Phase.isBusy
  threads_le : p.threads ≤ p.plan.capacity

/-- The running records are in the hands of the workers, each in those of one. -/
structure Staffed (p : Pool α) : Prop where
  executing : ∀ w k, p.ticketOf? w = some k → p.queue.status? k = some .running
  executed_once : ∀ w v k, p.ticketOf? w = some k → p.ticketOf? v = some k → w = v
  executed : ∀ k, p.queue.status? k = some .running → ∃ w, p.ticketOf? w = some k

/-- Whoever should look has been told to, or is there to be told. -/
structure Alert (p : Pool α) : Prop where
  /-- While a record waits, or once the pool has ended, no worker is parked for good. -/
  told : p.queue.waiting ≠ [] ∨ p.isActive = false → ∀ w : Nat, p.workers[w]? ≠ some (.parked false)
  /-- While a record waits, some worker has not left. -/
  manned : p.queue.waiting ≠ [] → 0 < p.threads
  /-- A shutdown that waits has a worker to wait for. -/
  awaited : p.standing = .stopping false → 0 < p.threads

/-- What holds of a pool whenever its lock is free. -/
structure Sound (p : Pool α) : Prop where
  queue : p.queue.Sound
  counted : p.Counted
  staffed : p.Staffed
  alert : p.Alert

theorem Sound.create (id : String) (plan : Plan) : (create id plan : Pool α).Sound where
  queue := .empty plan.limit
  counted := ⟨rfl, rfl, Nat.zero_le _⟩
  staffed := by constructor <;> simp [ticketOf?, Pool.create, Queue.status?]
  alert := by constructor <;> simp [Pool.create, Queue.empty]

/-- Every busy worker has not left. -/
theorem Counted.busy_le (h : p.Counted) : p.busy ≤ p.threads := by
  rw [h.busy_eq, h.threads_eq]
  exact List.countP_mono_left fun _ _ => Phase.isIn_of_isBusy

/-- A busy worker is counted. -/
theorem Counted.busy_pos (h : p.Counted) {w : Nat} {phase : Phase}
    (hw : p.workers[w]? = some phase) (hb : phase.isBusy = true) : 0 < p.busy := by
  rw [h.busy_eq]
  exact List.countP_pos_iff.mpr ⟨phase, List.mem_of_getElem? hw, hb⟩

/-- The counters after the move of one worker. -/
theorem Counted.setPhase (h : p.Counted) {w : Nat} {old : Phase} (hw : p.workers[w]? = some old)
    (phase : Phase) {threads busy : Nat}
    (ht : threads + (if old.isIn then 1 else 0) = p.threads + if phase.isIn then 1 else 0)
    (hb : busy + (if old.isBusy then 1 else 0) = p.busy + if phase.isBusy then 1 else 0) :
    threads = (p.setPhase w phase).workers.countP Phase.isIn ∧
      busy = (p.setPhase w phase).workers.countP Phase.isBusy := by
  have hin := countP_setPhase hw phase Phase.isIn
  have hbusy := countP_setPhase hw phase Phase.isBusy
  rw [← h.threads_eq] at hin
  rw [← h.busy_eq] at hbusy
  omega

/-- The same workers run the same running records. -/
theorem Staffed.congr {p' : Pool α} (h : p.Staffed) (hticket : ∀ w, p'.ticketOf? w = p.ticketOf? w)
    (hrun : ∀ k, p'.queue.status? k = some .running ↔ p.queue.status? k = some .running) :
    p'.Staffed where
  executing := fun w k hk => (hrun k).mpr (h.executing w k (hticket w ▸ hk))
  executed_once := fun w v k hk hk' => h.executed_once w v k (hticket w ▸ hk) (hticket v ▸ hk')
  executed := fun k hk => by
    obtain ⟨w, hw⟩ := h.executed k ((hrun k).mp hk)
    exact ⟨w, (hticket w).trans hw⟩

/-- Notes, results and failed checks play no part. -/
theorem Sound.congr {p' : Pool α} (h : p.Sound) (hq : p'.queue = p.queue)
    (hw : p'.workers = p.workers) (ht : p'.threads = p.threads) (hb : p'.busy = p.busy)
    (hp : p'.plan = p.plan) (hs : p'.standing = p.standing) : p'.Sound where
  queue := hq ▸ h.queue
  counted := by
    obtain ⟨h1, h2, h3⟩ := h.counted
    exact ⟨by rw [ht, hw, h1], by rw [hb, hw, h2], by rw [ht, hp]; exact h3⟩
  staffed := h.staffed.congr (fun w => by simp only [ticketOf?, hw]) fun k => by rw [hq]
  alert := by
    obtain ⟨h1, h2, h3⟩ := h.alert
    refine ⟨?_, ?_, ?_⟩
    · simpa only [isActive, hq, hw, hs] using h1
    · simpa only [hq, ht] using h2
    · simpa only [hs, ht] using h3

theorem Sound.note (h : p.Sound) (n : PoolNote) : (p.note n).Sound :=
  h.congr rfl rfl rfl rfl rfl rfl

theorem Sound.fault (h : p.Sound) (f : Fault) : (p.fault f).Sound :=
  h.congr rfl rfl rfl rfl rfl rfl

theorem Sound.putResult (h : p.Sound) (k : Ticket) (v : Value α) : (p.putResult k v).Sound := by
  unfold Pool.putResult
  split
  · exact h.fault _
  · exact h.congr rfl rfl rfl rfl rfl rfl

/-- A change of the queue that starts and ends no run, and lets nobody wait who did not. -/
theorem Sound.setQueue (h : p.Sound) {q : Queue Arena Job} (hq : q.Sound)
    (hwait : q.waiting = p.queue.waiting)
    (hrun : ∀ k, q.status? k = some .running ↔ p.queue.status? k = some .running) :
    { p with queue := q }.Sound where
  queue := hq
  counted := ⟨h.counted.threads_eq, h.counted.busy_eq, h.counted.threads_le⟩
  staffed := h.staffed.congr (fun _ => rfl) hrun
  alert := by
    refine ⟨?_, ?_, h.alert.awaited⟩
    · simpa only [hwait, isActive] using h.alert.told
    · simpa only [hwait] using h.alert.manned

/-- Workers that move without taking or leaving a record, and none of which parks. -/
theorem Sound.setWorkers (h : p.Sound) {ws : List Phase}
    (hin : ws.countP Phase.isIn = p.workers.countP Phase.isIn)
    (hbusy : ws.countP Phase.isBusy = p.workers.countP Phase.isBusy)
    (hticket : ∀ w : Nat, ws[w]?.bind Phase.ticket? = p.ticketOf? w)
    (hpark : ∀ w : Nat, ws[w]? = some (.parked false) → p.workers[w]? = some (.parked false)) :
    { p with workers := ws }.Sound where
  queue := h.queue
  counted := by
    obtain ⟨h1, h2, h3⟩ := h.counted
    exact ⟨h1.trans hin.symm, h2.trans hbusy.symm, h3⟩
  staffed := h.staffed.congr hticket fun _ => Iff.rfl
  alert := ⟨fun hp w hw => h.alert.told hp w (hpark w hw), h.alert.manned, h.alert.awaited⟩

/-- The same change of every worker. -/
theorem Sound.mapWorkers (h : p.Sound) (f : Phase → Phase)
    (hin : ∀ phase, (f phase).isIn = phase.isIn)
    (hbusy : ∀ phase, (f phase).isBusy = phase.isBusy)
    (hticket : ∀ phase, (f phase).ticket? = phase.ticket?)
    (hpark : ∀ phase, f phase = .parked false → phase = .parked false) :
    { p with workers := p.workers.map f }.Sound := by
  refine h.setWorkers ?_ ?_ ?_ ?_
  · rw [List.countP_map]
    exact List.countP_congr fun phase _ => by simp [hin]
  · rw [List.countP_map]
    exact List.countP_congr fun phase _ => by simp [hbusy]
  · intro w
    simp only [ticketOf?, List.getElem?_map]
    cases p.workers[w]? with
    | none => rfl
    | some phase => exact hticket phase
  · intro w hw
    rw [List.getElem?_map] at hw
    obtain ⟨phase, hw, hf⟩ := Option.map_eq_some_iff.mp hw
    rw [hw, hpark phase hf]

/-- A worker goes on with the body that it runs. -/
theorem Sound.setStage (h : p.Sound) {w : Nat} {k : Ticket} {job : Job} {stage : Stage}
    (hw : p.workers[w]? = some (.executing k job stage)) (stage' : Stage) :
    (p.setPhase w (.executing k job stage')).Sound where
  queue := h.queue
  counted := by
    obtain ⟨ht, hb⟩ := h.counted.setPhase hw (.executing k job stage') rfl rfl
    exact ⟨ht, hb, h.counted.threads_le⟩
  staffed := by
    refine h.staffed.congr (fun v => ?_) fun _ => Iff.rfl
    rw [ticketOf?_setPhase hw]
    split
    · next hv => rw [hv, ticketOf?_of_phase hw]; rfl
    · rfl
  alert := by
    refine ⟨fun hp v hv => ?_, h.alert.manned, h.alert.awaited⟩
    exact h.alert.told hp v (parked_of_setPhase hw (by simp) hv)

/-- Every parked worker is told to look. -/
theorem Sound.notifyWorkers (h : p.Sound) : p.notifyWorkers.Sound :=
  h.mapWorkers Phase.notify Phase.isIn_notify Phase.isBusy_notify Phase.ticket?_notify
    fun phase hf => absurd hf phase.notify_ne_parked

/-- After that, none is parked for good. -/
theorem notifyWorkers_ne_parked (p : Pool α) (w : Nat) :
    p.notifyWorkers.workers[w]? ≠ some (.parked false) := by
  intro hw
  simp only [Pool.notifyWorkers, List.getElem?_map] at hw
  obtain ⟨phase, -, hf⟩ := Option.map_eq_some_iff.mp hw
  exact phase.notify_ne_parked hf

end Pool
end WorkerPool
