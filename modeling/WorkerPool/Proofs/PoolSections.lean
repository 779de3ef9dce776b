/-
# The sections of a pool keep it sound

Every section under the lock of a pool takes a sound pool to a sound pool.  The sections of a worker
all end in `advance`, so there is one theorem about a worker that looks for work
(`Sound.advance`, with `advance_cases` for what it may do), and the others only have to hand
over a sound pool in which the worker is about to look: one that was woken (`Sound.woken`), or one
that has finished its record (`Sound.ended`).
-/
import WorkerPool.Proofs.PoolSound

namespace WorkerPool
namespace Pool

variable {α : Type} {p : Pool α}

/-! ## 1. A worker looks for work -/

@[simp] theorem queue_setPhase (p : Pool α) (w : Nat) (phase : Phase) :
    (p.setPhase w phase).queue = p.queue := rfl

@[simp] theorem isActive_setPhase (p : Pool α) (w : Nat) (phase : Phase) :
    (p.setPhase w phase).isActive = p.isActive := rfl

theorem setPhase_setPhase (p : Pool α) (w : Nat) (phase phase' : Phase) :
    (p.setPhase w phase).setPhase w phase' = p.setPhase w phase' := by
  simp [setPhase, List.set_set]

/-- Where the worker was before does not matter to what it does when it looks for work. -/
theorem advance_setPhase (p : Pool α) (w : Nat) (phase : Phase) :
    (p.setPhase w phase).advance w = p.advance w := by
  unfold advance
  rw [queue_setPhase]
  rcases p.queue.claim with ⟨f | _ | ⟨k, job⟩, q⟩
  · exact setPhase_setPhase ({ p with queue := q }.fault (.queue f)) w phase _
  · dsimp only
    show (if p.isActive then _ else _) = if p.isActive then _ else _
    split
    · exact setPhase_setPhase { p with queue := q, busy := p.busy - 1 } w phase _
    · exact congrArg (Pool.note · (.workerExited w)) (setPhase_setPhase { p with
        queue := q, busy := p.busy - 1, threads := p.threads - 1,
        standing := p.standing.notify } w phase _)
  · exact congrArg (Pool.note · (.claimed w k.number))
      (setPhase_setPhase { p with queue := q } w phase _)

/-- A worker that found nothing to do parks. -/
theorem Sound.park (h : p.Sound) {w : Nat} (hw : p.workers[w]? = some .starting)
    (hwait : p.queue.waiting = []) (hact : p.isActive = true) : (p.park w).Sound where
  queue := h.queue
  counted := by
    have hpos := h.counted.busy_pos hw rfl
    obtain ⟨ht, hb⟩ := h.counted.setPhase hw (.parked false) rfl (Nat.sub_add_cancel hpos)
    exact ⟨ht, hb, h.counted.threads_le⟩
  staffed := h.staffed.congr (ticketOf?_setPhase_of_none hw rfl rfl) fun _ => Iff.rfl
  alert := by
    refine ⟨?_, h.alert.manned, h.alert.awaited⟩
    rintro (hne | hina)
    · exact absurd hwait hne
    · exact absurd (hact.symm.trans hina) (by simp)

/-- A worker that found nothing to do leaves a pool that has ended. -/
theorem Sound.leave (h : p.Sound) {w : Nat} (hw : p.workers[w]? = some .starting)
    (hwait : p.queue.waiting = []) (hact : p.isActive = false) : (p.leave w).Sound where
  queue := h.queue
  counted := by
    have hpos := h.counted.busy_pos hw rfl
    have hpos' := Nat.lt_of_lt_of_le hpos h.counted.busy_le
    obtain ⟨ht, hb⟩ :=
      h.counted.setPhase hw .exited (Nat.sub_add_cancel hpos') (Nat.sub_add_cancel hpos)
    exact ⟨ht, hb, Nat.le_trans (Nat.sub_le _ _) h.counted.threads_le⟩
  staffed := h.staffed.congr (ticketOf?_setPhase_of_none hw rfl rfl) fun _ => Iff.rfl
  alert := by
    refine ⟨?_, fun hne => absurd hwait hne, ?_⟩
    · exact fun _ v hv => h.alert.told (Or.inr hact) v (parked_of_setPhase hw (by simp) hv)
    · -- the shutdown has just been told
      intro hst
      have hst : p.standing.notify = .stopping false := hst
      cases hp : p.standing <;> simp [Standing.notify, hp] at hst

/-- The status of the records after the claim of `k`. -/
theorem status?_started {q : Queue Arena Job} {k : Ticket} (hk : q.status? k = some .queued)
    (rest : List Ticket) (k' : Ticket) :
    (q.started k rest).status? k' = if k' = k then some .running else q.status? k' := by
  obtain ⟨r, hr, -⟩ := Queue.status?_eq_some.mp hk
  simp only [Queue.status?, Queue.get?_started]
  split
  · next hk => simp [hk, hr]
  · rfl

/-- A worker claims the newest record that waits. -/
theorem Sound.claimed (h : p.Sound) {w : Nat} (hw : p.workers[w]? = some .starting) {k : Ticket}
    {rest : List Ticket} (hwait : p.queue.waiting = k :: rest) (job : Job) :
    ({ p with queue := p.queue.started k rest }.claimed w k job).Sound where
  queue := h.queue.started hwait
  counted := by
    obtain ⟨ht, hb⟩ := h.counted.setPhase hw (.executing k job .entering) rfl rfl
    exact ⟨ht, hb, h.counted.threads_le⟩
  staffed := by
    have hk : p.queue.status? k = some .queued := (h.queue.waiting_iff k).mp (by simp [hwait])
    have hticket (v : Nat) :
        ({ p with queue := p.queue.started k rest }.claimed w k job).ticketOf? v =
          if v = w then some k else p.ticketOf? v := ticketOf?_setPhase hw _ v
    have hstatus (k' : Ticket) :
        ({ p with queue := p.queue.started k rest }.claimed w k job).queue.status? k' =
          if k' = k then some .running else p.queue.status? k' := status?_started hk rest k'
    -- nobody ran the record before, as it waited
    have hfree (v : Nat) : p.ticketOf? v ≠ some k := by
      intro hv
      exact absurd ((h.staffed.executing v k hv).symm.trans hk) (by simp)
    refine ⟨?_, ?_, ?_⟩
    · intro v k' hv
      rw [hticket] at hv
      rw [hstatus]
      split
      · rfl
      · next hne =>
        split at hv
        · exact absurd (Option.some.inj hv).symm hne
        · exact h.staffed.executing v k' hv
    · intro v v' k' hv hv'
      rw [hticket] at hv hv'
      split at hv <;> split at hv'
      · next e e' => rw [e, e']
      · exact absurd (hv'.trans hv.symm) (hfree v')
      · exact absurd (hv.trans hv'.symm) (hfree v)
      · exact h.staffed.executed_once v v' k' hv hv'
    · intro k' hk'
      rw [hstatus] at hk'
      split at hk'
      · next e => exact ⟨w, by rw [hticket, if_pos rfl, e]⟩
      · obtain ⟨v, hv⟩ := h.staffed.executed k' hk'
        refine ⟨v, ?_⟩
        rw [hticket, if_neg]
        · exact hv
        · rintro rfl
          rw [ticketOf?_of_phase hw] at hv
          exact absurd hv (by simp [Phase.ticket?])
  alert := by
    have hne : p.queue.waiting ≠ [] := by simp [hwait]
    refine ⟨fun _ v hv => ?_, fun _ => h.alert.manned hne, h.alert.awaited⟩
    exact h.alert.told (Or.inl hne) v (parked_of_setPhase hw (by simp) hv)

/-- What a worker does that is about to look: it claims the newest record, parks or leaves. -/
theorem advance_cases (hq : p.queue.Sound) (w : Nat) :
    (∃ k rest r job, p.queue.waiting = k :: rest ∧ p.queue.get? k = some r ∧
        r.status = .queued ∧ r.job = some job ∧
        p.advance w = { p with queue := p.queue.started k rest }.claimed w k job) ∨
      p.queue.waiting = [] ∧
        (p.isActive = true ∧ p.advance w = p.park w ∨
          p.isActive = false ∧ p.advance w = p.leave w) := by
  rcases hq.claim with ⟨hwait, hc⟩ | ⟨k, rest, r, job, hwait, hr, hs, hj, hc⟩
  · refine Or.inr ⟨hwait, ?_⟩
    cases hact : p.isActive with
    | true => exact Or.inl ⟨rfl, by simp [Pool.advance, hc, hact]⟩
    | false => exact Or.inr ⟨rfl, by simp [Pool.advance, hc, hact]⟩
  · exact Or.inl ⟨k, rest, r, job, hwait, hr, hs, hj, by simp only [Pool.advance, hc]⟩

/-- In a pool that has ended and where no record waits, a worker that looks for work leaves. -/
theorem advance_eq_leave (hq : p.queue.Sound) (hended : p.isActive = false)
    (hnone : ∀ k, p.queue.status? k ≠ some .queued) (w : Nat) : p.advance w = p.leave w := by
  rcases advance_cases hq w with ⟨_, _, _, _, hwait, -⟩ | ⟨-, ⟨hactive, -⟩ | ⟨-, he⟩⟩
  · exact absurd ((hq.waiting_eq_nil_iff.mpr hnone).symm.trans hwait) (by simp)
  · exact absurd (hactive.symm.trans hended) (by simp)
  · exact he

/-- After its look a worker has the newest record that waits, or has none if none waits. -/
theorem workers_advance (hq : p.queue.Sound) {w : Nat} {old : Phase}
    (hw : p.workers[w]? = some old) :
    (∃ k rest job, p.queue.waiting = k :: rest ∧
        (p.advance w).workers[w]? = some (.executing k job .entering)) ∨
      p.queue.waiting = [] ∧
        ∃ phase, (p.advance w).workers[w]? = some phase ∧ phase.ticket? = none := by
  rcases advance_cases hq w with
    ⟨k, rest, _, job, hwait, -, -, -, he⟩ | ⟨hwait, ⟨-, he⟩ | ⟨-, he⟩⟩ <;> rw [he]
  · exact Or.inl ⟨k, rest, job, hwait, workers_setPhase_self hw _⟩
  · exact Or.inr ⟨hwait, _, workers_setPhase_self hw _, rfl⟩
  · exact Or.inr ⟨hwait, _, workers_setPhase_self hw _, rfl⟩

theorem Sound.advance (h : p.Sound) {w : Nat} (hw : p.workers[w]? = some .starting) :
    (p.advance w).Sound := by
  rcases advance_cases h.queue w with
    ⟨k, rest, r, job, hwait, -, -, -, he⟩ | ⟨hwait, ⟨hact, he⟩ | ⟨hact, he⟩⟩
  · rw [he]
    exact h.claimed hw hwait job
  · rw [he]
    exact h.park hw hwait hact
  · rw [he]
    exact h.leave hw hwait hact

/-- A parked worker that was told to look counts as busy again. -/
theorem Sound.woken (h : p.Sound) {w : Nat} (hw : p.workers[w]? = some (.parked true)) :
    ({ p with busy := p.busy + 1 }.setPhase w .starting).Sound where
  queue := h.queue
  counted := by
    obtain ⟨ht, hb⟩ := h.counted.setPhase hw .starting rfl rfl
    exact ⟨ht, hb, h.counted.threads_le⟩
  staffed := h.staffed.congr (ticketOf?_setPhase_of_none hw rfl rfl) fun _ => Iff.rfl
  alert := by
    refine ⟨fun hp v hv => ?_, h.alert.manned, h.alert.awaited⟩
    exact h.alert.told hp v (parked_of_setPhase hw (by simp) hv)

theorem Sound.wake (h : p.Sound) {w : Nat} (hw : p.workers[w]? = some (.parked true)) :
    (p.wake w).Sound := by
  unfold Pool.wake
  rw [← advance_setPhase _ w .starting]
  refine (h.woken hw).advance ?_
  exact workers_setPhase_self (p := { p with busy := p.busy + 1 }) hw .starting

/-- The status of the records after the finish of `k`. -/
theorem status?_finished {q : Queue Arena Job} {k : Ticket} {r : Record Job}
    (hr : q.get? k = some r) (k' : Ticket) :
    (q.finished k).status? k' =
      if k' = k then if r.detached then none else some .finished else q.status? k' := by
  simp only [Queue.status?, Queue.get?_finished hr]
  split
  · split <;> rfl
  · rfl

/-- The pool once a worker has finished its record and is about to look for work. -/
def ended (p : Pool α) (w : Nat) (k : Ticket) (unlinked : Bool) : Pool α :=
  ({ p with queue := p.queue.finished k }.note (.finished w k.number unlinked)).setPhase w .starting

theorem Sound.ended (h : p.Sound) {w : Nat} {k : Ticket} {job : Job} {stage : Stage}
    (hw : p.workers[w]? = some (.executing k job stage)) (unlinked : Bool) :
    (p.ended w k unlinked).Sound := by
  have hk : p.queue.status? k = some .running := h.staffed.executing w k (ticketOf?_of_phase hw)
  obtain ⟨r, hr, hs⟩ := Queue.status?_eq_some.mp hk
  have hticket (v : Nat) :
      (p.ended w k unlinked).ticketOf? v = if v = w then none else p.ticketOf? v :=
    ticketOf?_setPhase hw .starting v
  have hstatus (k' : Ticket) : (p.ended w k unlinked).queue.status? k' = some .running ↔
      k' ≠ k ∧ p.queue.status? k' = some .running := by
    show (p.queue.finished k).status? k' = _ ↔ _
    rw [status?_finished hr]
    by_cases he : k' = k
    · simp only [he, if_true, ne_eq, not_true_eq_false, false_and, iff_false]
      split <;> simp
    · simp [he]
  refine ⟨h.queue.finished hr hs, ?_, ⟨?_, ?_, ?_⟩, ⟨?_, ?_, h.alert.awaited⟩⟩
  · obtain ⟨ht, hb⟩ := h.counted.setPhase hw .starting rfl rfl
    exact ⟨ht, hb, h.counted.threads_le⟩
  · intro v k' hv
    rw [hticket] at hv
    split at hv
    · exact absurd hv (by simp)
    · next hne =>
      refine (hstatus k').mpr ⟨?_, h.staffed.executing v k' hv⟩
      rintro rfl
      exact hne (h.staffed.executed_once v w k' hv (ticketOf?_of_phase hw))
  · intro v v' k' hv hv'
    rw [hticket] at hv hv'
    split at hv
    · exact absurd hv (by simp)
    · split at hv'
      · exact absurd hv' (by simp)
      · exact h.staffed.executed_once v v' k' hv hv'
  · intro k' hk'
    obtain ⟨hne, hk'⟩ := (hstatus k').mp hk'
    obtain ⟨v, hv⟩ := h.staffed.executed k' hk'
    refine ⟨v, ?_⟩
    rw [hticket, if_neg]
    · exact hv
    · rintro rfl
      rw [ticketOf?_of_phase hw] at hv
      exact hne (Option.some.inj hv).symm
  · intro hp v hv
    refine h.alert.told ?_ v (parked_of_setPhase hw (by simp) hv)
    rw [← Queue.waiting_finished p.queue k]
    exact hp
  · intro hne
    refine h.alert.manned ?_
    rw [← Queue.waiting_finished p.queue k]
    exact hne

/-- The finish of a record in two parts. -/
theorem Sound.finish_eq (h : p.Sound) {w : Nat} {k : Ticket} {job : Job} {stage : Stage}
    (hw : p.workers[w]? = some (.executing k job stage)) :
    ∃ r, p.queue.get? k = some r ∧ r.status = .running ∧
      p.finish w k = (p.ended w k r.detached).advance w := by
  obtain ⟨r, hr, hs⟩ :=
    Queue.status?_eq_some.mp (h.staffed.executing w k (ticketOf?_of_phase hw))
  refine ⟨r, hr, hs, ?_⟩
  rw [Pool.ended, advance_setPhase]
  simp only [Pool.finish, Queue.finish_running hr hs]

theorem Sound.finish (h : p.Sound) {w : Nat} {k : Ticket} {job : Job} {stage : Stage}
    (hw : p.workers[w]? = some (.executing k job stage)) : (p.finish w k).Sound := by
  obtain ⟨r, -, -, he⟩ := h.finish_eq hw
  rw [he]
  refine (h.ended hw r.detached).advance ?_
  exact workers_setPhase_self hw .starting

/-- The next section of a worker that looks for work at its end. -/
def goOn (p : Pool α) (w : Nat) : Phase → Pool α
  | .parked _ => p.wake w
  | .executing ticket _ _ => p.finish w ticket
  | _ => p.advance w

/-- Pool `p`, when worker `w` has come to its look for work. -/
structure Look (p q : Pool α) (w : Nat) (phase : Phase) : Prop where
  sound : q.Sound
  starting : q.workers[w]? = some .starting
  threads_eq : q.threads = p.threads
  busy_eq : q.busy = p.busy + if phase.isBusy then 0 else 1
  active_eq : q.isActive = p.isActive
  queued_iff : ∀ k, q.queue.status? k = some .queued ↔ p.queue.status? k = some .queued

/-- What comes before the look touches no record that waits. -/
theorem Sound.look (h : p.Sound) {w : Nat} {phase : Phase} (hw : p.workers[w]? = some phase)
    (hlooks : phase.looksNext = true) :
    ∃ q, p.Look q w phase ∧ p.goOn w phase = q.advance w := by
  rcases phase with _ | notified | ⟨k, job, stage⟩ | _
  · exact ⟨p, ⟨h, hw, rfl, rfl, rfl, fun _ => Iff.rfl⟩, rfl⟩
  · obtain rfl : notified = true := hlooks
    have he := (advance_setPhase { p with busy := p.busy + 1 } w .starting).symm
    refine ⟨_, ⟨h.woken hw, ?_, rfl, rfl, rfl, fun _ => Iff.rfl⟩, he⟩
    exact workers_setPhase_self (p := { p with busy := p.busy + 1 }) hw .starting
  · cases stage with
    | «over» =>
      obtain ⟨r, hr, hs, he⟩ := h.finish_eq hw
      refine ⟨p.ended w k r.detached, ⟨h.ended hw _, ?_, rfl, rfl, rfl, fun k' => ?_⟩, he⟩
      · exact workers_setPhase_self hw .starting
      · show (p.queue.finished k).status? k' = _ ↔ _
        rw [status?_finished hr]
        split
        · next hk =>
          rw [hk, Queue.status?_eq_some.mpr ⟨r, hr, hs⟩]
          split <;> simp
        · rfl
    | _ => exact absurd hlooks (by simp [Phase.looksNext, Phase.isLooking])
  · exact absurd hlooks (by simp [Phase.looksNext, Phase.isLooking])

/-! ## 2. Submissions -/

theorem workers_startWorker (p : Pool α) (w : Nat) :
    p.startWorker.workers[w]? =
      if w = p.workers.length then some .starting else p.workers[w]? := by
  show (p.workers ++ [Phase.starting])[w]? = _
  rw [List.getElem?_append]
  split
  · next hlt => rw [if_neg (Nat.ne_of_lt hlt)]
  · next hge =>
    by_cases hw : w = p.workers.length
    · simp [hw]
    · rw [if_neg hw, List.getElem?_eq_none (by simp; omega), List.getElem?_eq_none (by omega)]

/-- What a submission does about workers: it needs none, starts one, or notes why the system
starts none; it has to fail then if there is no worker at all. -/
theorem grow_cases (p : Pool α) (refusal : Option String) :
    (p.wantsWorker = false ∧ p.grow refusal = (none, p)) ∨
      (p.wantsWorker = true ∧ refusal = none ∧ p.grow refusal = (none, p.startWorker)) ∨
      ∃ cause, p.wantsWorker = true ∧ refusal = some cause ∧
        (0 < p.threads ∧ p.grow refusal = (none, p.note (.extraWorkerRefused cause)) ∨
          p.threads = 0 ∧
            p.grow refusal = (some (.spawn cause), p.note (.firstWorkerRefused cause))) := by
  unfold Pool.grow
  cases hw : p.wantsWorker with
  | false => exact Or.inl ⟨rfl, rfl⟩
  | true =>
    cases refusal with
    | none => exact Or.inr (Or.inl ⟨rfl, rfl, rfl⟩)
    | some cause =>
      refine Or.inr (Or.inr ⟨cause, rfl, rfl, ?_⟩)
      rcases Nat.eq_zero_or_pos p.threads with ht | ht
      · exact Or.inr ⟨ht, by simp [ht]⟩
      · exact Or.inl ⟨ht, by simp [ht]⟩

theorem queue_grow (p : Pool α) (refusal : Option String) :
    (p.grow refusal).2.queue = p.queue := by
  rcases p.grow_cases refusal with ⟨-, he⟩ | ⟨-, -, he⟩ | ⟨_, -, -, ⟨-, he⟩ | ⟨-, he⟩⟩ <;>
    rw [he] <;> rfl

theorem standing_grow (p : Pool α) (refusal : Option String) :
    (p.grow refusal).2.standing = p.standing := by
  rcases p.grow_cases refusal with ⟨-, he⟩ | ⟨-, -, he⟩ | ⟨_, -, -, ⟨-, he⟩ | ⟨-, he⟩⟩ <;>
    rw [he] <;> rfl

/-- The pool once a job has its record. -/
def linked (p : Pool α) (job : Job) : Pool α :=
  ({ p with queue := p.queue.pushed job }.notifyWorkers).note
    (.submitted p.queue.freshTicket.number)

/-- A worker is started while there may be more. -/
theorem Sound.startWorker (h : p.Sound) (hlt : p.threads < p.plan.capacity) :
    p.startWorker.Sound where
  queue := h.queue
  counted := by
    refine ⟨?_, ?_, hlt⟩
    · show p.threads + 1 = (p.workers ++ [Phase.starting]).countP Phase.isIn
      rw [List.countP_append, ← h.counted.threads_eq]
      rfl
    · show p.busy + 1 = (p.workers ++ [Phase.starting]).countP Phase.isBusy
      rw [List.countP_append, ← h.counted.busy_eq]
      rfl
  staffed := by
    refine h.staffed.congr (fun w => ?_) fun _ => Iff.rfl
    rw [ticketOf?, ticketOf?, workers_startWorker]
    split
    · next hw => simp [hw, Phase.ticket?]
    · rfl
  alert := by
    refine ⟨fun hp v hv => h.alert.told hp v ?_, fun _ => Nat.succ_pos _, fun _ => Nat.succ_pos _⟩
    rw [workers_startWorker] at hv
    split at hv
    · exact absurd hv (by simp)
    · exact hv

/-- A submission that can go on finds a worker that has not left. -/
theorem Sound.grow (h : p.Sound) (refusal : Option String) :
    (p.grow refusal).2.Sound ∧ ((p.grow refusal).1 = none → 0 < (p.grow refusal).2.threads) := by
  have hle := h.counted.busy_le
  have hcap := p.plan.capacity_pos
  rcases p.grow_cases refusal with
    ⟨hw, he⟩ | ⟨hw, -, he⟩ | ⟨cause, -, -, ⟨hpos, he⟩ | ⟨-, he⟩⟩ <;> rw [he]
  · -- every worker would be busy if there were none
    simp only [wantsWorker, Bool.and_eq_false_iff, beq_eq_false_iff_ne,
      decide_eq_false_iff_not] at hw
    refine ⟨h, fun _ => ?_⟩
    show 0 < p.threads
    omega
  · simp only [wantsWorker, Bool.and_eq_true, decide_eq_true_eq] at hw
    exact ⟨h.startWorker hw.2, fun _ => Nat.succ_pos _⟩
  · exact ⟨h.note _, fun _ => hpos⟩
  · exact ⟨h.note _, fun hf => absurd hf (by simp)⟩

/-- A record is linked and every parked worker is told. -/
theorem Sound.linked (h : p.Sound) (hfull : p.queue.isFull = false) (hpos : 0 < p.threads)
    (job : Job) : (p.linked job).Sound := by
  refine Sound.note ?_ _
  have hrun (k : Ticket) : (p.queue.pushed job).status? k = some .running ↔
      p.queue.status? k = some .running := by
    simp only [Queue.status?, Queue.get?_pushed]
    split
    · next hk => simp [hk]
    · rfl
  have hn := h.notifyWorkers
  exact
    { queue := h.queue.pushed hfull job
      counted := ⟨hn.counted.threads_eq, hn.counted.busy_eq, hn.counted.threads_le⟩
      staffed := hn.staffed.congr (fun _ => rfl) hrun
      alert :=
        ⟨fun _ w => notifyWorkers_ne_parked p w, fun _ => hpos, h.alert.awaited⟩ }

/-- What a submission does: it is refused and links nothing, or it is accepted with the ticket of
the next push. -/
theorem submit_cases (p : Pool α) (refusal : Option String) (job : Job) :
    p.queue.isFull = true ∧
        p.submit refusal job = (.error .tooManyTasks, p.note (.queueFull p.queue.limit)) ∨
      (∃ e, p.queue.isFull = false ∧ (p.grow refusal).1 = some e ∧
        p.submit refusal job = (.error e, (p.grow refusal).2)) ∨
      p.queue.isFull = false ∧ (p.grow refusal).1 = none ∧
        p.submit refusal job = (.ok p.queue.freshTicket, (p.grow refusal).2.linked job) := by
  unfold Pool.submit
  cases hfull : p.queue.isFull with
  | true => exact Or.inl ⟨rfl, by simp⟩
  | false =>
    right
    have hq := queue_grow p refusal
    rcases hg : p.grow refusal with ⟨_ | e, p'⟩
    · rw [hg] at hq
      have hq : p'.queue = p.queue := hq
      refine Or.inr ⟨rfl, rfl, ?_⟩
      simp only [Queue.push_eq, hq, hfull, linked, if_false, Bool.false_eq_true]
    · exact Or.inl ⟨e, rfl, rfl, by simp⟩

theorem Sound.submit (h : p.Sound) (refusal : Option String) (job : Job) :
    (p.submit refusal job).2.Sound := by
  have hg := h.grow refusal
  rcases submit_cases p refusal job with ⟨-, he⟩ | ⟨e, -, -, he⟩ | ⟨hfull, hnone, he⟩
  · rw [he]
    exact h.note _
  · rw [he]
    exact hg.1
  · rw [he]
    exact hg.1.linked (by rw [queue_grow]; exact hfull) (hg.2 hnone) job

/-- A submission interrupts no body. -/
theorem executing_submit {w : Nat} {k : Ticket} {job : Job} {stage : Stage}
    (hw : p.workers[w]? = some (.executing k job stage)) (refusal : Option String) (job' : Job) :
    (p.submit refusal job').2.workers[w]? = some (.executing k job stage) := by
  have hgrow : (p.grow refusal).2.workers[w]? = some (.executing k job stage) := by
    rcases p.grow_cases refusal with ⟨-, he⟩ | ⟨-, -, he⟩ | ⟨_, -, -, ⟨-, he⟩ | ⟨-, he⟩⟩ <;>
      rw [he]
    · exact hw
    · have hlt : w < p.workers.length := (List.getElem?_eq_some_iff.mp hw).1
      dsimp only
      rw [workers_startWorker, if_neg (Nat.ne_of_lt hlt), hw]
    · exact hw
    · exact hw
  rcases submit_cases p refusal job' with ⟨-, he⟩ | ⟨e, -, -, he⟩ | ⟨-, -, he⟩
  · rw [he]
    exact hw
  · rw [he]
    exact hgrow
  · rw [he]
    show ((p.grow refusal).2.workers.map Phase.notify)[w]? = _
    rw [List.getElem?_map, hgrow]
    rfl

/-! ## 3. The end of a pool -/

/-- The owner's standing changes; a pool that ends has told its workers. -/
theorem Sound.setStanding (h : p.Sound) {standing : Standing}
    (htold : standing ≠ .active → ∀ w : Nat, p.workers[w]? ≠ some (.parked false))
    (hpos : standing = .stopping false → 0 < p.threads) : { p with standing }.Sound where
  queue := h.queue
  counted := ⟨h.counted.threads_eq, h.counted.busy_eq, h.counted.threads_le⟩
  staffed := h.staffed.congr (fun _ => rfl) fun _ => Iff.rfl
  alert := by
    refine ⟨?_, h.alert.manned, hpos⟩
    rintro (hne | hina)
    · exact h.alert.told (Or.inl hne)
    · exact htold (by simpa [isActive] using hina)

/-- A shutdown that looks again finds no worker left or waits on. -/
theorem Sound.awaitWorkers (h : p.Sound)
    (htold : ∀ w : Nat, p.workers[w]? ≠ some (.parked false)) : p.awaitWorkers.Sound := by
  unfold Pool.awaitWorkers
  split
  · exact (h.setStanding (fun _ => htold) (by simp)).note _
  · next hne => exact h.setStanding (fun _ => htold) fun _ => Nat.pos_of_ne_zero hne

theorem Sound.shutdown (h : p.Sound) : p.shutdown.2.Sound := by
  unfold Pool.shutdown
  split
  · -- the look at the counter sets the standing, whatever it was before
    have he : ({ p with standing := .stopping false }.notifyWorkers).awaitWorkers =
        p.notifyWorkers.awaitWorkers := rfl
    dsimp only
    rw [he]
    exact h.notifyWorkers.awaitWorkers (notifyWorkers_ne_parked p)
  · exact h.note _

theorem Sound.drop (h : p.Sound) : p.drop.Sound := by
  unfold Pool.drop
  split
  · have hd : { p.notifyWorkers with standing := .dropped }.Sound :=
      h.notifyWorkers.setStanding (fun _ => notifyWorkers_ne_parked p) (by simp)
    exact hd.note _
  · exact h

/-! ## 4. What joins and owners do to a record -/

theorem Sound.join (h : p.Sound) (k : Ticket) : (p.join k).Sound := by
  refine h.setQueue (h.queue.join k) (Queue.waiting_update _ _ _) fun k' => ?_
  simp only [Queue.status?, Queue.get?_join]
  split
  · cases p.queue.get? k' <;> simp
  · rfl

theorem Sound.detach (h : p.Sound) (k : Ticket) : (p.detach k).Sound := by
  refine h.setQueue (h.queue.detach k) (Queue.waiting_detach _ _) fun k' => ?_
  simp only [Queue.status?, Queue.get?_detach]
  split
  · next hk =>
    subst hk
    cases hr : p.queue.get? k' with
    | none => simp
    | some r =>
      by_cases hs : r.status = .finished
      · simp [hs]
      · simp [hs]
  · rfl

/-- What is given back leaves the queue, unless it was gone or has not finished. -/
theorem unlink_cases (p : Pool α) (k : Ticket) :
    p.unlink k = p ∨ p.unlink k = { p with queue := p.queue.unlink k } ∨
      ∃ f, p.unlink k = p.fault f := by
  unfold Pool.unlink Queue.remove
  cases p.queue.get? k with
  | none => exact Or.inl rfl
  | some r =>
    dsimp only
    by_cases hs : r.status = .finished
    · rw [if_pos hs]
      exact Or.inr (Or.inl rfl)
    · rw [if_neg hs]
      exact Or.inr (Or.inr ⟨_, rfl⟩)

theorem Sound.unlink (h : p.Sound) (k : Ticket) : (p.unlink k).Sound := by
  unfold Pool.unlink Queue.remove
  cases hr : p.queue.get? k with
  | none => exact h
  | some r =>
    by_cases hs : r.status = .finished
    · simp only [hs, if_true]
      refine h.setQueue (h.queue.unlink ?_) (Queue.waiting_unlink _ _) fun k' => ?_
      · simp [Queue.status?, hr, hs]
      · simp only [Queue.status?, Queue.get?_unlink]
        split
        · next hk => simp [hk, hr, hs]
        · rfl
    · simp only [hs, if_false]
      exact h.fault _

end Pool
end WorkerPool
