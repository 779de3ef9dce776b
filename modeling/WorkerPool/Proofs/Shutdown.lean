/-
# A shutdown is accepted when nothing is left, and then everybody goes

The owner of a pool learns from one look whether a shutdown is possible: it is refused while any
record is linked.  What that look means is a matter of all tasks: every submission that the pool
ever accepted has come back, either released with its task or finished after its task was detached
(`isBack`).  A refused shutdown is noted and changes nothing else.

An accepted one closes the pool for good.  A `Closed` pool has no record and gets none, so its
workers have nothing to run; each of them is awake, and leaves with its next move.
-/
import WorkerPool.Proofs.Holdings

namespace WorkerPool

/-! ## 1. Who was ever accepted -/

namespace Ledger

open Function (update)

variable {α : Type} {g g' : Ledger α}

/-- Every number that a pool has given is that of a submission of some task. -/
def Numbered (g : Ledger α) : Prop :=
  ∀ i n m, g.next i = some m → n < m → ∃ a, ∃ x ∈ g.submissions a, x.place = (i, n)

theorem Numbered.tick (h : g.Numbered) (ht : Tick g g') : g'.Numbered := by
  intro i n m hm hlt
  have hold {m' : Nat} (hm' : g.next i = some m') (hlt' : n < m') :
      ∃ a, ∃ x ∈ g'.submissions a, x.place = (i, n) := by
    obtain ⟨a, x, hx, hplace⟩ := h i n m' hm' hlt'
    exact ⟨a, x, mem_submissions_tick ht hx, hplace⟩
  cases ht with
  | @addPool j hj =>
    replace hm : update g.next j (some 0) i = some m := hm
    rw [Function.update_apply] at hm
    split at hm
    · obtain rfl := Option.some.inj hm
      exact absurd hlt (Nat.not_lt_zero n)
    · exact hold hm hlt
  | @accept x a held hnext hrecord hh hlive =>
    replace hm : update g.next x.pool (some (x.ticket.number + 1)) i = some m := hm
    rw [Function.update_apply] at hm
    split at hm
    · next hi =>
      subst hi
      obtain rfl := Option.some.inj hm
      rcases Nat.lt_succ_iff_lt_or_eq.mp hlt with hlt | rfl
      · exact hold hnext hlt
      · exact ⟨a, x, (mem_submissions_accept hh).mpr (Or.inr ⟨rfl, rfl⟩), rfl⟩
    · exact hold hm hlt
  | _ => exact hold hm hlt

end Ledger

/-! ## 2. A pool that a shutdown has closed -/

/-- A queue is empty if no ticket names a record. -/
theorem Queue.size_eq_zero_iff {S : Type → Type} [Slab S] {J : Type} {q : Queue S J} :
    q.size = 0 ↔ ∀ k, q.get? k = none := by
  rw [q.size_eq_length q.nodup_tickets fun k => q.mem_tickets, List.length_eq_zero_iff,
    List.eq_nil_iff_forall_not_mem]
  simp [Queue.mem_tickets]

namespace Pool

variable {α : Type} {p p' : Pool α}

/-- A shutdown was accepted and has not reopened anything. -/
structure Closed (p : Pool α) : Prop where
  ending : p.standing = .stopped ∨ ∃ notified, p.standing = .stopping notified
  size_eq : p.queue.size = 0

theorem Closed.inactive (h : p.Closed) : p.isActive = false := by
  rcases h.ending with hs | ⟨_, hs⟩ <;> simp [isActive, hs]

theorem Closed.get? (h : p.Closed) (k : Ticket) : p.queue.get? k = none :=
  Queue.size_eq_zero_iff.mp h.size_eq k

/-- A shutdown is accepted and closes the pool, or refused and noted. -/
theorem shutdown_cases (p : Pool α) :
    (p.queue.size = 0 ∧ p.shutdown.1 = none ∧ p.shutdown.2.Closed ∧
        p.shutdown.2.threads = p.threads) ∨
      p.queue.size ≠ 0 ∧
        p.shutdown = (some .hasPendingTasks, p.note (.shutdownRefused p.queue.size)) := by
  by_cases hsize : p.queue.size = 0
  · have hempty : p.queue.isEmpty = true := beq_iff_eq.mpr hsize
    refine Or.inl ⟨hsize, by simp [Pool.shutdown, hempty], ?_⟩
    simp only [Pool.shutdown, hempty, if_true, awaitWorkers]
    split
    · exact ⟨⟨Or.inl rfl, hsize⟩, rfl⟩
    · exact ⟨⟨Or.inr ⟨false, rfl⟩, hsize⟩, rfl⟩
  · have hempty : p.queue.isEmpty = false := beq_eq_false_iff_ne.mpr hsize
    exact Or.inr ⟨hsize, by simp [Pool.shutdown, hempty]⟩

/-- No worker of a closed pool runs anything. -/
theorem Closed.idle (h : p.Closed) (hp : p.Sound) {w : Nat} {phase : Phase}
    (hw : p.workers[w]? = some phase) : phase.ticket? = none := by
  cases hk : phase.ticket? with
  | none => rfl
  | some k =>
    obtain ⟨r, hr, -⟩ :=
      Queue.status?_eq_some.mp (hp.staffed.executing w k ((ticketOf?_of_phase hw).trans hk))
    exact absurd (hr.symm.trans (h.get? k)) (by simp)

theorem Closed.status? (h : p.Closed) (k : Ticket) : p.queue.status? k = none := by
  rw [Queue.status?, h.get? k, Option.map_none]

/-- A worker that looks for work in a closed pool leaves. -/
theorem Closed.advance_eq (h : p.Closed) (hp : p.queue.Sound) (w : Nat) :
    p.advance w = p.leave w :=
  advance_eq_leave hp h.inactive (fun k => by simp [h.status? k]) w

theorem Closed.leave (h : p.Closed) (w : Nat) : (p.leave w).Closed where
  ending := by
    show p.standing.notify = _ ∨ ∃ notified, p.standing.notify = _
    rcases h.ending with hs | ⟨_, hs⟩ <;> simp [hs, Standing.notify]
  size_eq := h.size_eq

/-- A closed pool stays closed, and nobody joins its workers. -/
theorem Closed.section (h : p.Closed) (hp : p.Sound) (hs : Section p p') :
    p'.Closed ∧ p'.threads ≤ p.threads := by
  have hactive (ha : p.isActive = true) : False := by simp [h.inactive] at ha
  have hrun {w : Nat} {k : Ticket} {job : Job} {stage : Stage}
      (hw : p.workers[w]? = some (.executing k job stage)) : False := by
    simpa [Phase.ticket?] using h.idle hp hw
  cases hs with
  | submit ha refusal job => exact (hactive ha).elim
  | advance hw =>
    rw [h.advance_eq hp.queue]
    exact ⟨h.leave _, Nat.sub_le _ _⟩
  | wake hw =>
    have hwoken : { p with busy := p.busy + 1 }.Closed := ⟨h.ending, h.size_eq⟩
    rw [Pool.wake, hwoken.advance_eq hp.queue]
    exact ⟨hwoken.leave _, Nat.sub_le _ _⟩
  | enterBody hw hs => exact (hrun hw).elim
  | panicBody hw => exact (hrun hw).elim
  | returnBody hw v => exact (hrun hw).elim
  | finish hw => exact (hrun hw).elim
  | openGate task run => exact ⟨⟨h.ending, h.size_eq⟩, Nat.le_refl _⟩
  | join k =>
    have he : p.join k = p := by simp [Pool.join, Queue.join, Queue.update, h.get? k]
    rw [he]
    exact ⟨h, Nat.le_refl _⟩
  | detach k =>
    have he : p.detach k = p := by simp [Pool.detach, Queue.detach, h.get? k]
    rw [he]
    exact ⟨h, Nat.le_refl _⟩
  | unlink k =>
    have he : p.unlink k = p := by simp [Pool.unlink, Queue.remove, h.get? k]
    rw [he]
    exact ⟨h, Nat.le_refl _⟩
  | shutdown ha => exact (hactive ha).elim
  | awaitWorkers hwoken =>
    unfold Pool.awaitWorkers
    split
    · exact ⟨⟨Or.inl rfl, h.size_eq⟩, Nat.le_refl _⟩
    · exact ⟨⟨Or.inr ⟨false, rfl⟩, h.size_eq⟩, Nat.le_refl _⟩
  | drop =>
    have he : p.drop = p := by simp [Pool.drop, h.inactive]
    rw [he]
    exact ⟨h, Nat.le_refl _⟩

theorem Closed.sections (h : p.Closed) (hp : p.Sound) (hs : Sections p p') :
    p'.Closed ∧ p'.threads ≤ p.threads := by
  refine hs.induct (P := fun q => q.Closed ∧ q.threads ≤ p.threads) hp ⟨h, Nat.le_refl _⟩ ?_
  rintro q q' hq ⟨hc, hle⟩ hs
  obtain ⟨hc', hle'⟩ := hc.section hq hs
  exact ⟨hc', Nat.le_trans hle' hle⟩

/-- A worker of a closed pool that has not left is about to look for work. -/
theorem Closed.looking (h : p.Closed) (hp : p.Sound) {w : Nat} {phase : Phase}
    (hw : p.workers[w]? = some phase) (hin : phase ≠ .exited) :
    phase = .starting ∨ phase = .parked true := by
  have hidle := h.idle hp hw
  cases phase with
  | starting => exact Or.inl rfl
  | parked notified =>
    cases notified with
    | true => exact Or.inr rfl
    | false => exact absurd hw (hp.alert.told (Or.inr h.inactive) w)
  | executing k job stage => exact absurd hidle (by simp [Phase.ticket?])
  | exited => exact absurd rfl hin

end Pool

/-! ## 3. Moves in a system with a closed pool -/

namespace System

variable {α : Type} {s : System α} {i : Nat} {pool : Pool α}

/-- What a worker does, it does to submissions of its pool. -/
theorem pool_of_mem_happenings {j w : Nat} {e : Happening α}
    (he : e ∈ s.happenings (.worker j w)) : e.submission.pool = j := by
  have hclaim {s' : System α} (he : e ∈ s'.claimBy j w) : e.submission.pool = j := by
    unfold claimBy at he
    split at he
    · rw [List.mem_singleton.mp he]
      rfl
    · exact absurd he List.not_mem_nil
  unfold happenings at he
  dsimp only at he
  split at he
  · exact hclaim he
  · exact hclaim he
  · split at he
    · rw [List.mem_singleton.mp he]
      rfl
    · exact absurd he List.not_mem_nil
  · split at he
    · rw [List.mem_singleton.mp he]
      rfl
    · exact absurd he List.not_mem_nil
  · rcases List.mem_append.mp he with he | he
    · exact hclaim he
    · rw [List.mem_singleton.mp he]
      rfl
  · exact absurd he List.not_mem_nil

/-- The next move of a worker of a closed pool is to leave, and it does nothing else. -/
theorem perform_of_closed (hi : s.pools[i]? = some pool) (hp : pool.Sound) (hc : pool.Closed)
    {w : Nat} {phase : Phase} (hw : pool.workers[w]? = some phase) (hin : phase ≠ .exited) :
    s.ready (.worker i w) = true ∧ s.happenings (.worker i w) = [] ∧
      ∃ q : Pool α, q.threads = pool.threads ∧
        (s.perform (.worker i w)).pools[i]? = some (q.leave w) := by
  have hphase : s.phase? i w = some phase := phase?_eq_some.mpr ⟨pool, hi, hw⟩
  have hlooks : phase.looksNext = true := by
    rcases hc.looking hp hw hin with rfl | rfl <;> rfl
  obtain ⟨q, hlook, hperform⟩ := s.perform_look hi hp hw hlooks
  have hleave : q.advance w = q.leave w := by
    refine Pool.advance_eq_leave hlook.sound.queue (hlook.active_eq.trans hc.inactive) ?_ w
    intro k hqueued
    exact absurd ((hlook.queued_iff k).mp hqueued) (by simp [hc.status? k])
  rw [hleave] at hperform
  refine ⟨?_, ?_, q, hlook.threads_eq, hperform⟩
  · rcases hc.looking hp hw hin with rfl | rfl <;> simp [ready, hphase, Phase.isLooking]
  · -- it has left, so it has claimed nothing
    have hafter : (s.perform (.worker i w)).phase? i w = some .exited := by
      refine phase?_eq_some.mpr ⟨_, hperform, ?_⟩
      exact Pool.workers_setPhase_self hlook.starting .exited
    have hnone := claimBy_of_idle hafter rfl
    rcases hc.looking hp hw hin with rfl | rfl <;> simp [happenings, hphase, hnone]

/-- In a closed pool nothing happens to a submission. -/
theorem happenings_of_closed (hi : s.pools[i]? = some pool) (hp : pool.Sound) (hc : pool.Closed)
    (m : Move) : (s.happenings m).filter (·.submission.pool = i) = [] := by
  refine List.filter_eq_nil_iff.mpr fun e he hpool => ?_
  cases m with
  | worker j w =>
    obtain rfl : j = i := (pool_of_mem_happenings he).symm.trans (of_decide_eq_true hpool)
    have hphase : s.phase? j w = pool.workers[w]? := by simp [phase?, hi]
    cases hw : pool.workers[w]? with
    | none => simp [happenings, hphase, hw] at he
    | some phase =>
      by_cases hin : phase = .exited
      · simp [happenings, hphase, hw, hin] at he
      · simp [(perform_of_closed hi hp hc hw hin).2.1] at he
  | joiner n => exact absurd he List.not_mem_nil
  | shutdown j => exact absurd he List.not_mem_nil

end System

/-! ## 4. Shutdowns of a program -/

namespace Program

variable {α : Type} {p : Program α} {i : Nat} {pool : Pool α}

/-- Whether a submission of task `t` is done with: it has come back with the release of its task, or
was left to its pool when the task was detached and has finished. -/
def isBack (p : Program α) (t : Task α) (x : Submission) : Bool :=
  !(p.leaving.map (·.submission)).contains x &&
    match t.fate with
    | .live => false
    | .released => true
    | .detached => p.hasFinished x

/-- What has happened to submissions of a pool, newest first. -/
def historyOf (p : Program α) (i : Nat) : List (Happening α) :=
  p.history.filter (·.submission.pool = i)

/-- Whether an action is a move of a worker of pool `i` that can move. -/
def movesWorker (p : Program α) (i : Nat) : Action α → Bool
  | .move (.worker j w) => j == i && p.system.ready (.worker j w)
  | _ => false

/-- How many actions of a list are such moves when their turn comes. -/
def movesOf (p : Program α) (i : Nat) : List (Action α) → Nat
  | [] => 0
  | a :: rest => (if p.movesWorker i a then 1 else 0) + (p.act a).movesOf i rest

theorem Reachable.numbered (h : p.Reachable) : p.ledger.Numbered := by
  refine h.of_ticks ?_ fun _ _ => Ledger.Numbered.tick
  intro i n m hm
  exact absurd hm (by simp [ledger, start, System.start])

/-- The numbers that a pool has given are those of the submissions on the lists of the tasks. -/
theorem Reachable.lt_next_iff (h : p.Reachable) (hi : p.system.pools[i]? = some pool) (n : Nat) :
    n < pool.queue.next ↔ ∃ t ∈ p.system.tasks, ∃ x ∈ t.submissions, x.place = (i, n) := by
  constructor
  · intro hlt
    obtain ⟨a, x, hx, hplace⟩ := h.numbered i n _ (ledger_next hi) hlt
    cases ht : p.system.tasks[a]? with
    | none => simp [Ledger.submissions, ledger, ht] at hx
    | some t => exact ⟨t, List.mem_of_getElem? ht, x, submissions_ledger ht ▸ hx, hplace⟩
  · rintro ⟨t, ht, x, hx, hplace⟩
    obtain ⟨a, ha⟩ := List.getElem?_of_mem ht
    obtain ⟨hpool, rfl⟩ := Prod.mk.inj hplace
    obtain ⟨m, hm, hlt⟩ := h.owned.number_lt a x (submissions_ledger ha ▸ hx)
    rw [hpool, ledger_next hi] at hm
    exact Option.some.inj hm ▸ hlt

/-- A submission has its record for as long as it is not back. -/
theorem Reachable.mem_owners_iff (h : p.Reachable) {t : Task α} (ht : t ∈ p.system.tasks)
    {x : Submission} (hx : x ∈ t.submissions) : x ∈ p.owners x.pool ↔ p.isBack t x = false := by
  obtain ⟨a, ha⟩ := List.getElem?_of_mem ht
  have hmem : x ∈ p.ledger.submissions a := submissions_ledger ha ▸ hx
  have hof (fate : Fate) : x ∈ p.submissionsOf fate x.pool ↔ t.fate = fate := by
    rw [mem_submissionsOf]
    constructor
    · rintro ⟨-, b, hb, hxb⟩
      obtain rfl := h.owned.owner_unique hmem hxb
      exact Option.some.inj ((fate?_ledger ha).symm.trans hb)
    · rintro rfl
      exact ⟨rfl, a, fate?_ledger ha, hmem⟩
  have hleaving : (p.leaving.map (·.submission)).contains x = true ↔
      ∃ l ∈ p.leaving, l.submission = x := by
    rw [List.contains_iff_mem, List.mem_map]
  have hleaving' : (∀ l ∈ p.leaving, l.submission ≠ x) ↔
      ¬ (p.leaving.map (·.submission)).contains x = true := by
    rw [hleaving]
    simp
  rw [owners, List.mem_append, List.mem_append, held, hof, mem_returning, mem_leftBehind, hof,
    hleaving', ← hleaving, isBack]
  cases (p.leaving.map (·.submission)).contains x <;> cases t.fate <;> simp

theorem Reachable.size_eq_zero_iff (h : p.Reachable) (hi : p.system.pools[i]? = some pool) :
    pool.queue.size = 0 ↔
      ∀ t ∈ p.system.tasks, ∀ x ∈ t.submissions, x.pool = i → p.isBack t x = true := by
  rw [Queue.size_eq_zero_iff]
  constructor
  · rintro hnone t ht x hx rfl
    by_contra hback
    have hmem := (h.mem_owners_iff ht hx).mpr (by simpa using hback)
    have hsome := ((h.accounted hi).linked_iff x.ticket).mp hmem
    simp [hnone] at hsome
  · intro hback k
    by_contra hk
    have hmem : ⟨i, k⟩ ∈ p.owners i :=
      ((h.accounted hi).linked_iff k).mpr (Option.isSome_iff_ne_none.mpr hk)
    obtain ⟨r, hr⟩ := Option.ne_none_iff_exists'.mp hk
    obtain ⟨a, -, -, hx, -⟩ := h.owned.linked ⟨i, k⟩ r ((ledger_record hi k).trans hr)
    cases ht : p.system.tasks[a]? with
    | none => simp [Ledger.submissions, ledger, ht] at hx
    | some t =>
      have hx' : ⟨i, k⟩ ∈ t.submissions := submissions_ledger ht ▸ hx
      have hfalse := (h.mem_owners_iff (List.mem_of_getElem? ht) hx').mp hmem
      exact absurd (hback t (List.mem_of_getElem? ht) _ hx' rfl) (by simp [hfalse])

/-- One action, whatever it is, when pool `i` is closed. -/
theorem Reachable.closed_act (h : p.Reachable) (hi : p.system.pools[i]? = some pool)
    (hc : pool.Closed) {a : Action α} (ha : p.Permits a) :
    ∃ pool', (p.act a).system.pools[i]? = some pool' ∧ pool'.Closed ∧
      (p.act a).historyOf i = p.historyOf i ∧
      (if p.movesWorker i a then 1 else 0) + pool'.threads ≤ pool.threads := by
  have hp := h.poolsSound i pool hi
  obtain ⟨pool', hi', hs⟩ := (Leads.refl.step a ha).sections hi
  obtain ⟨hc', hle⟩ := hc.sections hp hs
  refine ⟨pool', hi', hc', ?_, ?_⟩
  · rcases p.history_act a with he | ⟨m, -, he⟩
    · rw [historyOf, he, historyOf]
    · rw [historyOf, he, List.filter_append, System.happenings_of_closed hi hp hc, historyOf]
      rfl
  · split
    · next hmoves =>
      -- the worker that moves leaves
      unfold movesWorker at hmoves
      split at hmoves
      · next j w =>
        obtain ⟨hj, hready⟩ := (Bool.and_eq_true _ _).mp hmoves
        obtain rfl := eq_of_beq hj
        have hphase : p.system.phase? j w = pool.workers[w]? := by simp [System.phase?, hi]
        obtain ⟨phase, hw⟩ : ∃ phase, pool.workers[w]? = some phase := by
          cases hw : pool.workers[w]? with
          | none => simp [System.ready, hphase, hw] at hready
          | some phase => exact ⟨phase, rfl⟩
        have hin : phase ≠ .exited := by
          rintro rfl
          simp [System.ready, hphase, hw, Phase.isUnderWay, Phase.isLooking] at hready
        obtain ⟨-, -, q, hthreads, hq⟩ := System.perform_of_closed hi hp hc hw hin
        obtain rfl : pool' = q.leave w := Option.some.inj (hi'.symm.trans hq)
        have hpos : 0 < pool.threads := by
          rw [hp.counted.threads_eq]
          refine List.countP_pos_iff.mpr ⟨phase, List.mem_of_getElem? hw, ?_⟩
          cases phase <;> simp_all [Phase.isIn]
        have hleft : (q.leave w).threads = q.threads - 1 := rfl
        omega
      · exact absurd hmoves (by simp)
    · omega

/-- Any number of actions. -/
theorem Reachable.closed_run (h : p.Reachable) (hi : p.system.pools[i]? = some pool)
    (hc : pool.Closed) {as : List (Action α)} (has : p.Allows as) :
    ∃ pool', (p.run as).system.pools[i]? = some pool' ∧ pool'.Closed ∧
      (p.run as).historyOf i = p.historyOf i ∧
      p.movesOf i as + pool'.threads ≤ pool.threads := by
  induction as generalizing p pool with
  | nil => exact ⟨pool, hi, hc, rfl, by simp [movesOf]⟩
  | cons a rest ih =>
    obtain ⟨ha, hrest⟩ := has
    obtain ⟨pool', hi', hc', hhistory', hle'⟩ := h.closed_act hi hc ha
    obtain ⟨pool'', hi'', hc'', hhistory'', hle''⟩ :=
      ih (h.leads (Leads.refl.step a ha)) hi' hc' hrest
    refine ⟨pool'', hi'', hc'', hhistory''.trans hhistory', ?_⟩
    rw [movesOf]
    omega

/-- A pool that a shutdown has closed, and its program. -/
structure Closing (p : Program α) (i : Nat) (pool : Pool α) : Prop where
  inactive : pool.isActive = false
  empty : ∀ k, pool.queue.get? k = none
  /-- No worker runs a body. -/
  idle : ∀ phase ∈ pool.workers, phase.ticket? = none
  /-- No task in use holds a submission to the pool. -/
  unheld : p.held i = []
  /-- A worker that has not left can move. -/
  awake : ∀ w phase, pool.workers[w]? = some phase → phase ≠ .exited →
    p.system.ready (.worker i w) = true
  /-- When no worker can move, all have left, and the shutdown has returned or is about to. -/
  ended : (∀ w, p.system.ready (.worker i w) = false) →
    pool.threads = 0 ∧ pool.busy = 0 ∧ (∀ phase ∈ pool.workers, phase = .exited) ∧
      (pool.standing = .stopped ∨ p.system.ready (.shutdown i) = true)

theorem Reachable.closing (h : p.Reachable) (hi : p.system.pools[i]? = some pool)
    (hc : pool.Closed) : p.Closing i pool := by
  have hp := h.poolsSound i pool hi
  have hawake (w : Nat) (phase : Phase) (hw : pool.workers[w]? = some phase)
      (hin : phase ≠ .exited) : p.system.ready (.worker i w) = true :=
    (System.perform_of_closed hi hp hc hw hin).1
  refine ⟨hc.inactive, hc.get?, fun phase hmem => ?_, ?_, hawake, fun hstill => ?_⟩
  · obtain ⟨w, hw⟩ := List.getElem?_of_mem hmem
    exact hc.idle hp hw
  · refine List.eq_nil_iff_forall_not_mem.mpr fun x hx => ?_
    obtain ⟨r, hr, -⟩ := h.record_of_owned (List.mem_append.mpr (Or.inl hx))
    obtain rfl := (mem_submissionsOf.mp hx).1
    exact absurd ((ledger_record hi x.ticket).symm.trans hr) (by simp [hc.get?])
  · have hexited : ∀ phase ∈ pool.workers, phase = .exited := by
      intro phase hmem
      obtain ⟨w, hw⟩ := List.getElem?_of_mem hmem
      by_contra hin
      exact absurd ((hawake w phase hw hin).symm.trans (hstill w)) (by simp)
    have hthreads : pool.threads = 0 := by
      rw [hp.counted.threads_eq, List.countP_eq_zero]
      intro phase hmem
      simp [hexited phase hmem, Phase.isIn]
    refine ⟨hthreads, Nat.le_zero.mp (hthreads ▸ hp.counted.busy_le), hexited, ?_⟩
    rcases hc.ending with hs | ⟨notified, hs⟩
    · exact Or.inl hs
    · right
      cases notified with
      | true => simp [System.ready, hi, hs, Standing.isWoken]
      | false => exact absurd (hp.alert.awaited hs) (by simp [hthreads])

/-- The owner of a pool in use asks it for a shutdown. -/
theorem shutdown_eq (hi : p.system.pools[i]? = some pool) (hactive : pool.isActive = true) :
    (p.system.shutdown i).1 = pool.shutdown.1 ∧
      p.act (.shutdown i) = p.onSystem (·.modifyPool i fun _ => pool.shutdown.2) := by
  constructor
  · simp [System.shutdown, hi, hactive]
  · simp [act, onSystem, System.shutdown, hi, hactive]

/-- **A shutdown is accepted exactly when nothing is left to do**, that is when every submission
that the pool ever accepted is back.  From then on no body of the pool runs or begins, no task holds
a submission to it, and whatever else is done, its workers leave one by one with their next
moves until none is left.  In particular no shutdown is accepted while a body runs; and one that is
refused leaves everything as it was but for a note, and the pool in use. -/
theorem shutdown_is_exact (h : p.Reachable) (hi : p.system.pools[i]? = some pool)
    (hactive : pool.isActive = true) :
    (∀ n, n < pool.queue.next ↔
      ∃ t ∈ p.system.tasks, ∃ x ∈ t.submissions, x.place = (i, n)) ∧
    ((p.system.shutdown i).1 = none ↔
      ∀ t ∈ p.system.tasks, ∀ x ∈ t.submissions, x.pool = i → p.isBack t x = true) ∧
    ((p.system.shutdown i).1 = none ↔ ∀ k, pool.queue.get? k = none) ∧
    ((p.system.shutdown i).1 = none → ∀ as, (p.act (.shutdown i)).Allows as →
      let q := (p.act (.shutdown i)).run as
      ∃ pool', q.system.pools[i]? = some pool' ∧ q.Closing i pool' ∧
        q.historyOf i = p.historyOf i ∧
        (p.act (.shutdown i)).movesOf i as + pool'.threads ≤ pool.threads) ∧
    ((∃ phase ∈ pool.workers, phase.ticket? ≠ none) → (p.system.shutdown i).1 ≠ none) ∧
    ((p.system.shutdown i).1 ≠ none → (p.system.shutdown i).1 = some .hasPendingTasks ∧
      p.act (.shutdown i) =
        p.onSystem (·.modifyPool i (·.note (.shutdownRefused pool.queue.size))) ∧
      (pool.note (.shutdownRefused pool.queue.size)).isActive = true) := by
  obtain ⟨hanswer, hact⟩ := shutdown_eq hi hactive
  have hnone : (p.system.shutdown i).1 = none ↔ pool.queue.size = 0 := by
    rw [hanswer]
    rcases pool.shutdown_cases with ⟨hsize, he, -⟩ | ⟨hsize, he⟩ <;> simp [hsize, he]
  refine ⟨h.lt_next_iff hi, hnone.trans (h.size_eq_zero_iff hi),
    hnone.trans Queue.size_eq_zero_iff, ?_, ?_, ?_⟩
  · intro haccepted as has
    obtain ⟨-, -, hc, hthreads⟩ | ⟨hsize, -⟩ := pool.shutdown_cases
    · have hreach : (p.act (.shutdown i)).Reachable :=
        h.leads (Leads.refl.step (.shutdown i) trivial)
      have hclosed : (p.act (.shutdown i)).system.pools[i]? = some pool.shutdown.2 := by
        rw [hact]
        simp [onSystem, System.pools_modifyPool, hi]
      have hhistory : (p.act (.shutdown i)).historyOf i = p.historyOf i := by
        rw [hact]
        rfl
      obtain ⟨pool', hi', hc', hhistory', hle⟩ := hreach.closed_run hclosed hc has
      exact ⟨pool', hi', (hreach.leads (leads_run as _ has)).closing hi' hc',
        hhistory'.trans hhistory, hthreads ▸ hle⟩
    · exact absurd (hnone.mp haccepted) hsize
  · rintro ⟨phase, hmem, hrun⟩ haccepted
    obtain ⟨w, hw⟩ := List.getElem?_of_mem hmem
    obtain ⟨k, hk⟩ := Option.ne_none_iff_exists'.mp hrun
    obtain ⟨r, hr, -⟩ := Queue.status?_eq_some.mp
      ((h.poolsSound i pool hi).staffed.executing w k ((Pool.ticketOf?_of_phase hw).trans hk))
    have hget := Queue.size_eq_zero_iff.mp (hnone.mp haccepted) k
    exact absurd (hr.symm.trans hget) (by simp)
  · intro hrefused
    obtain ⟨hsize, -⟩ | ⟨-, he⟩ := pool.shutdown_cases
    · exact absurd (hnone.mpr hsize) hrefused
    · have hnoted : p.system.modifyPool i (fun _ => pool.note (.shutdownRefused pool.queue.size)) =
          p.system.modifyPool i (·.note (.shutdownRefused pool.queue.size)) :=
        System.modifyPool_congr hi rfl
      refine ⟨by rw [hanswer, he], ?_, hactive⟩
      rw [hact, he]
      exact congrArg (fun s : System α => { p with system := s }) hnoted

/-- The one submission is released with its task; its worker is parked when the shutdown comes, and
leaves with its next move. -/
theorem counting_shuts_down :
    let p := counting.run [.submit 0 0, .move (.worker 0 0), .move (.worker 0 0),
      .move (.worker 0 0), .move (.worker 0 0), .join 0 none, .move (.joiner 0), .release 0,
      .giveBack ⟨0, ⟨0, ⟨0, 0⟩⟩, .released⟩]
    ∃ pool, p.system.pools[0]? = some pool ∧ pool.isActive = true ∧
      (p.system.shutdown 0).1 = none ∧
      let q := (p.act (.shutdown 0)).run [.move (.worker 0 0)]
      ∃ pool', q.system.pools[0]? = some pool' ∧ q.Closing 0 pool' ∧ 1 + pool'.threads ≤ 1 := by
  intro p
  obtain ⟨pool, hi, hpool⟩ : ∃ pool, p.system.pools[0]? = some pool ∧
      (pool.isActive, pool.threads) = (true, 1) := Option.map_eq_some_iff.mp (by decide)
  obtain ⟨hactive, hthreads⟩ := Prod.mk.inj hpool
  have haccepted : (p.system.shutdown 0).1 = none := by decide
  obtain ⟨-, -, -, hends, -⟩ := shutdown_is_exact (counting_reachable (by decide)) hi hactive
  obtain ⟨pool', hi', hclosing, -, hle⟩ := hends haccepted [.move (.worker 0 0)] (by decide)
  have hmoves : (p.act (.shutdown 0)).movesOf 0 [.move (.worker 0 0)] = 1 := by decide
  rw [hmoves, hthreads] at hle
  exact ⟨pool, hi, hactive, haccepted, pool', hi', hclosing, hle⟩

end Program
end WorkerPool
