/-
# What a system accepts and begins before it rests

Bodies may submit tasks while a system settles, so accepted submissions and begun bodies are not
bounded by what the callers asked for.  Two laws bound them.  They hold along every move of every
thread, whatever the order:

* a submission that is accepted takes a place, and nobody gives a place back while the threads
  move (`Pool.Spends.kept`), so a pool accepts at most as many as it had places left, and a pool
  that is not in use accepts none;
* a submission that is accepted waits until it is claimed, and its body begins once
  (`System.Spends.bodies`), so no more bodies begin than were waiting or have been accepted.

Places are given back by releases and detachments, and those are no moves.
-/
import Mathlib.Data.List.Forall2
import WorkerPool.Proofs.Acceptances
import WorkerPool.Proofs.Sessions

namespace WorkerPool

/-! ## 1. What is counted -/

/-- Whether the worker has a record whose body has not begun. -/
def Phase.isEntering : Phase → Bool
  | executing _ _ .entering => true
  | _ => false

/-- Whether it is the beginning of a body. -/
def Event.isStart {α : Type} : Event α → Bool
  | started .. => true
  | panicked .. => false

namespace Queue

variable {S : Type → Type} [Slab S] {J : Type} {q : Queue S J}

/-- The tickets of the records that wait to be claimed. -/
def queued (q : Queue S J) : List Ticket := q.tickets.filter fun k => q.status? k = some .queued

theorem mem_queued {k : Ticket} : k ∈ q.queued ↔ q.status? k = some .queued := by
  rw [queued, List.mem_filter, decide_eq_true_eq, mem_tickets]
  refine ⟨And.right, fun hk => ⟨?_, hk⟩⟩
  obtain ⟨r, hr, -⟩ := status?_eq_some.mp hk
  simp [hr]

end Queue

namespace Pool

variable {α : Type} {p p' p'' : Pool α}

theorem Sound.length_queued (h : p.Sound) : p.queue.queued.length = p.queue.waiting.length := by
  have hperm : p.queue.queued.Perm p.queue.waiting :=
    (List.perm_ext_iff_of_nodup (p.queue.nodup_tickets.filter _) h.waiting_nodup).mpr fun k =>
      Queue.mem_queued.trans (h.queue.waiting_iff k).symm
  exact hperm.length_eq

/-- The records that are claimed and whose bodies have not begun. -/
def entering (p : Pool α) : Nat := p.workers.countP Phase.isEntering

/-- The call of a handler begins no body. -/
theorem countP_panicEvents (p : Pool α) (payload : α) :
    (p.panicEvents payload).countP Event.isStart = 0 := by
  unfold panicEvents
  split <;> rfl

/-- The submissions that are accepted and whose bodies have not begun. -/
def unbegun (p : Pool α) : Nat := p.queue.waiting.length + p.entering

theorem entering_setPhase {w : Nat} {old phase : Phase} (hw : p.workers[w]? = some old)
    (hold : old.isEntering = false) (hnew : phase.isEntering = false) :
    (p.setPhase w phase).entering = p.entering := by
  have hcount := countP_setPhase hw phase Phase.isEntering
  rw [hold, hnew] at hcount
  exact hcount

/-- Nobody claims or begins anything because he is told to look. -/
theorem entering_notifyWorkers (p : Pool α) : p.notifyWorkers.entering = p.entering := by
  show (p.workers.map Phase.notify).countP _ = _
  rw [List.countP_map]
  refine List.countP_congr fun phase _ => ?_
  cases phase <;> simp [Phase.notify, Phase.isEntering]

/-- A worker that is started has no record yet. -/
theorem entering_grow (p : Pool α) (refusal : Option String) :
    (p.grow refusal).2.entering = p.entering := by
  rcases p.grow_cases refusal with ⟨-, hg⟩ | ⟨-, -, hg⟩ | ⟨_, -, -, ⟨-, hg⟩ | ⟨-, hg⟩⟩ <;> rw [hg]
  · show (p.workers ++ [Phase.starting]).countP _ = _
    rw [List.countP_append]
    rfl
  · rfl
  · rfl

theorem entering_submit (p : Pool α) (refusal : Option String) (job : Job) :
    (p.submit refusal job).2.entering = p.entering := by
  rcases submit_cases p refusal job with ⟨-, he⟩ | ⟨e, -, -, he⟩ | ⟨-, -, he⟩ <;> rw [he]
  · rfl
  · exact entering_grow p refusal
  · exact (entering_notifyWorkers (p.grow refusal).2).trans (entering_grow p refusal)

/-! ## 2. Places -/

/-- What is accepted is not begun yet. -/
def Postpones (p p' : Pool α) : Prop :=
  p'.unbegun + p.queue.next = p.unbegun + p'.queue.next

/-- A pool some moves later: it has given a place away with each number, and none if it was not in
use. -/
structure Spends (p p' : Pool α) : Prop where
  limit : p'.queue.limit = p.queue.limit
  active : p'.isActive = p.isActive
  kept : p'.queue.next + p.queue.kept = p.queue.next + p'.queue.kept
  next_le : p.queue.next ≤ p'.queue.next
  closed : p.isActive = false → p'.queue.next = p.queue.next

theorem Spends.of_kept (hlimit : p'.queue.limit = p.queue.limit)
    (hactive : p'.isActive = p.isActive) (hnext : p'.queue.next = p.queue.next)
    (hkept : p'.queue.kept = p.queue.kept) : Spends p p' :=
  ⟨hlimit, hactive, by rw [hnext, hkept], Nat.le_of_eq hnext.symm, fun _ => hnext⟩

theorem Spends.of_queue (hqueue : p'.queue = p.queue) (hactive : p'.isActive = p.isActive) :
    Spends p p' :=
  .of_kept (by rw [hqueue]) hactive (by rw [hqueue]) (by rw [hqueue])

theorem Spends.refl (p : Pool α) : Spends p p := .of_queue rfl rfl

theorem Spends.trans (h : Spends p p') (h' : Spends p' p'') : Spends p p'' where
  limit := h'.limit.trans h.limit
  active := h'.active.trans h.active
  kept := by
    have hkept := h.kept
    have hkept' := h'.kept
    omega
  next_le := Nat.le_trans h.next_le h'.next_le
  closed := fun hc => (h'.closed (h.active.trans hc)).trans (h.closed hc)

/-- A pool accepts no more than it had places left. -/
theorem Spends.next_le_room (h : Spends p p') (hp' : p'.Sound) :
    p'.queue.next ≤ p.queue.next + if p.isActive then p.room else 0 := by
  split
  · have hkept := h.kept
    have hle : p'.queue.kept ≤ p.queue.limit :=
      h.limit ▸ Nat.le_trans p'.queue.kept_le_size hp'.queue.size_le
    unfold room
    omega
  · next hc => exact Nat.le_of_eq (h.closed (by simpa using hc))

/-- A look for work gives no place away, and begins no body. -/
theorem spends_advance (hq : p.queue.Sound) {w : Nat} (hw : p.workers[w]? = some .starting) :
    Spends p (p.advance w) ∧ Postpones p (p.advance w) := by
  suffices hsuff : Spends p (p.advance w) ∧ (p.advance w).unbegun = p.unbegun by
    refine ⟨hsuff.1, ?_⟩
    rw [Postpones, hsuff.2, next_advance hq]
  rcases advance_cases hq w with
    ⟨k, rest, r, job, hwait, -, -, -, he⟩ | ⟨-, ⟨-, he⟩ | ⟨hina, he⟩⟩ <;> rw [he]
  · refine ⟨.of_kept ?_ rfl (Queue.next_started _ _ _) (Queue.kept_started _ _ _), ?_⟩
    · show (p.queue.started k rest).limit = _
      simp [Queue.started]
    · have hentering : (p.setPhase w (.executing k job .entering)).entering = p.entering + 1 :=
        countP_setPhase hw (.executing k job .entering) Phase.isEntering
      show rest.length + (p.setPhase w (.executing k job .entering)).entering = _
      rw [unbegun, hwait, List.length_cons, hentering]
      omega
  · refine ⟨.of_queue rfl rfl, ?_⟩
    exact congrArg (p.queue.waiting.length + ·) (entering_setPhase hw rfl rfl)
  · refine ⟨.of_queue rfl ?_, ?_⟩
    · show (p.standing.notify == .active) = (p.standing == .active)
      cases p.standing <;> rfl
    · exact congrArg (p.queue.waiting.length + ·) (entering_setPhase hw rfl rfl)

/-- Neither does what a worker does before its look. -/
theorem spends_goOn (h : p.Sound) {w : Nat} {phase : Phase} (hw : p.workers[w]? = some phase)
    (hlooks : phase.looksNext = true) :
    Spends p (p.goOn w phase) ∧ Postpones p (p.goOn w phase) := by
  suffices hlook : ∃ q : Pool α, q.queue.Sound ∧ q.workers[w]? = some .starting ∧
      Spends p q ∧ q.unbegun = p.unbegun ∧ q.queue.next = p.queue.next ∧
      p.goOn w phase = q.advance w by
    obtain ⟨q, hq, hstarting, hspends, hunbegun, hnext, he⟩ := hlook
    obtain ⟨hspends', hpostpones⟩ := spends_advance hq hstarting
    rw [Postpones, hunbegun, hnext] at hpostpones
    rw [he]
    exact ⟨hspends.trans hspends', hpostpones⟩
  rcases phase with _ | notified | ⟨k, job, stage⟩ | _
  · exact ⟨p, h.queue, hw, .refl p, rfl, rfl, rfl⟩
  · obtain rfl : notified = true := hlooks
    refine ⟨{ p with busy := p.busy + 1 }.setPhase w .starting, h.queue, ?_, .of_queue rfl rfl,
      ?_, rfl, ?_⟩
    · exact workers_setPhase_self (p := { p with busy := p.busy + 1 }) hw .starting
    · exact congrArg (p.queue.waiting.length + ·) (entering_setPhase hw rfl rfl)
    · exact (advance_setPhase { p with busy := p.busy + 1 } w .starting).symm
  · cases stage with
    | «over» =>
      obtain ⟨r, hr, -, he⟩ := h.finish_eq hw
      refine ⟨p.ended w k r.detached, (h.ended hw _).queue, workers_setPhase_self hw .starting,
        ?_, ?_, Queue.next_finished _ _, he⟩
      · exact .of_kept (Queue.limit_finished _ _) rfl (Queue.next_finished _ _)
          (Queue.kept_finished hr)
      · show (p.queue.finished k).waiting.length + _ = _
        rw [Queue.waiting_finished]
        exact congrArg (p.queue.waiting.length + ·) (entering_setPhase hw rfl rfl)
    | _ => exact absurd hlooks (by simp [Phase.looksNext, Phase.isLooking])
  · exact absurd hlooks (by simp [Phase.looksNext, Phase.isLooking])

/-- A submission takes a place and waits, or changes nothing of it. -/
theorem spends_submit (hactive : p.isActive = true) (refusal : Option String) (job : Job) :
    let q := (p.submit refusal job).2
    Spends p q ∧ Postpones p q := by
  have hstanding : (p.grow refusal).2.isActive = p.isActive :=
    congrArg (· == Standing.active) (standing_grow p refusal)
  have hqueue := queue_grow p refusal
  have hentering := entering_submit p refusal job
  dsimp only
  unfold Postpones unbegun
  rw [hentering]
  rcases submit_cases p refusal job with ⟨-, he⟩ | ⟨e, -, -, he⟩ | ⟨-, -, he⟩ <;> rw [he]
  · exact ⟨.of_queue rfl rfl, rfl⟩
  · refine ⟨.of_queue hqueue hstanding, ?_⟩
    dsimp only
    rw [hqueue]
  · have hlinked : ((p.grow refusal).2.linked job).queue = p.queue.pushed job := by
      show (p.grow refusal).2.queue.pushed job = _
      rw [hqueue]
    dsimp only
    rw [hlinked, Queue.next_pushed]
    refine ⟨⟨?_, hstanding, ?_, ?_, ?_⟩, ?_⟩
    · rw [hlinked]
      rfl
    · rw [hlinked, Queue.next_pushed, Queue.kept_pushed]
      omega
    · rw [hlinked, Queue.next_pushed]
      exact Nat.le_succ _
    · intro hc
      exact absurd (hactive.symm.trans hc) (by simp)
    · show p.queue.waiting.length + 1 + _ + _ = _
      omega

theorem spends_awaitWorkers (hwoken : p.standing.isWoken = true) : Spends p p.awaitWorkers := by
  have hina : p.isActive = false := isActive_of_isWoken hwoken
  unfold awaitWorkers
  split <;> exact .of_queue rfl hina.symm

end Pool

/-! ## 3. Moves -/

namespace System

variable {α : Type} {s s' s'' : System α}

/-- How many submissions the pools have accepted. -/
def accepted (s : System α) : Nat := s.nexts.sum

/-- How many bodies have begun. -/
def begun (s : System α) : Nat := s.events.countP Event.isStart

/-- The submissions that are accepted and whose bodies have not begun. -/
def unbegun (s : System α) : Nat := (s.pools.map Pool.unbegun).sum

/-- The records that wait to be claimed. -/
def queued (s : System α) : Nat := (s.pools.map (·.queue.queued.length)).sum

/-- The places that the pools in use have left. -/
def allowance (s : System α) : Nat := ((s.pools.filter (·.isActive)).map Pool.room).sum

/-- A system some moves later. -/
structure Spends (s s' : System α) : Prop where
  pools : List.Forall₂ Pool.Spends s.pools s'.pools
  bodies : s'.begun + s'.unbegun + s.accepted = s.begun + s.unbegun + s'.accepted

theorem Spends.of_eq (hpools : s'.pools = s.pools) (hevents : s'.events = s.events) :
    s.Spends s' := by
  refine ⟨?_, ?_⟩
  · rw [hpools]
    exact List.forall₂_same.mpr fun pool _ => .refl pool
  · rw [begun, begun, unbegun, unbegun, accepted, accepted, nexts, nexts, hpools, hevents]

theorem Spends.refl (s : System α) : s.Spends s := .of_eq rfl rfl

theorem Spends.trans (h : s.Spends s') (h' : s'.Spends s'') : s.Spends s'' where
  pools := by
    have hpools := h.pools
    have hpools' := h'.pools
    generalize s.pools = l, s'.pools = l', s''.pools = l'' at hpools hpools'
    induction hpools generalizing l'' with
    | nil =>
      cases hpools'
      exact .nil
    | cons hp _ ih =>
      cases hpools' with
      | cons hp' hrest' => exact .cons (hp.trans hp') (ih _ hrest')
  bodies := by
    have hbodies := h.bodies
    have hbodies' := h'.bodies
    omega

theorem forall₂_modify {pool : Pool α} : ∀ {l : List (Pool α)} {i : Nat} {f : Pool α → Pool α},
    l[i]? = some pool → Pool.Spends pool (f pool) → List.Forall₂ Pool.Spends l (l.modify i f)
  | [], _, _, hi, _ => absurd hi (by simp)
  | p :: rest, 0, f, hi, hf => by
    obtain rfl : p = pool := by simpa using hi
    exact .cons hf (List.forall₂_same.mpr fun pool _ => .refl pool)
  | p :: rest, i + 1, f, hi, hf => .cons (.refl p) (forall₂_modify (i := i) (by simpa using hi) hf)

/-- The sum over the pools after the change of one of them. -/
theorem sum_modifyPool (f : Pool α → Nat) {i : Nat} {pool : Pool α} (hi : s.pools[i]? = some pool)
    (g : Pool α → Pool α) :
    ((s.modifyPool i g).pools.map f).sum + f pool = (s.pools.map f).sum + f (g pool) := by
  have hsum := Pool.sum_map_set f hi (g pool)
  rw [← modify_eq_set hi] at hsum
  exact hsum

/-- What one pool does is what the system does. -/
theorem spends_modifyPool {i : Nat} {pool : Pool α} (hi : s.pools[i]? = some pool)
    {f : Pool α → Pool α} (hf : Pool.Spends pool (f pool))
    (hbodies : Pool.Postpones pool (f pool)) :
    s.Spends (s.modifyPool i f) := by
  refine ⟨forall₂_modify hi hf, ?_⟩
  have hunbegun := sum_modifyPool Pool.unbegun hi f
  have hnext := sum_modifyPool (·.queue.next) hi f
  have hsame : (s.modifyPool i f).begun = s.begun := rfl
  unfold Pool.Postpones at hbodies
  unfold unbegun accepted nexts
  omega

theorem Spends.later (h : s.Spends s') {i : Nat} {pool : Pool α} (hi : s'.pools[i]? = some pool)
    {f : Pool α → Pool α} (hf : Pool.Spends pool (f pool))
    (hbodies : Pool.Postpones pool (f pool)) :
    s.Spends (s'.modifyPool i f) :=
  h.trans (spends_modifyPool hi hf hbodies)

theorem spends_join (s : System α) (x : Submission) :
    s.Spends (s.modifyPool x.pool (·.join x.ticket)) := by
  cases hi : s.pools[x.pool]? with
  | none =>
    rw [modifyPool_of_none hi]
    exact .refl s
  | some pool =>
    have hunbegun : (pool.join x.ticket).unbegun = pool.unbegun := by
      show (pool.queue.join x.ticket).waiting.length + _ = _
      rw [Queue.join, Queue.waiting_update]
      rfl
    have hnext : (pool.join x.ticket).queue.next = pool.queue.next := Queue.next_join _ _
    refine spends_modifyPool hi (.of_kept ?_ rfl hnext (Queue.kept_join _ _)) ?_
    · exact Queue.limit_update _ _ _
    · rw [Pool.Postpones, hunbegun, hnext]

theorem Waits.spends {n : Nat} (h : s.Waits n s') : s.Spends s' := by
  induction h with
  | refl => exact .refl s
  | mark _ x ih => exact ih.trans (spends_join _ x)
  | turn _ _ ih => exact ih.trans (.of_eq rfl rfl)

theorem spends_submit (s : System α) (i a : Nat) : s.Spends (s.submit i a).2 := by
  rcases s.submit_cases i a with ⟨-, he⟩ | ⟨pool, t, hi, -, -, hcase⟩
  · rw [he]
    exact .refl s
  cases hactive : pool.isActive with
  | false =>
    rw [submit_of_inactive hi hactive]
    exact .refl s
  | true =>
    obtain ⟨hspends, hbodies⟩ := Pool.spends_submit hactive s.refusal ⟨a⟩
    have hsubmits : s.Spends (s.modifyPool i fun _ => (pool.submit s.refusal ⟨a⟩).2) :=
      spends_modifyPool hi hspends hbodies
    rcases hcase with ⟨e, -, -, he⟩ | ⟨ticket, -, -, he⟩ <;> rw [he]
    · exact hsubmits
    · exact hsubmits.trans (.of_eq rfl rfl)

/-- A worker that begins a body has one less to begin. -/
theorem spends_enterBody {i w : Nat} {k : Ticket} {job : Job}
    (hw : s.phase? i w = some (.executing k job .entering)) :
    s.Spends (s.enterBody i w k job) := by
  unfold enterBody
  split
  · next pool t hi _ =>
    obtain ⟨pool', hi', hphase⟩ := phase?_eq_some.mp hw
    obtain rfl := Option.some.inj (hi'.symm.trans hi)
    dsimp only
    generalize hstage : (if t.body.gate.has (t.runs + 1) then Stage.atGate (t.runs + 1)
      else .past (t.runs + 1)) = stage
    have hunbegun : (pool'.setPhase w (.executing k job stage)).unbegun + 1 = pool'.unbegun := by
      have hcount := Pool.countP_setPhase hphase (.executing k job stage) Phase.isEntering
      have hleft : (Phase.executing k job stage).isEntering = false := by
        rw [← hstage]
        split <;> rfl
      rw [hleft] at hcount
      exact congrArg (pool'.queue.waiting.length + ·) hcount
    have hsum := sum_modifyPool Pool.unbegun hi (·.setPhase w (.executing k job stage))
    have hnext := sum_modifyPool (·.queue.next) hi (·.setPhase w (.executing k job stage))
    refine ⟨forall₂_modify hi (.of_queue rfl rfl), ?_⟩
    have hbegun (s' : System α) (pool task : String) (n run : Nat) :
        ({ s' with events := .started pool task n run :: s'.events } : System α).begun =
          s'.begun + 1 :=
      List.countP_cons_of_pos (by rfl)
    rw [hbegun]
    show s.begun + 1 + (s.modifyPool i _).unbegun + s.accepted =
      s.begun + s.unbegun + (s.modifyPool i _).accepted
    unfold unbegun accepted nexts
    have hsame : (pool'.setPhase w (.executing k job stage)).queue.next = pool'.queue.next := rfl
    omega
  · exact .refl s

/-- A body that ends submits first, if it does. -/
theorem spends_endBody {i w run : Nat} {k : Ticket} {job : Job}
    (hw : s.phase? i w = some (.executing k job (.past run))) :
    s.Spends (s.endBody i w k job run) := by
  -- the last step of a body
  have hover {s' : System α} (h : s.Spends s') {f : Pool α → Pool α}
      (hw : s'.phase? i w = some (.executing k job (.past run)))
      (hworkers : ∀ pool, (f pool).workers = pool.workers)
      (hqueue : ∀ pool, (f pool).queue = pool.queue)
      (hstanding : ∀ pool, (f pool).standing = pool.standing) :
      s.Spends (s'.modifyPool i fun pool => (f pool).setPhase w (.executing k job .over)) := by
    obtain ⟨pool, hi, hphase⟩ := phase?_eq_some.mp hw
    have hphase' : (f pool).workers[w]? = some (.executing k job (.past run)) := by
      rw [hworkers]
      exact hphase
    refine h.later hi (.of_queue (hqueue pool) ?_) ?_
    · exact congrArg (· == Standing.active) (hstanding pool)
    · show (f pool).queue.waiting.length + _ + _ = _ + (f pool).queue.next
      rw [Pool.entering_setPhase hphase' rfl rfl, Pool.entering, hworkers, hqueue]
      rfl
  unfold endBody
  split
  · next p t _ _ =>
    split
    · have hpanics := hover (.refl s) (f := (·.note (.panicked w k.number))) hw (fun _ => rfl)
        (fun _ => rfl) fun _ => rfl
      rw [reportPanic_eq]
      refine hpanics.trans ⟨List.forall₂_same.mpr fun pool _ => .refl pool, ?_⟩
      simp only [begun, List.countP_append, Pool.countP_panicEvents, Nat.zero_add]
      rfl
    · have hevaluate : s.Spends (s.evaluate p w t run).2 := by
        rcases s.evaluate_cases p w t run with he | ⟨j, a, he⟩ <;> rw [he]
        · exact .refl s
        · exact s.spends_submit j a
      refine hover hevaluate (f := (·.putResult k _)) (executing_evaluate hw p w t run)
        (fun pool => Pool.workers_putResult _ _ _) (fun pool => Pool.queue_putResult _ _ _) ?_
      intro pool
      unfold Pool.putResult
      split <;> rfl
  · exact .refl s

theorem Works.spends {i w : Nat} (hworks : s.Works i w s') (h : s.PoolsSound) : s.Spends s' := by
  -- a section that ends with a look for work
  have hlook {phase : Phase} (hphase : s.phase? i w = some phase)
      (hlooks : phase.looksNext = true) : s.Spends (s.modifyPool i (·.goOn w phase)) := by
    obtain ⟨pool, hi, hw⟩ := phase?_eq_some.mp hphase
    obtain ⟨hspends, hbodies⟩ := Pool.spends_goOn (h i pool hi) hw hlooks
    exact spends_modifyPool hi hspends hbodies
  cases hworks with
  | idle => exact .refl s
  | look hw hlooks => exact hlook hw hlooks
  | enter hw => exact spends_enterBody hw
  | leave hw => exact spends_endBody hw
  | finish hw => exact (hlook hw rfl).trans (.of_eq rfl rfl)

/-- **One move** of any thread. -/
theorem PoolsSound.spends_perform (h : s.PoolsSound) (m : Move) : s.Spends (s.perform m) := by
  cases m with
  | worker i w => exact (s.works_worker i w).spends h
  | joiner n => exact (s.waits_joiner n).spends
  | shutdown i =>
    cases hi : s.pools[i]? with
    | none =>
      show s.Spends (s.modifyPool i _)
      rw [modifyPool_of_none hi]
      exact .refl s
    | some pool =>
      refine spends_modifyPool hi ?_ ?_
      · split
        · next hwoken => exact Pool.spends_awaitWorkers hwoken
        · exact .refl pool
      · split
        · unfold Pool.awaitWorkers
          split <;> rfl
        · rfl

/-! ## 4. Any number of moves -/

/-- `s.Moves ms s'`: the moves `ms` of ready threads, one after the other, take `s` to `s'`. -/
inductive Moves : System α → List Move → System α → Prop where
  | rest {s : System α} : Moves s [] s
  | move {s s' : System α} {m : Move} {ms : List Move} (hm : s.ready m = true)
      (h : Moves (s.perform m) ms s') : Moves s (m :: ms) s'

variable {ms : List Move}

theorem Moves.brings (h : s.Moves ms s') : s.Brings s' := by
  induction h with
  | rest => exact .refl _
  | @move s s' m ms _ _ ih => exact (s.brings_perform m).trans ih

theorem Moves.spends (h : s.Moves ms s') (hs : s.Occurs) : s.Spends s' := by
  induction h with
  | rest => exact .refl _
  | @move s s' m ms _ _ ih =>
    exact (hs.poolsSound.spends_perform m).trans (ih (hs.brings (s.brings_perform m)))

/-- Each of the moves takes some effort. -/
theorem Moves.length_le (h : s.Moves ms s') (hs : s.Occurs) : ms.length ≤ s.budget := by
  suffices heffort : ms.length + s'.effort ≤ s.effort by
    obtain ⟨p, hp, -, rfl⟩ := hs
    have hbudget := hp.effort_le_budget
    omega
  induction h with
  | rest => exact Nat.le_of_eq (Nat.zero_add _)
  | @move s s' m ms hm _ ih =>
    have hrest := ih (hs.brings (s.brings_perform m))
    obtain ⟨p, hp, -, rfl⟩ := hs
    have hlt := hp.effort_perform hm
    rw [List.length_cons]
    omega

/-- Settling is some moves. -/
theorem moves_settleWithin {schedule : Schedule α} (hschedule : Schedule.Diligent schedule)
    (s : System α) (fuel : Nat) : ∃ ms, s.Moves ms (s.settleWithin schedule fuel) := by
  induction fuel generalizing s with
  | zero => exact ⟨[], .rest⟩
  | succ fuel ih =>
    unfold settleWithin
    split
    · exact ⟨[], .rest⟩
    · next m hm =>
      obtain ⟨ms, hms⟩ := ih (s.perform m)
      exact ⟨m :: ms, .move (hschedule.ready s m hm) hms⟩

/-! ## 5. The bounds -/

/-- No more is accepted than there are places left in the pools in use. -/
theorem Spends.accepted_le (h : s.Spends s') (hs' : s'.PoolsSound) :
    s'.accepted ≤ s.accepted + s.allowance := by
  have hsound : ∀ pool ∈ s'.pools, pool.Sound := by
    intro pool hmem
    obtain ⟨i, hi⟩ := List.getElem?_of_mem hmem
    exact hs' i pool hi
  have hpools := h.pools
  unfold accepted nexts allowance
  generalize s.pools = l, s'.pools = l' at hpools hsound
  induction hpools with
  | nil => exact Nat.le_refl _
  | @cons p p' rest rest' hp _ ih =>
    have hrest := ih fun pool hmem => hsound pool (List.mem_cons_of_mem _ hmem)
    have hroom := hp.next_le_room (hsound p' List.mem_cons_self)
    simp only [List.map_cons, List.sum_cons, List.filter_cons]
    split
    · next hactive =>
      rw [if_pos hactive] at hroom
      simp only [List.map_cons, List.sum_cons]
      omega
    · next hina =>
      rw [if_neg hina] at hroom
      omega

/-- The place of one pool. -/
theorem Spends.pool (h : s.Spends s') {i : Nat} {pool : Pool α} (hi : s.pools[i]? = some pool) :
    ∃ pool', s'.pools[i]? = some pool' ∧ Pool.Spends pool pool' := by
  have hpools := List.forall₂_iff_get.mp h.pools
  obtain ⟨hlt, rfl⟩ := List.getElem?_eq_some_iff.mp hi
  exact ⟨_, List.getElem?_eq_getElem (hpools.1 ▸ hlt), hpools.2 i hlt (hpools.1 ▸ hlt)⟩

/-- Every record that was claimed has its body begun. -/
def AllBegun (s : System α) : Prop :=
  ∀ pool ∈ s.pools, pool.entering = 0

/-- Then the bodies that have not begun are those of the records that wait. -/
theorem PoolsSound.unbegun_eq (h : s.PoolsSound) (hs : s.AllBegun) : s.unbegun = s.queued := by
  refine congrArg List.sum (List.map_congr_left fun pool hmem => ?_)
  obtain ⟨i, hi⟩ := List.getElem?_of_mem hmem
  rw [Pool.unbegun, hs pool hmem, (h i pool hi).length_queued]
  rfl

end System

end WorkerPool
