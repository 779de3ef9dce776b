/-
# Who is admitted to a pool

A pool has a limit, and every accepted submission takes one of its places.  The place is free again
when the record goes, and that happens in one of three ways: its task is released and gives it back,
or its task is detached after it has finished, or before (`isBack`).  So the places that are taken
are those of the submissions that were accepted and have not returned (`Reachable.length_accepted`),
and what has returned never comes back to take a second place (`Leads.returnedTo_subset`).

That is all that a submission is judged by.  It is refused as one too many exactly when the
submissions that have not returned are as many as the limit allows.  A refused submission
leaves nothing but a note: no thread is started for it and no number is used up, and the accepted
ones have the numbers 0, 1, 2, ... (`Reachable.numbers`).
-/
import WorkerPool.Proofs.Acceptances
import WorkerPool.Proofs.Shutdown

namespace WorkerPool

/-! ## 1. The limit of a pool -/

namespace Pool

variable {α : Type} {p p' : Pool α}

/-- What a pool was built with: its plan, and the limit of its queue. -/
def terms (p : Pool α) : Plan × Nat := (p.plan, p.queue.limit)

theorem terms_advance (h : p.queue.Sound) (w : Nat) : (p.advance w).terms = p.terms := by
  rcases advance_cases h w with
    ⟨k, rest, r, job, -, -, -, -, he⟩ | ⟨-, ⟨-, he⟩ | ⟨-, he⟩⟩ <;> rw [he]
  · exact congrArg (p.plan, ·) (Queue.limit_update _ _ _)
  · rfl
  · rfl

theorem terms_grow (p : Pool α) (refusal : Option String) :
    (p.grow refusal).2.terms = p.terms := by
  rcases p.grow_cases refusal with ⟨-, he⟩ | ⟨-, -, he⟩ | ⟨_, -, -, ⟨-, he⟩ | ⟨-, he⟩⟩ <;>
    rw [he] <;> rfl

theorem terms_submit (p : Pool α) (refusal : Option String) (job : Job) :
    (p.submit refusal job).2.terms = p.terms := by
  rcases submit_cases p refusal job with ⟨-, he⟩ | ⟨e, -, -, he⟩ | ⟨-, -, he⟩ <;> rw [he]
  · rfl
  · exact terms_grow p refusal
  · exact terms_grow p refusal

theorem terms_awaitWorkers (p : Pool α) : p.awaitWorkers.terms = p.terms := by
  unfold Pool.awaitWorkers
  split <;> rfl

/-- No section changes what a pool was built with. -/
theorem Section.terms_eq (hs : Section p p') (h : p.Sound) : p'.terms = p.terms := by
  cases hs with
  | submit hactive refusal job => exact terms_submit p refusal job
  | advance hw => exact terms_advance h.queue _
  | wake hw => exact terms_advance (p := { p with busy := p.busy + 1 }) h.queue _
  | returnBody hw v =>
    show (_, (p.putResult _ v).queue.limit) = _
    rw [queue_putResult]
    unfold putResult
    split <;> rfl
  | finish hw =>
    obtain ⟨r, -, -, he⟩ := h.finish_eq hw
    rw [he, terms_advance (h.ended hw _).queue]
    exact congrArg (p.plan, ·) (Queue.limit_finished _ _)
  | join k => exact congrArg (p.plan, ·) (Queue.limit_update _ _ _)
  | detach k => exact congrArg (p.plan, ·) (Queue.limit_detach _ _)
  | unlink k =>
    rcases p.unlink_cases k with he | he | ⟨f, he⟩ <;> rw [he]
    · exact congrArg (p.plan, ·) (Queue.limit_unlink _ _)
    · rfl
  | shutdown hactive =>
    unfold Pool.shutdown
    split
    · exact terms_awaitWorkers _
    · rfl
  | awaitWorkers hwoken => exact terms_awaitWorkers p
  | drop =>
    unfold Pool.drop
    split <;> rfl
  | _ => rfl

/-- A submission is judged by the room in the queue first, and then by the first worker, if it needs
one. -/
theorem submit_error_iff (p : Pool α) (refusal : Option String) (job : Job) (e : Failure) :
    (p.submit refusal job).1 = .error e ↔
      p.queue.isFull = true ∧ e = .tooManyTasks ∨
      p.queue.isFull = false ∧ p.threads = 0 ∧ p.wantsWorker = true ∧
        ∃ cause, refusal = some cause ∧ e = .spawn cause := by
  rcases submit_cases p refusal job with ⟨hfull, he⟩ | ⟨e', hfull, hgrow, he⟩ | ⟨hfull, hgrow, he⟩
  · rw [he]
    constructor
    · exact fun h => Or.inl ⟨hfull, (Except.error.inj h).symm⟩
    · rintro (⟨-, rfl⟩ | ⟨hroom, -⟩)
      · rfl
      · exact absurd (hfull.symm.trans hroom) (by simp)
  · rcases p.grow_cases refusal with
      ⟨-, hg⟩ | ⟨-, -, hg⟩ | ⟨cause, hwants, rfl, ⟨-, hg⟩ | ⟨hnone, hg⟩⟩ <;> rw [hg] at hgrow
    · exact absurd hgrow (by simp)
    · exact absurd hgrow (by simp)
    · exact absurd hgrow (by simp)
    · obtain rfl : .spawn cause = e' := Option.some.inj hgrow
      rw [he]
      constructor
      · exact fun h =>
          Or.inr ⟨hfull, hnone, hwants, cause, rfl, (Except.error.inj h).symm⟩
      · rintro (⟨hfull', -⟩ | ⟨-, -, -, cause', hcause, rfl⟩)
        · exact absurd (hfull.symm.trans hfull') (by simp)
        · rw [Option.some.inj hcause]
  · rw [he]
    refine iff_of_false (by simp) ?_
    rintro (⟨hfull', -⟩ | ⟨-, hnone, hwants, cause, rfl, -⟩)
    · exact absurd (hfull.symm.trans hfull') (by simp)
    · simp [Pool.grow, hwants, hnone] at hgrow

/-- A refused submission leaves a note. -/
theorem submit_of_error {refusal : Option String} {job : Job} {e : Failure}
    (he : (p.submit refusal job).1 = .error e) :
    ∃ n, (p.submit refusal job).2 = p.note n ∧
      (e = .tooManyTasks → n = .queueFull p.queue.limit) := by
  rcases submit_cases p refusal job with ⟨-, hs⟩ | ⟨e', -, hgrow, hs⟩ | ⟨-, -, hs⟩
  · exact ⟨_, by rw [hs], fun _ => rfl⟩
  · rcases p.grow_cases refusal with
      ⟨-, hg⟩ | ⟨-, -, hg⟩ | ⟨cause, -, -, ⟨-, hg⟩ | ⟨-, hg⟩⟩ <;> rw [hg] at hgrow
    · exact absurd hgrow (by simp)
    · exact absurd hgrow (by simp)
    · exact absurd hgrow (by simp)
    · refine ⟨.firstWorkerRefused cause, by rw [hs, hg], fun hfull => ?_⟩
      rw [hs] at he
      obtain rfl : e' = e := Except.error.inj he
      exact absurd (hfull ▸ hgrow) (by simp)
  · exact absurd he (by simp [hs])

end Pool

/-! ## 2. The submissions that a pool accepted -/

namespace System

variable {α : Type}

/-- The submissions that a pool accepted. -/
def submissionsTo (s : System α) (i : Nat) : List Submission :=
  (s.tasks.flatMap (·.submissions)).filter fun x => x.pool = i

theorem mem_submissionsTo {s : System α} {i : Nat} {x : Submission} :
    x ∈ s.submissionsTo i ↔
      x.pool = i ∧ ∃ (a : Nat) (t : Task α), s.tasks[a]? = some t ∧ x ∈ t.submissions := by
  simp only [submissionsTo, List.mem_filter, List.mem_flatMap, decide_eq_true_eq]
  constructor
  · rintro ⟨⟨t, ht, hx⟩, hpool⟩
    obtain ⟨a, ha⟩ := List.getElem?_of_mem ht
    exact ⟨hpool, a, t, ha, hx⟩
  · rintro ⟨hpool, a, t, ha, hx⟩
    exact ⟨⟨t, List.mem_of_getElem? ha, hx⟩, hpool⟩

end System

namespace Program

variable {α : Type} {p q : Program α} {i : Nat} {pool : Pool α} {x : Submission}

theorem mem_submissionsTo_iff :
    x ∈ p.system.submissionsTo i ↔ x.pool = i ∧ ∃ a, x ∈ p.ledger.submissions a := by
  rw [System.mem_submissionsTo]
  refine and_congr_right fun _ => exists_congr fun a => ?_
  constructor
  · rintro ⟨t, ht, hx⟩
    exact submissions_ledger ht ▸ hx
  · intro hx
    cases ht : p.system.tasks[a]? with
    | none => simp [Ledger.submissions, ledger, ht] at hx
    | some t => exact ⟨t, rfl, submissions_ledger ht ▸ hx⟩

theorem Reachable.nodup_submissionsTo (h : p.Reachable) (i : Nat) :
    (p.system.submissionsTo i).Nodup := by
  refine (List.nodup_flatMap.mpr ⟨fun t ht => ?_, List.pairwise_iff_getElem.mpr ?_⟩).filter _
  · obtain ⟨a, ha⟩ := List.getElem?_of_mem ht
    exact submissions_ledger ha ▸ h.owned.submissions_nodup a
  · intro a b ha hb hlt x hx hx'
    have howner {c : Nat} (hc : c < p.system.tasks.length)
        (hx : x ∈ p.system.tasks[c].submissions) : x ∈ p.ledger.submissions c :=
      submissions_ledger (List.getElem?_eq_getElem hc) ▸ hx
    exact absurd (h.owned.owner_unique (howner ha hx) (howner hb hx')) (Nat.ne_of_lt hlt)

/-- **The submissions of a pool have the numbers that it gave**, each of them one. -/
theorem Reachable.numbers (h : p.Reachable) (hi : p.system.pools[i]? = some pool) :
    ((p.system.submissionsTo i).map (·.ticket.number)).Perm (List.range pool.queue.next) := by
  refine (List.perm_ext_iff_of_nodup ?_ List.nodup_range).mpr fun n => ?_
  · refine (h.nodup_submissionsTo i).map_on fun x hx y hy hnumber => ?_
    obtain ⟨hxi, a, hx⟩ := mem_submissionsTo_iff.mp hx
    obtain ⟨hyi, b, hy⟩ := mem_submissionsTo_iff.mp hy
    exact (h.owned.unique a b x hx y hy (Prod.ext (hxi.trans hyi.symm) hnumber)).2
  · rw [List.mem_map, List.mem_range, h.lt_next_iff hi]
    constructor
    · rintro ⟨x, hx, rfl⟩
      obtain ⟨rfl, a, t, ht, hx⟩ := System.mem_submissionsTo.mp hx
      exact ⟨t, List.mem_of_getElem? ht, x, hx, rfl⟩
    · rintro ⟨t, ht, x, hx, hplace⟩
      obtain ⟨a, ha⟩ := List.getElem?_of_mem ht
      obtain ⟨hpool, hnumber⟩ := Prod.mk.inj hplace
      exact ⟨x, System.mem_submissionsTo.mpr ⟨hpool, a, t, ha, hx⟩, hnumber⟩

/-! ## 3. The places that are free again -/

/-- Whether an accepted submission has returned, whatever task it is of. -/
def hasReturned (p : Program α) (x : Submission) : Bool :=
  p.system.tasks.any fun t => t.submissions.contains x && p.isBack t x

/-- The submissions to a pool that have returned. -/
def returnedTo (p : Program α) (i : Nat) : List Submission :=
  (p.system.submissionsTo i).filter p.hasReturned

/-- A submission has a record for as long as it has not returned. -/
theorem Reachable.hasReturned_iff (h : p.Reachable) (hx : x ∈ p.system.submissionsTo i) :
    p.hasReturned x = true ↔ x ∉ p.owners i := by
  obtain ⟨rfl, a, t, ht, hx⟩ := System.mem_submissionsTo.mp hx
  have hmem := List.mem_of_getElem? ht
  rw [h.mem_owners_iff hmem hx, Bool.not_eq_false, hasReturned, List.any_eq_true]
  constructor
  · rintro ⟨t', ht', hboth⟩
    obtain ⟨hx', hback⟩ := (Bool.and_eq_true _ _).mp hboth
    -- the submission is on the list of one task only
    obtain ⟨b, hb⟩ := List.getElem?_of_mem ht'
    obtain rfl : a = b := h.owned.owner_unique (submissions_ledger ht ▸ hx)
      (submissions_ledger hb ▸ List.contains_iff_mem.mp hx')
    exact Option.some.inj (ht.symm.trans hb) ▸ hback
  · exact fun hback => ⟨t, hmem, (Bool.and_eq_true _ _).mpr ⟨List.contains_iff_mem.mpr hx, hback⟩⟩

theorem Reachable.hasReturned_iff_gone (h : p.Reachable) (hi : p.system.pools[i]? = some pool)
    (hx : x ∈ p.system.submissionsTo i) :
    p.hasReturned x = true ↔ p.system.record? x = none := by
  have hpool := (System.mem_submissionsTo.mp hx).1
  obtain ⟨j, k⟩ := x
  obtain rfl : j = i := hpool
  rw [h.hasReturned_iff hx, (h.accounted hi).linked_iff, ← ledger_record hi k,
    Option.not_isSome_iff_eq_none]
  rfl

/-- **The account of a pool**: what it accepted is what it still has and what has returned. -/
theorem Reachable.length_accepted (h : p.Reachable) (hi : p.system.pools[i]? = some pool) :
    (p.system.submissionsTo i).length = pool.queue.size + (p.returnedTo i).length := by
  have howners : ((p.system.submissionsTo i).filter fun x => !p.hasReturned x).Perm
      (p.owners i) := by
    refine (List.perm_ext_iff_of_nodup ((h.nodup_submissionsTo i).filter _)
      (h.owners_nodup i)).mpr fun x => ?_
    rw [List.mem_filter]
    constructor
    · rintro ⟨hx, hnot⟩
      by_contra hout
      exact absurd ((h.hasReturned_iff hx).mpr hout) (by simpa using hnot)
    · intro hown
      obtain ⟨j, k⟩ := x
      obtain rfl : j = i := pool_of_mem_owners hown
      have hsome := ((h.accounted hi).linked_iff k).mp hown
      obtain ⟨r, hr⟩ := Option.isSome_iff_exists.mp hsome
      obtain ⟨a, -, -, hmem, -⟩ := h.owned.linked ⟨j, k⟩ r ((ledger_record hi k).trans hr)
      have hx : ⟨j, k⟩ ∈ p.system.submissionsTo j := mem_submissionsTo_iff.mpr ⟨rfl, a, hmem⟩
      have hnot : ¬ p.hasReturned ⟨j, k⟩ = true := fun hback =>
        (h.hasReturned_iff hx).mp hback hown
      exact ⟨hx, by simpa using hnot⟩
  have hsize : pool.queue.size = (p.owners i).length := by
    have hcount : pool.queue.size = _ := (h.accounted hi).count
    rw [hcount, owners, List.length_append, List.length_append, Nat.add_assoc]
  rw [hsize, ← howners.length_eq, returnedTo, ← List.countP_eq_length_filter,
    ← List.countP_eq_length_filter, Nat.add_comm]
  exact (List.length_eq_countP_add_countP p.hasReturned).trans (by simp)

end Program

namespace Ledger

open Function (update)

variable {α : Type} {g g' : Ledger α}

/-- A record that is gone does not come back: new records are those of new submissions. -/
theorem Owned.gone_tick (h : g.Owned) (ht : Tick g g') {a : Nat} {x : Submission}
    (hx : x ∈ g.submissions a) (hr : g.record x = none) : g'.record x = none := by
  have hother {y : Submission} {r : Option (Record Job)} (hne : x ≠ y) :
      update g.record y r x = none := (Function.update_of_ne hne _ _).trans hr
  have hpresent {y : Submission} {r : Record Job} (hy : g.record y = some r) : x ≠ y := by
    rintro rfl
    exact absurd (hr.symm.trans hy) (by simp)
  cases ht with
  | @accept y b held hnext hrecord hh hlive =>
    refine hother ?_
    rintro rfl
    exact h.place_ne_next hnext hx rfl
  | mark y =>
    by_cases hne : x = y
    · subst hne
      exact (Function.update_self ..).trans (by rw [hr]; rfl)
    · exact hother hne
  | claim hy hs hj hw => exact hother (hpresent hy)
  | finish hexec hy => exact hother (hpresent hy)
  | takeOut hl hfate hy hs => exact hother (hpresent hy)
  | @leave l hl hfate =>
    by_cases hne : x = l.submission
    · subst hne
      exact (Function.update_self ..).trans (by rw [hr]; rfl)
    · exact hother hne
  | _ => exact hr

end Ledger

namespace Program

variable {α : Type} {p q : Program α} {i : Nat} {pool : Pool α} {x : Submission}

/-- **What has returned stays so**: nobody takes a place twice, or gives it back twice. -/
theorem Leads.returnedTo_subset (hq : Leads p q) (h : p.Reachable)
    (hi : p.system.pools[i]? = some pool) : p.returnedTo i ⊆ q.returnedTo i := by
  intro x hx
  obtain ⟨hx, hback⟩ := List.mem_filter.mp hx
  have hgone := (h.hasReturned_iff_gone hi hx).mp hback
  obtain ⟨hpool, a, hmem⟩ := mem_submissionsTo_iff.mp hx
  have hkept : q.ledger.Owned ∧ x ∈ q.ledger.submissions a ∧ q.ledger.record x = none := by
    have hticks := hq.ticks h
    generalize q.ledger = g at hticks
    induction hticks with
    | refl => exact ⟨h.owned, hmem, hgone⟩
    | tail _ ht ih =>
      exact ⟨ih.1.tick ht, Ledger.mem_submissions_tick ht ih.2.1, ih.1.gone_tick ht ih.2.1 ih.2.2⟩
  obtain ⟨pool', hi', -⟩ := hq.sections hi
  have hx' := mem_submissionsTo_iff.mpr ⟨hpool, a, hkept.2.1⟩
  exact List.mem_filter.mpr ⟨hx', ((h.leads hq).hasReturned_iff_gone hi' hx').mpr hkept.2.2⟩

theorem Reachable.terms (h : p.Reachable) (hi : p.system.pools[i]? = some pool) :
    pool.queue.limit = pool.plan.limit := by
  refine h.pool_induct (P := fun pool => pool.queue.limit = pool.plan.limit) hi
    (fun _ _ => rfl) fun p p' hsound hlimit hs => ?_
  have hterms := hs.terms_eq hsound
  obtain ⟨hplan, hlimit'⟩ := Prod.mk.inj hterms
  rw [hlimit', hplan, hlimit]

/-- A pool is full when the submissions that have not returned are as many as its limit. -/
theorem Reachable.isFull_iff (h : p.Reachable) (hi : p.system.pools[i]? = some pool) :
    pool.queue.isFull = true ↔
      (p.system.submissionsTo i).length = (p.returnedTo i).length + pool.plan.limit := by
  have hle := (h.poolsSound i pool hi).queue.size_le
  rw [Queue.isFull, decide_eq_true_eq, h.length_accepted hi, ← h.terms hi]
  omega

/-! ## 4. One submission -/

/-- A submission of a task in use to a pool in use is passed on to the pool. -/
theorem submit_eq {a : Nat} {t : Task α} (hi : p.system.pools[i]? = some pool)
    (ht : p.system.tasks[a]? = some t) (hlive : t.isLive = true) (hactive : pool.isActive = true) :
    (∃ e, (pool.submit p.system.refusal ⟨a⟩).1 = .error e ∧ (p.system.submit i a).1 = .failed e ∧
        (p.system.submit i a).2 =
          p.system.modifyPool i fun _ => (pool.submit p.system.refusal ⟨a⟩).2) ∨
      ∃ k, (pool.submit p.system.refusal ⟨a⟩).1 = .ok k ∧ (p.system.submit i a).1 = .accepted ∧
        (p.system.submit i a).2.tasks = (p.system.modifyTask a fun t =>
          { t with submissions := ⟨i, k⟩ :: t.submissions }).tasks := by
  cases hreply : (pool.submit p.system.refusal ⟨a⟩).1 with
  | error e =>
    have hsubmit : p.system.submit i a = (.failed e,
        p.system.modifyPool i fun _ => (pool.submit p.system.refusal ⟨a⟩).2) := by
      simp [System.submit, hi, ht, hactive, hlive, hreply]
    exact Or.inl ⟨e, rfl, congrArg Prod.fst hsubmit, congrArg Prod.snd hsubmit⟩
  | ok k =>
    have hsubmit : p.system.submit i a = (.accepted,
        (p.system.modifyPool i fun _ => (pool.submit p.system.refusal ⟨a⟩).2).modifyTask a
          fun t => { t with submissions := ⟨i, k⟩ :: t.submissions }) := by
      simp [System.submit, hi, ht, hactive, hlive, hreply]
    exact Or.inr ⟨k, rfl, congrArg Prod.fst hsubmit, by rw [hsubmit]; rfl⟩

/-- An accepted submission is the only one that is new. -/
theorem Reachable.submissionsTo_submit (h : p.Reachable) {a : Nat} {k : Ticket}
    (hi : p.system.pools[i]? = some pool) (hk : k.number = pool.queue.next)
    (ht : ∃ t, p.system.tasks[a]? = some t)
    (htasks : (p.system.submit i a).2.tasks = (p.system.modifyTask a fun t =>
      { t with submissions := ⟨i, k⟩ :: t.submissions }).tasks) :
    ((p.system.submit i a).2.submissionsTo i).Perm (⟨i, k⟩ :: p.system.submissionsTo i) := by
  have hreach : (p.act (.submit i a)).Reachable := h.leads (Leads.refl.step (.submit i a) trivial)
  have hnew : (⟨i, k⟩ : Submission) ∉ p.system.submissionsTo i := by
    intro hx
    have hmem : k.number ∈ (p.system.submissionsTo i).map (·.ticket.number) :=
      List.mem_map_of_mem hx
    rw [(h.numbers hi).mem_iff, List.mem_range, hk] at hmem
    exact Nat.lt_irrefl _ hmem
  refine (List.perm_ext_iff_of_nodup (hreach.nodup_submissionsTo i)
    (List.nodup_cons.mpr ⟨hnew, h.nodup_submissionsTo i⟩)).mpr fun x => ?_
  show x ∈ (p.system.submit i a).2.submissionsTo i ↔ _
  rw [List.mem_cons, System.mem_submissionsTo, System.mem_submissionsTo, htasks]
  constructor
  · rintro ⟨hpool, b, t, hb, hx⟩
    rw [System.tasks_modifyTask] at hb
    split at hb
    · obtain ⟨old, hold, rfl⟩ := Option.map_eq_some_iff.mp hb
      exact (List.mem_cons.mp hx).imp id fun hx => ⟨hpool, b, old, hold, hx⟩
    · exact Or.inr ⟨hpool, b, t, hb, hx⟩
  · rintro (rfl | ⟨hpool, b, t, hb, hx⟩)
    · obtain ⟨t, ht⟩ := ht
      refine ⟨rfl, a, { t with submissions := ⟨i, k⟩ :: t.submissions }, ?_, List.mem_cons_self ..⟩
      rw [System.tasks_modifyTask, if_pos rfl, ht]
      rfl
    · refine ⟨hpool, b, ?_⟩
      rw [System.tasks_modifyTask]
      split
      · next hba => exact ⟨_, by rw [hb]; rfl, List.mem_cons_of_mem _ hx⟩
      · exact ⟨t, hb, hx⟩

/-- What a submission of task `a` to pool `i` comes to. -/
structure Admits (p : Program α) (i a : Nat) (pool : Pool α) : Prop where
  /-- It is one too many exactly when no place is free. -/
  refused_iff : (p.system.submit i a).1 = .failed .tooManyTasks ↔
    (p.system.submissionsTo i).length = (p.returnedTo i).length + pool.plan.limit
  /-- Otherwise it is accepted, if there is a worker or the first one can be started. -/
  answers : (p.system.submit i a).1 = .accepted ∨
    (p.system.submit i a).1 = .failed .tooManyTasks ∨
    ∃ cause, (p.system.submit i a).1 = .failed (.spawn cause) ∧
      p.system.refusal = some cause ∧ pool.threads = 0
  /-- Refused, it leaves a note and nothing else: no thread, no record, no number. -/
  refused : ∀ e, (p.system.submit i a).1 = .failed e → ∃ n,
    (p.system.submit i a).2 = p.system.modifyPool i (·.note n) ∧
    (e = .tooManyTasks → n = .queueFull pool.plan.limit)
  /-- Accepted, it has the next number. -/
  accepted : (p.system.submit i a).1 = .accepted → ∃ x : Submission,
    x.ticket.number = (p.system.submissionsTo i).length ∧
    ((p.system.submit i a).2.submissionsTo i).Perm (x :: p.system.submissionsTo i)

theorem Reachable.admits (h : p.Reachable) (hi : p.system.pools[i]? = some pool) {a : Nat}
    {t : Task α} (ht : p.system.tasks[a]? = some t) (hlive : t.isLive = true)
    (hactive : pool.isActive = true) : p.Admits i a pool := by
  rcases submit_eq hi ht hlive hactive with ⟨e, herror, hfailed, hs⟩ | ⟨k, hok, haccepted, htasks⟩
  · have hcause := (Pool.submit_error_iff pool p.system.refusal ⟨a⟩ e).mp herror
    refine ⟨?_, ?_, fun e' he' => ?_, fun ha => absurd (ha.symm.trans hfailed) (by simp)⟩
    · rw [← h.isFull_iff hi, hfailed]
      rcases hcause with ⟨hfull, rfl⟩ | ⟨hroom, -, -, cause, -, rfl⟩
      · exact iff_of_true rfl hfull
      · exact iff_of_false (by simp) (by simp [hroom])
    · rcases hcause with ⟨-, rfl⟩ | ⟨-, hnone, -, cause, hrefusal, rfl⟩
      · exact Or.inr (Or.inl hfailed)
      · exact Or.inr (Or.inr ⟨cause, hfailed, hrefusal, hnone⟩)
    · obtain rfl : e = e' := SubmitReply.failed.inj (hfailed.symm.trans he')
      obtain ⟨n, hn, hfull⟩ := Pool.submit_of_error herror
      refine ⟨n, hs.trans (System.modifyPool_congr hi hn), fun he => ?_⟩
      rw [hfull he, h.terms hi]
  · have hk := (Pool.submit_cases pool p.system.refusal ⟨a⟩).resolve_left
      (fun hc => absurd hok (by simp [hc.2])) |>.resolve_left
      (fun ⟨e, _, _, hc⟩ => absurd hok (by simp [hc]))
    obtain ⟨hroom, -, hs⟩ := hk
    obtain rfl : pool.queue.freshTicket = k := Except.ok.inj ((congrArg Prod.fst hs).symm.trans hok)
    refine ⟨?_, Or.inl haccepted, fun e he => absurd (he.symm.trans haccepted) (by simp),
      fun _ => ⟨⟨i, pool.queue.freshTicket⟩, ?_, ?_⟩⟩
    · rw [← h.isFull_iff hi, haccepted]
      exact iff_of_false (by simp) (by simp [hroom])
    · have hlength := (h.numbers hi).length_eq
      rw [List.length_map, List.length_range] at hlength
      exact hlength.symm
    · exact h.submissionsTo_submit hi rfl ⟨t, ht⟩ htasks

/-- A body that submits does what a caller would do at that moment. -/
theorem evaluate_submit {a w run : Nat} {by' : Pool α} {t : Task α} {on : RunSet}
    {pool task : String} (hkind : t.body.kind = .submit on pool task) (hon : on.has run = true)
    (hpool : p.system.findPool? pool = some i) (htask : p.system.findTask? task = some a) :
    p.system.evaluate by' w t run =
      (.submitted (p.system.submit i a).1, (p.system.submit i a).2) := by
  simp [System.evaluate, hkind, hon, System.submitById, hpool, htask]

/-- **Admission to a pool is exact.**  A pool never has more records than its limit, and no push
fails.  What it accepted is what it has and what has returned, with the numbers 0, 1, 2, ....  A
submission, by a caller or by a body, is one too many exactly when the accepted ones that have not
returned are as many as the limit; then no thread is started for it, and no refused one
takes a number (`Admits`).  What has returned stays so, and once everything has, the pool accepts
as many submissions again as its limit allows, whatever else happens in between. -/
theorem admission_is_exact (h : p.Reachable) (hi : p.system.pools[i]? = some pool) :
    pool.queue.size ≤ pool.plan.limit ∧ pool.faults = [] ∧
    (p.system.submissionsTo i).length = pool.queue.size + (p.returnedTo i).length ∧
    ((p.system.submissionsTo i).map (·.ticket.number)).Perm
      (List.range (p.system.submissionsTo i).length) ∧
    (∀ a t, p.system.tasks[a]? = some t → t.isLive = true → pool.isActive = true →
      p.Admits i a pool ∧
      ∀ (by' : Pool α) w (t' : Task α) run on poolId taskId,
        t'.body.kind = .submit on poolId taskId → on.has run = true →
        p.system.findPool? poolId = some i → p.system.findTask? taskId = some a →
        p.system.evaluate by' w t' run =
          (.submitted (p.system.submit i a).1, (p.system.submit i a).2)) ∧
    (∀ q, Leads p q → p.returnedTo i ⊆ q.returnedTo i) ∧
    ((∀ x ∈ p.system.submissionsTo i, p.hasReturned x = true) → ∀ q, Leads p q →
      (q.system.submissionsTo i).length < (p.system.submissionsTo i).length + pool.plan.limit →
      ∀ pool' a t, q.system.pools[i]? = some pool' → pool'.isActive = true →
        q.system.tasks[a]? = some t → t.isLive = true →
        q.system.refusal = none ∨ 0 < pool'.threads → (q.system.submit i a).1 = .accepted) := by
  have hp := h.poolsSound i pool hi
  have hlength : (p.system.submissionsTo i).length = pool.queue.next := by
    simpa using (h.numbers hi).length_eq
  refine ⟨h.terms hi ▸ hp.queue.size_le, ?_, h.length_accepted hi, hlength ▸ h.numbers hi,
    fun a t ht hlive hactive => ⟨h.admits hi ht hlive hactive,
      fun by' w t' run on poolId taskId => evaluate_submit⟩,
    fun q hq => hq.returnedTo_subset h hi, ?_⟩
  · rw [← ledger_faults hi]
    exact h.chronicled.sane i
  · intro hall q hq hfew pool' a t hi' hactive ht hlive hworker
    have hadmits := (h.leads hq).admits hi' ht hlive hactive
    rcases hadmits.answers with haccepted | hfull | ⟨cause, -, hrefusal, hnone⟩
    · exact haccepted
    · -- all that had been accepted has returned, so all places are taken by later ones
      have hcount := hadmits.refused_iff.mp hfull
      have hback : (p.returnedTo i).length = (p.system.submissionsTo i).length := by
        rw [returnedTo, List.filter_eq_self.mpr hall]
      have hle : (p.returnedTo i).length ≤ (q.returnedTo i).length :=
        (List.subperm_of_subset ((h.nodup_submissionsTo i).filter _)
          (hq.returnedTo_subset h hi)).length_le
      have hplan : pool'.plan = pool.plan := by
        obtain ⟨pool'', hi'', hs⟩ := hq.sections hi
        obtain rfl := Option.some.inj (hi'.symm.trans hi'')
        exact (Prod.mk.inj (hs.induct (P := fun p' => p'.terms = pool.terms) hp rfl
          fun _ _ hsound hterms hs => (hs.terms_eq hsound).trans hterms)).1
      rw [hplan] at hcount
      omega
    · rcases hworker with hnever | hpos
      · exact absurd (hrefusal.symm.trans hnever) (by simp)
      · omega

/-- Four submissions fill a pool whose limit is four, and the next one is refused as one too many
for no other reason. -/
theorem counting_refuses_fifth :
    let p := counting.run [.submit 0 0, .submit 0 0, .submit 0 0, .submit 0 0]
    (p.system.submit 0 0).1 = .failed .tooManyTasks ∧
    ∃ pool, p.system.pools[0]? = some pool ∧ p.Admits 0 0 pool ∧
      (p.system.submissionsTo 0).length = pool.queue.size + (p.returnedTo 0).length := by
  intro p
  obtain ⟨pool, hi, hactive⟩ := Option.map_eq_some_iff.mp
    (show p.system.pools[0]?.map (·.isActive) = some true by decide)
  obtain ⟨t, ht, hlive⟩ := Option.map_eq_some_iff.mp
    (show p.system.tasks[0]?.map (·.isLive) = some true by decide)
  obtain ⟨-, -, haccount, -, hsubmit, -, -⟩ :=
    admission_is_exact (counting_reachable (by decide)) hi
  exact ⟨by decide, pool, hi, (hsubmit 0 t ht hlive hactive).1, haccount⟩

end Program
end WorkerPool
