/-
# When a task can be released

A release looks at two flags of each record of the task.  What it comes to is said here by the
actions of the run: it succeeds exactly when each submission has a join that was called while that
submission was the most recent one of the task, and that has returned what the body left
(`Program.release_is_exact`).  A join whose time ran out does not count.  So a submission that is
superseded before any join of it was called is in the way of every release to come
(`Leads.superseded`).

A release that succeeds takes the records of the task out of their pools and does nothing else to
any record, pool or task (`System.Frees`).  Its look at the records and its way through the pools
are sections of their own.  In between nobody can undo what it saw: what is spent stays so for as
long as the task is not joined again (`Reachable.isSpent_stable`), and a record on its way back
stays finished until it is taken out.
-/
import Mathlib.Data.List.Induction
import WorkerPool.Proofs.Marks
import WorkerPool.Proofs.Occurs
import WorkerPool.Proofs.Shutdown

namespace WorkerPool

/-! ## 1. The joins of a run -/

namespace Program

variable {α : Type} {p q : Program α} {as : List (Action α)} {a n : Nat} {x : Submission}

/-- Among the actions `as`, taken from `p`, join number `n` was called: a join of task `a`, while
`x` was its most recent submission. -/
def Began (p : Program α) (as : List (Action α)) (a : Nat) (x : Submission) (n : Nat) : Prop :=
  ∃ before limit after, as = before ++ .join a limit :: after ∧ limit ≠ some (.ms 0) ∧
    ((p.run before).system.submissions a).head? = some x ∧
    (p.run before).system.joiners.length = n

/-- Only a call of a join makes a join. -/
theorem joiners_act (p : Program α) (act : Action α) :
    (p.act act).system.joiners.length = p.system.joiners.length ∨
      ∃ a limit x, act = .join a limit ∧ limit ≠ some (.ms 0) ∧
        (p.system.submissions a).head? = some x ∧
        (p.act act).system.joiners =
          p.system.joiners ++ [⟨a, x, limit.bind (·.deadline? p.system.clock), .called⟩] := by
  cases act with
  | submit i b => exact Or.inl (congrArg List.length (p.system.submit_untimed i b).1)
  | join a limit =>
    cases hx : (p.system.submissions a).head? with
    | none =>
      left
      simp [act, onSystem, System.call, hx]
    | some x =>
      by_cases hlimit : limit = some (.ms 0)
      · left
        simp [act, onSystem, System.call, hx, hlimit]
      · right
        refine ⟨a, limit, x, rfl, hlimit, hx, ?_⟩
        simp [act, onSystem, System.call, hx, hlimit]
  | release b =>
    obtain ⟨_, _, he⟩ := p.release_frame b
    exact Or.inl (by rw [he])
  | detach b =>
    obtain ⟨_, _, he⟩ := p.detach_frame b
    exact Or.inl (by rw [he])
  | giveBack l =>
    obtain ⟨_, he⟩ := p.giveBack_frame l
    exact Or.inl (by rw [he])
  | shutdown i => exact Or.inl (congrArg List.length (p.system.shutdown_untimed i).1)
  | elapse ms =>
    left
    exact List.length_map _
  | move m => exact Or.inl (p.system.perform_untimed m).1
  | _ => exact Or.inl rfl

/-- **The joins of a run are those that were called in it**, and each is of the submission that was
the most recent one then. -/
theorem began_iff (hp : p.Reachable) (hnone : p.system.joiners = []) (h : p.Allows as) :
    p.Began as a x n ↔
      ∃ j, (p.run as).system.joiners[n]? = some j ∧ j.task = a ∧ j.submission = x := by
  constructor
  · rintro ⟨before, limit, after, rfl, hlimit, hx, rfl⟩
    obtain ⟨hbefore, -, hafter⟩ := (allows_append p before _).mp h
    have hq : (p.run before).Reachable := hp.leads (leads_run before p hbefore)
    have hcalled : ((p.run before).act (.join a limit)).system.joiners[
        (p.run before).system.joiners.length]? =
          some ⟨a, x, limit.bind (·.deadline? (p.run before).system.clock), .called⟩ := by
      simp [act, onSystem, System.call, hx, hlimit]
    obtain ⟨j, hj, htask, hjx, -⟩ := (leads_run after _ hafter).joiner
      (hq.leads (.step (.join a limit) .refl trivial)) hcalled
    rw [run_append]
    exact ⟨j, hj, htask, hjx⟩
  · rintro ⟨j, hj, htask, hjx⟩
    induction as using List.reverseRecOn generalizing j with
    | nil => simp [run, hnone] at hj
    | append_singleton before act ih =>
      obtain ⟨hbefore, hpermits, -⟩ := (allows_append p before _).mp h
      have hleads := leads_run before p hbefore
      rw [run_append] at hj
      rcases (p.run before).joiners_act act with
        hlength | ⟨b, limit, y, rfl, hlimit, hy, hjoiners⟩
      · -- the join was there before
        have hlt : n < (p.run before).system.joiners.length :=
          hlength ▸ (List.getElem?_eq_some_iff.mp hj).1
        obtain ⟨old, hold⟩ : ∃ old, (p.run before).system.joiners[n]? = some old :=
          ⟨_, List.getElem?_eq_getElem hlt⟩
        obtain ⟨j', hj', htask', hjx', -⟩ :=
          (Leads.refl.step act hpermits).joiner (hp.leads hleads) hold
        obtain rfl := Option.some.inj (hj'.symm.trans hj)
        obtain ⟨before', limit, after, rfl, hrest⟩ :=
          ih hbefore old hold (htask'.symm.trans htask) (hjx'.symm.trans hjx)
        exact ⟨before', limit, after ++ [act], by simp, hrest⟩
      · replace hj : ((p.run before).act (.join b limit)).system.joiners[n]? = some j := hj
        rw [hjoiners, getElem?_concat, Function.update_apply] at hj
        split at hj
        · next hn =>
          obtain rfl := Option.some.inj hj
          obtain rfl : b = a := htask
          obtain rfl : y = x := hjx
          exact ⟨before, limit, [], rfl, hlimit, hy, hn.symm⟩
        · obtain ⟨before', limit', after, rfl, hrest⟩ := ih hbefore j hj htask hjx
          exact ⟨before', limit', after ++ [.join b limit], by simp, hrest⟩

/-- Join number `n` was answered with what the body of its submission left: a value, or that it
panicked. -/
def Returns (p : Program α) (n : Nat) : Prop :=
  p.system.answer? n = some (.error .taskPanicked) ∨ ∃ v, p.system.answer? n = some (.ok v)

/-- There are no other answers than these and the one that time ran out. -/
theorem Reachable.returns_iff (h : p.Reachable) {j : Joiner α}
    (hj : p.system.joiners[n]? = some j) : p.Returns n ↔ j.Returned := by
  have hanswer : p.system.answer? n = j.answer? := by simp [System.answer?, hj]
  rw [Returns, hanswer]
  constructor
  · rintro (ha | ⟨v, ha⟩)
    · exact ⟨_, ha, by simp⟩
    · exact ⟨_, ha, by simp⟩
  · rintro ⟨answer, ha, hne⟩
    rcases (h.joined n j hj).answered answer ha with ⟨w, run, e, -, rfl⟩ | ⟨he, -⟩
    · cases e with
      | panicked => exact Or.inl ha
      | returned v => exact Or.inr ⟨v, ha⟩
    · exact absurd he hne

end Program

/-! ## 2. Records are taken out -/

namespace Queue

variable {S : Type → Type} [Slab S] {J : Type}

theorem size_unlink {q : Queue S J} {k : Ticket} {r : Record J} (hr : q.get? k = some r) :
    (q.unlink k).size + 1 = q.size := by
  have hcell : (Slab.get? q.records k.cell).isSome = true := by
    rw [(Option.filter_eq_some_iff.mp hr).1]
    rfl
  have hsome : q.size ≠ 0 := fun hzero =>
    absurd (hr.symm.trans (size_eq_zero_iff.mp hzero k)) (by simp)
  have hsize : (q.unlink k).size = q.size - 1 := by
    simp only [unlink, hr, size, Slab.size_erase, hcell, if_true]
  omega

end Queue

namespace System

variable {α : Type} {s s' s'' : System α}

/-- From `s` to `s'`, the records of the submissions `xs` were taken out, and nothing else
happened. -/
structure Frees (s s' : System α) (xs : List Submission) : Prop where
  record?_eq : ∀ y, s'.record? y = if y ∈ xs then none else s.record? y
  /-- Each pool has as many records less as `xs` are to it, and is as it was otherwise. -/
  pools : ∀ (i : Nat) (pool : Pool α), s.pools[i]? = some pool →
    ∃ queue, s'.pools[i]? = some { pool with queue } ∧
      queue.size + xs.countP (·.pool = i) = pool.counts.queued ∧
      queue.waiting = pool.queue.waiting ∧ queue.next = pool.queue.next ∧
      queue.limit = pool.queue.limit
  rest : s' = { s with pools := s'.pools }

theorem Frees.nil (s : System α) : s.Frees s [] where
  record?_eq := fun y => by simp
  pools := fun i pool hi => ⟨pool.queue, hi, rfl, rfl, rfl, rfl⟩
  rest := rfl

theorem Frees.trans {xs ys : List Submission} (h : s.Frees s' xs) (h' : s'.Frees s'' ys) :
    s.Frees s'' (xs ++ ys) where
  record?_eq := by
    intro y
    rw [h'.record?_eq, h.record?_eq]
    by_cases hx : y ∈ xs <;> by_cases hy : y ∈ ys <;> simp [hx, hy]
  pools := by
    intro i pool hi
    obtain ⟨queue, hi', hsize, hwaiting, hnext, hlimit⟩ := h.pools i pool hi
    obtain ⟨queue', hi'', hsize', hwaiting', hnext', hlimit'⟩ := h'.pools i _ hi'
    refine ⟨queue', hi'', ?_, hwaiting'.trans hwaiting, hnext'.trans hnext, hlimit'.trans hlimit⟩
    rw [List.countP_append, ← hsize]
    have hqueue : queue'.size + ys.countP (·.pool = i) = queue.size := hsize'
    omega
  rest := by
    rw [h'.rest, h.rest]

/-- A finished record is taken out. -/
theorem frees_unlink {x : Submission} {r : Record Job} (hr : s.record? x = some r)
    (hs : r.status = .finished) : s.Frees (s.modifyPool x.pool (·.unlink x.ticket)) [x] := by
  obtain ⟨pool, hi, hget⟩ := Option.bind_eq_some_iff.mp hr
  have hunlink : pool.unlink x.ticket = { pool with queue := pool.queue.unlink x.ticket } := by
    simp [Pool.unlink, Queue.remove_finished hget hs]
  have hpools (i : Nat) : (s.modifyPool x.pool (·.unlink x.ticket)).pools[i]? =
      if i = x.pool then some { pool with queue := pool.queue.unlink x.ticket }
      else s.pools[i]? := by
    rw [pools_modifyPool]
    split
    · next he => rw [he, hi, Option.map_some, hunlink]
    · rfl
  refine ⟨fun y => ?_, fun i pool' hi' => ?_, rfl⟩
  · obtain ⟨j, k⟩ := y
    obtain ⟨i, k'⟩ := x
    simp only [record?, hpools, List.mem_singleton, Submission.mk.injEq]
    by_cases hj : j = i
    · subst hj
      simp [hi, Queue.get?_unlink]
    · simp [hj]
  · rw [hpools]
    split
    · next he =>
      subst he
      obtain rfl := Option.some.inj (hi.symm.trans hi')
      refine ⟨_, rfl, ?_, Queue.waiting_unlink _ _, Queue.next_unlink _ _, Queue.limit_unlink _ _⟩
      simpa [Pool.counts] using Queue.size_unlink hget
    · next he =>
      refine ⟨pool'.queue, hi', ?_, rfl, rfl, rfl⟩
      simp [Ne.symm he, Pool.counts]

/-- Finished records are taken out one by one. -/
theorem frees_unlinkAll (xs : List Submission) (hnodup : xs.Nodup)
    (hs : ∀ x ∈ xs, ∃ r, s.record? x = some r ∧ r.status = .finished) :
    s.Frees (s.unlinkAll xs) xs := by
  induction xs generalizing s with
  | nil => exact .nil s
  | cons x rest ih =>
    obtain ⟨hx, hrest⟩ := List.nodup_cons.mp hnodup
    obtain ⟨r, hr, hfinished⟩ := hs x (List.mem_cons_self ..)
    have hfirst := frees_unlink hr hfinished
    refine hfirst.trans (ih hrest fun y hy => ?_)
    obtain ⟨r', hr', hfinished'⟩ := hs y (List.mem_cons_of_mem x hy)
    refine ⟨r', ?_, hfinished'⟩
    have hne : y ≠ x := fun he => hx (he ▸ hy)
    rw [hfirst.record?_eq, if_neg (by simpa using hne), hr']

theorem Frees.perm {xs ys : List Submission} (h : s.Frees s' xs) (hperm : xs.Perm ys) :
    s.Frees s' ys where
  record?_eq := fun y => by simp only [h.record?_eq, hperm.mem_iff]
  pools := by
    intro i pool hi
    obtain ⟨queue, hi', hsize, hrest⟩ := h.pools i pool hi
    exact ⟨queue, hi', hperm.countP_eq _ ▸ hsize, hrest⟩
  rest := h.rest

/-- A release succeeds, or there is one reason why it does not. -/
theorem release_answer (s : System α) (a : Nat) :
    (s.release a).1 = none ∨ (s.release a).1 = some .taskStillQueued := by
  unfold release
  split
  · exact Or.inl rfl
  · exact Or.inr rfl

theorem release_eq_none_iff {a : Nat} : (s.release a).1 = none ↔ s.canRelease a = true := by
  unfold release
  cases s.canRelease a with
  | true => simp
  | false => simp

end System

/-! ## 3. What is in the way of a release, and for how long -/

namespace Ledger

variable {α : Type} {g g' : Ledger α} {a : Nat} {x : Submission}

/-- `x` is no longer the most recent submission of task `a`, and no join of it was called. -/
structure Superseded (g : Ledger α) (a : Nat) (x : Submission) : Prop where
  mem : x ∈ g.submissions a
  head?_ne : (g.submissions a).head? ≠ some x
  unjoined : ∀ n j, g.joiner n = some j → j.submission ≠ x

/-- A join belongs to the most recent submission, so nothing but that one is ever joined. -/
theorem Superseded.tick (h : g.Superseded a x) (ho : g.Owned) (ht : Tick g g') :
    g'.Superseded a x := by
  refine ⟨mem_submissions_tick ht h.mem, ?_, ?_⟩
  · cases ht with
    | @accept y b held hnext hrecord hh hlive =>
      rw [submissions_accept hh]
      split
      · -- the new one is the most recent now
        intro hy
        exact ho.place_ne_next hnext h.mem (congrArg Submission.place (Option.some.inj hy).symm)
      · exact h.head?_ne
    | addTask hb => rw [submissions_addTask hb]; exact h.head?_ne
    | retire hh hlive hfate hfree hspent => rw [submissions_retire hh]; exact h.head?_ne
    | _ => exact h.head?_ne
  · intro n j hj
    cases ht with
    | elapse ms =>
      obtain ⟨old, hold, rfl⟩ := Option.map_eq_some_iff.mp hj
      split
      · rw [Joiner.submission_wake]
        exact h.unjoined n old hold
      · exact h.unjoined n old hold
    | finish hx hr =>
      obtain ⟨old, hold, rfl⟩ := Option.map_eq_some_iff.mp hj
      split
      · rw [Joiner.submission_wake]
        exact h.unjoined n old hold
      · exact h.unjoined n old hold
    | @call b m held y deadline hh hlive hy hm =>
      replace hj : Function.update g.joiner m (some ⟨b, y, deadline, .called⟩) n = some j := hj
      rw [Function.update_apply] at hj
      split at hj
      · obtain rfl := Option.some.inj hj
        rintro rfl
        have hmem : y ∈ g.submissions b := by
          rw [submissions_of_holding hh]
          exact List.mem_of_mem_head? hy
        obtain rfl := ho.owner_unique hmem h.mem
        exact h.head?_ne (submissions_of_holding hh ▸ hy)
      · exact h.unjoined n j hj
    | @look m old state hold hp hs =>
      replace hj : Function.update g.joiner m (some { old with state }) n = some j := hj
      rw [Function.update_apply] at hj
      split at hj
      · obtain rfl := Option.some.inj hj
        exact h.unjoined m old hold
      · exact h.unjoined n j hj
    | _ => exact h.unjoined n j hj

end Ledger

namespace Program

variable {α : Type} {p q : Program α} {as : List (Action α)} {a : Nat} {x : Submission}

theorem fate?_of_isLive {t : Task α} (ht : p.system.tasks[a]? = some t) (hlive : t.isLive = true) :
    p.ledger.fate? a = some .live := by
  rw [fate?_ledger ht]
  exact congrArg some (eq_of_beq hlive)

theorem Leads.superseded (hq : Leads p q) (hp : p.Reachable) (h : p.ledger.Superseded a x) :
    q.ledger.Superseded a x := by
  have hticks := hq.ticks hp
  have hboth : q.ledger.Owned ∧ q.ledger.Superseded a x := by
    generalize q.ledger = g at hticks
    induction hticks with
    | refl => exact ⟨hp.owned, h⟩
    | tail _ ht ih => exact ⟨ih.1.tick ht, ih.2.tick ih.1 ht⟩
  exact hboth.2

/-- A submission that was superseded unjoined keeps its task from being released. -/
theorem Reachable.refused_of_superseded (h : p.Reachable) (hx : p.ledger.Superseded a x)
    (hlive : p.ledger.fate? a = some .live) : p.system.canRelease a = false := by
  have hmem : x ∈ p.system.submissions a := by
    rw [submissions_eq, if_pos hlive]
    exact hx.mem
  by_contra hcan
  have hspent := List.all_eq_true.mp (Bool.not_eq_false _ ▸ hcan) x hmem
  obtain ⟨j, hj, hjx⟩ := h.joiner_of_isSpent hmem hspent
  obtain ⟨n, hn⟩ := List.getElem?_of_mem hj
  exact hx.unjoined n j hn hjx

/-- Later joins of a task come from later calls. -/
theorem lt_of_uncalled (hp : p.Reachable) {as : List (Action α)} (h : p.Allows as)
    (hnone : ∀ limit, Action.join a limit ∉ as) {n : Nat} {j : Joiner α}
    (hj : (p.run as).system.joiners[n]? = some j) (htask : j.task = a) :
    n < p.system.joiners.length := by
  induction as generalizing p with
  | nil => exact (List.getElem?_eq_some_iff.mp hj).1
  | cons act rest ih =>
    obtain ⟨hpermits, hrest⟩ := h
    have hp' : (p.act act).Reachable := hp.leads (.step act .refl hpermits)
    have hlt := ih hp' hrest (fun limit hmem => hnone limit (List.mem_cons_of_mem act hmem)) hj
    rcases p.joiners_act act with hlength | ⟨b, limit, y, rfl, -, -, hjoiners⟩
    · exact hlength ▸ hlt
    · -- the join that was called in between is of another task
      rw [hjoiners, List.length_append, List.length_singleton] at hlt
      refine Nat.lt_of_le_of_ne (Nat.le_of_lt_succ hlt) ?_
      rintro rfl
      obtain ⟨j', hj', hb, -⟩ := (leads_run rest _ hrest).joiner hp' (n := p.system.joiners.length)
        (by rw [hjoiners]; exact List.getElem?_concat_length)
      obtain rfl := Option.some.inj (hj'.symm.trans hj)
      obtain rfl : b = a := hb.symm.trans htask
      exact hnone limit (List.mem_cons_self ..)

/-- A join of a task without a join in progress is answered, and stays as it is. -/
theorem IsFree.joiner (hfree : p.IsFree a) (h : p.Reachable) (hq : Leads p q) {n : Nat}
    {j : Joiner α} (hj : p.system.joiners[n]? = some j) (htask : j.task = a) :
    ∃ j', q.system.joiners[n]? = some j' ∧ j'.submission = j.submission ∧
      j'.answer? = j.answer? ∧ j.answer?.isSome := by
  have hsome := hfree j (List.mem_of_getElem? hj) htask
  obtain ⟨answer, ha⟩ := Option.isSome_iff_exists.mp hsome
  obtain ⟨j', hj', -, hjx, -⟩ := hq.joiner h hj
  obtain ⟨j'', hj'', ha'⟩ := hq.answered h hj ha
  obtain rfl := Option.some.inj (hj'.symm.trans hj'')
  exact ⟨j', hj', hjx, ha'.trans ha.symm, hsome⟩

/-- A join of a submission is one of the task that owns it. -/
theorem Reachable.task_of_joiner (h : p.Reachable) (hx : x ∈ p.system.submissions a) {n : Nat}
    {j : Joiner α} (hj : p.system.joiners[n]? = some j) (hjx : j.submission = x) : j.task = a :=
  h.owned.owner_unique (hjx ▸ (h.joined n j hj).mem) (h.record_of_mem hx).1

/-- **What is spent stays so, and what is not stays so too**, for as long as the task is not joined
again.  So it does not matter when in the meantime a release looks at which record. -/
theorem Reachable.isSpent_stable (h : p.Reachable) (hfree : p.IsFree a) {as : List (Action α)}
    (has : p.Allows as) (hnone : ∀ limit, Action.join a limit ∉ as)
    (hx : x ∈ p.system.submissions a) (hx' : x ∈ (p.run as).system.submissions a) :
    (p.run as).system.isSpent x = p.system.isSpent x := by
  have hq := leads_run as p has
  have hp' := h.leads hq
  have hold {n : Nat} {j : Joiner α} (hj : (p.run as).system.joiners[n]? = some j)
      (htask : j.task = a) : ∃ j₀, p.system.joiners[n]? = some j₀ ∧
        j.submission = j₀.submission ∧ j.answer? = j₀.answer? ∧ j₀.answer?.isSome := by
    obtain ⟨j₀, hj₀⟩ : ∃ j₀, p.system.joiners[n]? = some j₀ :=
      ⟨_, List.getElem?_eq_getElem (lt_of_uncalled h has hnone hj htask)⟩
    obtain ⟨j', hj', htask', -⟩ := hq.joiner h hj₀
    obtain rfl := Option.some.inj (hj'.symm.trans hj)
    obtain ⟨j'', hj'', hsame⟩ := hfree.joiner h hq hj₀ (htask'.symm.trans htask)
    obtain rfl := Option.some.inj (hj'.symm.trans hj'')
    exact ⟨j₀, hj₀, hsame⟩
  have hfree' : (p.run as).IsFree a := by
    intro j hj htask
    obtain ⟨n, hn⟩ := List.getElem?_of_mem hj
    obtain ⟨j₀, -, -, ha, hsome⟩ := hold hn htask
    exact ha ▸ hsome
  rw [Bool.eq_iff_iff, h.isSpent_iff hfree hx, hp'.isSpent_iff hfree' hx']
  constructor
  · rintro ⟨j, hj, hjx, hreturned⟩
    obtain ⟨n, hn⟩ := List.getElem?_of_mem hj
    obtain ⟨j₀, hj₀, hjx₀, ha, -⟩ := hold hn (hp'.task_of_joiner hx' hn hjx)
    refine ⟨j₀, List.mem_of_getElem? hj₀, hjx₀.symm.trans hjx, ?_⟩
    rwa [Joiner.Returned, ← ha]
  · rintro ⟨j, hj, hjx, hreturned⟩
    obtain ⟨n, hn⟩ := List.getElem?_of_mem hj
    obtain ⟨j', hj', hjx', ha, -⟩ := hfree.joiner h hq hn (h.task_of_joiner hx hn hjx)
    refine ⟨j', List.mem_of_getElem? hj', hjx'.trans hjx, ?_⟩
    rwa [Joiner.Returned, ha]

/-! ## 4. The way through the pools -/

/-- The use of a task ends once. -/
theorem Leads.fate_eq (hq : Leads p q) (hp : p.Reachable) {fate : Fate} (hne : fate ≠ .live)
    (h : p.ledger.fate? a = some fate) : q.ledger.fate? a = some fate := by
  have hticks := hq.ticks hp
  generalize q.ledger = g at hticks
  induction hticks with
  | refl => exact h
  | tail _ ht ih =>
    cases ht with
    | addTask hb =>
      rw [Ledger.fate?_addTask]
      split
      · next he => simp [Ledger.fate?, he ▸ hb] at ih
      · exact ih
    | accept hnext hrecord hh hlive => rwa [Ledger.fate?_accept hh]
    | retire hh hlive hfate hfree hspent =>
      rw [Ledger.fate?_retire]
      split
      · next he =>
        rw [he, Ledger.fate?_of_holding hh, hlive] at ih
        exact absurd (Option.some.inj ih).symm hne
      · exact ih
    | _ => exact ih

/-- A record of a released task stays finished until it is taken out, and then it is gone. -/
theorem Reachable.onTheWay (h : p.Reachable) (hfate : p.ledger.fate? a = some .released)
    (hx : x ∈ p.ledger.submissions a) :
    (⟨a, x, .released⟩ ∈ p.leaving → ∃ r, p.system.record? x = some r ∧ r.status = .finished) ∧
      (⟨a, x, .released⟩ ∉ p.leaving → p.system.record? x = none) := by
  constructor
  · intro hl
    obtain ⟨-, -, -, r, hr, -, hs⟩ := h.owned.leaving _ hl
    exact ⟨r, hr, hs rfl⟩
  · intro hl
    by_contra hsome
    obtain ⟨r, hr⟩ := Option.ne_none_iff_exists'.mp hsome
    obtain ⟨b, fate, hb, hmem, -, hown, hleft⟩ := h.owned.linked x r hr
    obtain rfl := h.owned.owner_unique hx hmem
    obtain rfl : .released = fate := Option.some.inj (hfate.symm.trans hb)
    cases hd : r.detached with
    | false => exact (hown hd).elim (by simp) hl
    | true => exact absurd (hleft hd).1 (by simp)

/-- Giving such a record back takes it out and does nothing else. -/
theorem Reachable.frees_giveBack (h : p.Reachable)
    (hl : (⟨a, x, .released⟩ : Leaving) ∈ p.leaving) :
    p.system.Frees (p.act (.giveBack ⟨a, x, .released⟩)).system [x] := by
  obtain ⟨-, -, -, r, hr, -, hs⟩ := h.owned.leaving _ hl
  have hact : (p.act (.giveBack ⟨a, x, .released⟩)).system =
      p.system.modifyPool x.pool (·.unlink x.ticket) := by
    simp only [act, hl, if_true]
    rfl
  rw [hact]
  exact System.frees_unlink hr (hs rfl)

/-- A release in one go takes all records of the task out. -/
theorem Reachable.frees_release (h : p.Reachable) {t : Task α} (ht : p.system.tasks[a]? = some t)
    (hlive : t.isLive = true) (hcan : p.system.canRelease a = true) :
    ∃ s, p.system.Frees s t.submissions ∧
      (p.system.release a).2 = s.modifyTask a fun t => t.retire .released := by
  have hsubmissions : p.system.submissions a = t.submissions := by
    simp [System.submissions, ht, hlive]
  have hnodup : t.submissions.Nodup := submissions_ledger ht ▸ h.owned.submissions_nodup a
  refine ⟨p.system.unlinkAll t.submissions.reverse, ?_, ?_⟩
  · refine (System.frees_unlinkAll _ (List.nodup_reverse.mpr hnodup) fun x hx => ?_).perm
      (List.reverse_perm _)
    have hx : x ∈ p.system.submissions a := hsubmissions ▸ List.mem_reverse.mp hx
    obtain ⟨-, r, hr⟩ := h.record_of_mem hx
    exact ⟨r, hr, ((isSpent_of_record hr).mp (List.all_eq_true.mp hcan x hx)).2⟩
  · simp [System.release, hcan, hsubmissions]

/-! ## 5. Release -/

/-- A submission is spent by a join of it that was called in the run, and that has returned what
the body left. -/
theorem isSpent_iff_began (hp : p.Reachable) (hnone : p.system.joiners = []) (h : p.Allows as)
    (hfree : (p.run as).IsFree a) (hx : x ∈ (p.run as).system.submissions a) :
    (p.run as).system.isSpent x = true ↔ ∃ n, p.Began as a x n ∧ (p.run as).Returns n := by
  have hreach := hp.leads (leads_run as p h)
  rw [hreach.isSpent_iff hfree hx]
  constructor
  · rintro ⟨j, hj, hjx, hreturned⟩
    obtain ⟨n, hn⟩ := List.getElem?_of_mem hj
    have htask := hreach.task_of_joiner hx hn hjx
    exact ⟨n, (began_iff hp hnone h).mpr ⟨j, hn, htask, hjx⟩, (hreach.returns_iff hn).mpr hreturned⟩
  · rintro ⟨n, hbegan, hreturns⟩
    obtain ⟨j, hj, -, hjx⟩ := (began_iff hp hnone h).mp hbegan
    exact ⟨j, List.mem_of_getElem? hj, hjx, (hreach.returns_iff hj).mp hreturns⟩

/-- A submission that is not the most recent one, and of which no join was called. -/
theorem superseded_of_unjoined (hp : p.Reachable) (hnone : p.system.joiners = [])
    (h : p.Allows as) (hx : x ∈ ((p.run as).ledger.submissions a).tail)
    (hunjoined : ∀ n, ¬p.Began as a x n) : (p.run as).ledger.Superseded a x := by
  have hreach := hp.leads (leads_run as p h)
  have hmem : x ∈ (p.run as).ledger.submissions a := List.mem_of_mem_tail hx
  refine ⟨hmem, fun hhead => ?_, fun n j hj hjx => ?_⟩
  · have hnodup := hreach.owned.submissions_nodup a
    obtain ⟨rest, hlist⟩ := List.head?_eq_some_iff.mp hhead
    rw [hlist] at hx hnodup
    exact (List.nodup_cons.mp hnodup).1 hx
  · have htask := hreach.owned.owner_unique (hjx ▸ (hreach.joined n j hj).mem) hmem
    exact hunjoined n ((began_iff hp hnone h).mpr ⟨j, hj, htask, hjx⟩)

theorem act_release (hcan : p.system.canRelease a = true) :
    p.act (.release a) = p.retire a .released :=
  if_pos hcan

/-- A task that was released is in use no more. -/
theorem fate?_release (hcan : p.system.canRelease a = true) {t : Task α}
    (ht : p.system.tasks[a]? = some t) (hlive : t.isLive = true) :
    (p.act (.release a)).ledger.fate? a = some .released := by
  have htask : (p.act (.release a)).system.tasks[a]? = some (t.retire .released) := by
    rw [act_release hcan]
    exact (p.system.tasks_modifyTask a a _).trans (by rw [if_pos rfl, ht]; rfl)
  rw [fate?_ledger htask]
  simp [Task.retire, hlive]

/-- **When a task can be released, and what it changes.**  After any run, a task in use of which no
join is in progress is released exactly when each of its submissions has a join that was called
while that submission was the most recent one, and that has returned a value or that the body
panicked.  A submission that was superseded before any join of it was called keeps the task from
ever being released.  A release that succeeds takes out the records of the task, as many from each
pool as it had submissions to it, and changes nothing else but the fate of the task.

The look at the records and the way through the pools take several sections.  Whatever else happens
in between, each look comes to the same, and each record on its way stays finished until it is taken
out by itself. -/
theorem release_is_exact {processors : Nat} {as : List (Action α)}
    (h : (start processors).Allows as) (hp : p = (start processors).run as) {t : Task α}
    (ht : p.system.tasks[a]? = some t) (hlive : t.isLive = true) :
    ((p.system.release a).1 = none ∨ (p.system.release a).1 = some .taskStillQueued) ∧
    (p.IsFree a → ((p.system.release a).1 = none ↔
      ∀ x ∈ t.submissions, ∃ n, (start processors).Began as a x n ∧ p.Returns n)) ∧
    (∀ x ∈ t.submissions.tail, (∀ n, ¬ (start processors).Began as a x n) → ∀ q, Leads p q →
      ∀ t', q.system.tasks[a]? = some t' → t'.isLive = true →
        (q.system.release a).1 = some .taskStillQueued) ∧
    ((p.system.release a).1 = none → ∃ s, p.system.Frees s t.submissions ∧
      (p.system.release a).2 = s.modifyTask a fun t => t.retire .released) ∧
    (p.IsFree a → ∀ bs, p.Allows bs → (∀ limit, Action.join a limit ∉ bs) →
      ∀ t', (p.run bs).system.tasks[a]? = some t' → t'.isLive = true →
        ∀ x ∈ t.submissions, (p.run bs).system.isSpent x = p.system.isSpent x) ∧
    (p.IsFree a → (p.system.release a).1 = none →
      (p.act (.release a)).system = p.system.modifyTask a (fun t => t.retire .released) ∧
      ∀ q, Leads (p.act (.release a)) q → ∀ x ∈ t.submissions,
        (⟨a, x, .released⟩ ∈ q.leaving →
          (∃ r, q.system.record? x = some r ∧ r.status = .finished) ∧
          q.system.Frees (q.act (.giveBack ⟨a, x, .released⟩)).system [x]) ∧
        (⟨a, x, .released⟩ ∉ q.leaving → q.system.record? x = none)) := by
  subst hp
  have hstart : (start processors : Program α).Reachable := ⟨processors, .refl⟩
  have hreach := hstart.leads (leads_run as _ h)
  have hsubmissions : ((start processors).run as).system.submissions a = t.submissions := by
    simp [System.submissions, ht, hlive]
  have howned : ((start processors).run as).ledger.submissions a = t.submissions :=
    submissions_ledger ht
  refine ⟨System.release_answer _ a, fun hfree => ?_, fun x hx hnone q hq t' ht' hlive' => ?_,
    fun hnone => hreach.frees_release ht hlive (System.release_eq_none_iff.mp hnone),
    fun hfree bs hbs hnone t' ht' hlive' x hx => ?_, fun hfree hnone => ?_⟩
  · -- a release looks whether each submission is spent
    rw [System.release_eq_none_iff, System.canRelease, List.all_eq_true, hsubmissions]
    exact forall₂_congr fun x hx => isSpent_iff_began hstart rfl h hfree (hsubmissions ▸ hx)
  · -- nobody can join what is superseded
    have hsuperseded := superseded_of_unjoined hstart rfl h (howned ▸ hx) hnone
    have hrefused := (hreach.leads hq).refused_of_superseded (hq.superseded hreach hsuperseded)
      (fate?_of_isLive ht' hlive')
    exact (System.release_answer _ a).resolve_left fun hnone' =>
      absurd (System.release_eq_none_iff.mp hnone') (by simp [hrefused])
  · -- the look at the records
    have hkept : x ∈ t'.submissions := by
      rw [← submissions_ledger ht']
      exact Ledger.mem_submissions_ticks ((leads_run bs _ hbs).ticks hreach) (howned ▸ hx)
    exact hreach.isSpent_stable hfree hbs hnone (hsubmissions ▸ hx)
      (by simpa [System.submissions, ht', hlive'] using hkept)
  · -- the way through the pools
    have hcan := System.release_eq_none_iff.mp hnone
    refine ⟨by rw [act_release hcan]; rfl, fun q hq x hx => ?_⟩
    have hstep := Leads.step (.release a) .refl hfree
    have hreach' := hreach.leads hstep
    have hmem := Ledger.mem_submissions_ticks ((hstep.trans hq).ticks hreach) (howned ▸ hx)
    have hway := (hreach'.leads hq).onTheWay
      (hq.fate_eq hreach' (by simp) (fate?_release hcan ht hlive)) hmem
    exact ⟨fun hl => ⟨hway.1 hl, (hreach'.leads hq).frees_giveBack hl⟩, hway.2⟩

/-- A task is submitted, joined for a limited time while its body has not begun, and released. -/
theorem released_after_bounded_join :
    let as : List (Action Nat) :=
      [.addPool "pool" ⟨"pool", 1, 4, none, by decide, by decide, by decide, by decide⟩,
        .addTask "task" ⟨.count, .never, .never, 0⟩, .submit 0 0, .join 0 (some (.ms 50)),
        .move (.joiner 0), .move (.worker 0 0), .move (.worker 0 0), .move (.worker 0 0),
        .move (.worker 0 0), .move (.joiner 0)]
    let p := (start 1).run as
    (p.system.release 0).1 = none ∧
    (∃ n, (start 1 : Program Nat).Began as 0 ⟨0, ⟨0, 0⟩⟩ n ∧ p.Returns n) ∧
    ∃ s, p.system.Frees s [⟨0, ⟨0, 0⟩⟩] ∧
      (p.system.release 0).2 = s.modifyTask 0 fun t => t.retire .released := by
  intro as p
  obtain ⟨t, ht, hlist⟩ := Option.map_eq_some_iff.mp
    (show p.system.tasks[0]?.map (fun t => (t.submissions, t.isLive)) =
      some ([⟨0, ⟨0, 0⟩⟩], true) by decide)
  obtain ⟨hsubmissions, hlive⟩ := Prod.mk.inj hlist
  have hreleased : (p.system.release 0).1 = none := by decide
  obtain ⟨-, hiff, -, hfrees, -⟩ := release_is_exact (p := p) (by decide) rfl ht hlive
  rw [hsubmissions] at hiff hfrees
  exact ⟨hreleased, (hiff (by decide)).mp hreleased _ (List.mem_singleton_self _), hfrees hreleased⟩

end Program

end WorkerPool
