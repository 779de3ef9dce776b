/-
# The submissions that a pool accepts

A pool numbers the submissions that it accepts, and nothing else moves that number.  So what an
action does to a place of the list of pools is one of three things (`Pool.Turn`): a pool comes to
it, or goes on without a new number, or first of all accepts one submission and then leaves its
records alone, as the body does that submits.

`Program.acceptances` are the submissions that a pool accepts in a run, each with the pool as it was
found and as it was left.  `acceptances_concat` says what one action more adds to them, and
`length_acceptances` that none is missed.
-/
import Mathlib.Data.List.Induction
import WorkerPool.Proofs.SystemSound

namespace WorkerPool
namespace Pool

variable {α : Type} {p p' : Pool α}

/-! ## 1. Numbers -/

/-- An accepted submission takes the next number. -/
theorem next_of_accepted {refusal : Option String} {job : Job} {ticket : Ticket}
    (hok : (p.submit refusal job).1 = .ok ticket) :
    (p.submit refusal job).2.queue.next = p.queue.next + 1 := by
  rcases submit_cases p refusal job with ⟨-, he⟩ | ⟨_, -, -, he⟩ | ⟨-, -, he⟩
  · exact absurd hok (by simp [he])
  · exact absurd hok (by simp [he])
  · rw [he]
    show ((p.grow refusal).2.queue.pushed job).next = _
    rw [Queue.next_pushed, queue_grow]

theorem next_of_refused {refusal : Option String} {job : Job} {e : Failure}
    (he : (p.submit refusal job).1 = .error e) :
    (p.submit refusal job).2.queue.next = p.queue.next := by
  rcases submit_cases p refusal job with ⟨-, hs⟩ | ⟨_, -, -, hs⟩ | ⟨-, -, hs⟩
  · rw [hs]; rfl
  · rw [hs, queue_grow]
  · exact absurd he (by simp [hs])

/-! Nothing else gives a number. -/

theorem next_advance (h : p.queue.Sound) (w : Nat) :
    (p.advance w).queue.next = p.queue.next := by
  rcases advance_cases h w with
    ⟨k, rest, r, job, -, -, -, -, he⟩ | ⟨-, ⟨-, he⟩ | ⟨-, he⟩⟩ <;> rw [he]
  · exact Queue.next_started _ _ _
  · rfl
  · rfl

theorem next_finish (h : p.Sound) {w : Nat} {k : Ticket} {job : Job}
    (hw : p.workers[w]? = some (.executing k job .over)) :
    (p.finish w k).queue.next = p.queue.next := by
  obtain ⟨r, -, -, he⟩ := h.finish_eq hw
  rw [he, next_advance (h.ended hw _).queue]
  exact Queue.next_finished _ _

theorem next_unlink (p : Pool α) (k : Ticket) : (p.unlink k).queue.next = p.queue.next := by
  rcases p.unlink_cases k with he | he | ⟨f, he⟩ <;> rw [he]
  · exact Queue.next_unlink _ _
  · rfl

theorem next_giveBack (l : Leaving) (p : Pool α) : (l.giveBack p).queue.next = p.queue.next := by
  unfold Leaving.giveBack
  split
  · exact next_unlink p _
  · exact Queue.next_detach _ _
  · rfl

theorem next_awaitWorkers (p : Pool α) : p.awaitWorkers.queue.next = p.queue.next := by
  unfold Pool.awaitWorkers
  split <;> rfl

theorem next_shutdown (p : Pool α) : p.shutdown.2.queue.next = p.queue.next := by
  unfold Pool.shutdown
  split
  · exact next_awaitWorkers _
  · rfl

theorem next_drop (p : Pool α) : p.drop.queue.next = p.queue.next := by
  unfold Pool.drop
  split <;> rfl

theorem Section.next_le (hs : Section p p') (h : p.Sound) : p.queue.next ≤ p'.queue.next := by
  cases hs with
  | submit hactive refusal job =>
    cases hreply : (p.submit refusal job).1 with
    | error e => exact Nat.le_of_eq (next_of_refused hreply).symm
    | ok ticket => exact next_of_accepted hreply ▸ Nat.le_succ _
  | advance hw => exact Nat.le_of_eq (next_advance h.queue _).symm
  | wake hw =>
    exact Nat.le_of_eq (next_advance (p := { p with busy := p.busy + 1 }) h.queue _).symm
  | returnBody hw v => exact Nat.le_of_eq (congrArg Queue.next (queue_putResult p _ v)).symm
  | finish hw => exact Nat.le_of_eq (next_finish h hw).symm
  | join k => exact Nat.le_of_eq (Queue.next_join _ _).symm
  | detach k => exact Nat.le_of_eq (Queue.next_detach _ _).symm
  | unlink k => exact Nat.le_of_eq (next_unlink p k).symm
  | shutdown hactive => exact Nat.le_of_eq (next_shutdown p).symm
  | awaitWorkers hwoken => exact Nat.le_of_eq (next_awaitWorkers p).symm
  | drop => exact Nat.le_of_eq (next_drop p).symm
  | _ => exact Nat.le_refl _

/-! ## 2. One action, seen from one place -/

/-- What an action does to a place of the list of pools: a pool comes to it, or goes on without a
new number, or accepts one submission first and then leaves its records alone. -/
inductive Turn (refusal : Option String) : Option (Pool α) → Option (Pool α) → Prop where
  | none : Turn refusal none none
  | new {id : String} {plan : Plan} {p : Pool α} (hs : Sections (create id plan) p)
      (hnext : p.queue.next = 0) : Turn refusal none (some p)
  | on {p p' : Pool α} (hs : Sections p p') (hnext : p'.queue.next = p.queue.next) :
      Turn refusal (some p) (some p')
  | accepts {p p' : Pool α} {job : Job} {ticket : Ticket} (hactive : p.isActive = true)
      (hok : (p.submit refusal job).1 = .ok ticket) (hs : Sections (p.submit refusal job).2 p')
      (hqueue : p'.queue = (p.submit refusal job).2.queue) : Turn refusal (some p) (some p')

/-- After that the pool may go on without a change to its records. -/
theorem Turn.later {refusal : Option String} {o o' o'' : Option (Pool α)} (h : Turn refusal o o')
    (hg : Grown o' o'') (hqueue : o''.map (·.queue) = o'.map (·.queue)) : Turn refusal o o'' := by
  cases hg with
  | none => exact h
  | new hs => exact absurd hqueue (by simp)
  | old hs =>
    have hqueue' := Option.some.inj hqueue
    cases h with
    | new hs' hzero => exact .new (hs'.trans hs) ((congrArg Queue.next hqueue').trans hzero)
    | on hs' heq => exact .on (hs'.trans hs) ((congrArg Queue.next hqueue').trans heq)
    | accepts hactive hok hs' heq => exact .accepts hactive hok (hs'.trans hs) (hqueue'.trans heq)

end Pool

namespace System

variable {α : Type} {s s' : System α}

/-- How many numbers each pool has given. -/
def nexts (s : System α) : List Nat := s.pools.map (·.queue.next)

/-- Every place takes its turn. -/
def Turns (s s' : System α) : Prop := ∀ i : Nat, Pool.Turn s.refusal s.pools[i]? s'.pools[i]?

theorem nexts_modifyPool {i : Nat} {f : Pool α → Pool α}
    (hf : ∀ pool, s.pools[i]? = some pool → (f pool).queue.next = pool.queue.next) :
    (s.modifyPool i f).nexts = s.nexts := by
  refine List.ext_getElem? fun j => ?_
  simp only [nexts, List.getElem?_map, pools_modifyPool]
  split
  · next hj =>
    subst hj
    cases hi : s.pools[j]? with
    | none => rfl
    | some pool => exact congrArg some (hf pool hi)
  · rfl

/-- No pool gives a number. -/
theorem turns_of_nexts (he : s.Evolves s') (hn : s'.nexts = s.nexts) : s.Turns s' := by
  intro i
  have hg := he i
  have hnext : s'.pools[i]?.map (·.queue.next) = s.pools[i]?.map (·.queue.next) := by
    simpa only [nexts, List.getElem?_map] using congrArg (·[i]?) hn
  cases hi : s.pools[i]? with
  | none =>
    rw [hi] at hnext
    rw [Option.map_eq_none_iff.mp hnext]
    exact .none
  | some pool =>
    rw [hi] at hg hnext
    obtain ⟨pool', hi', hs⟩ := hg.of_some
    rw [hi'] at hnext ⊢
    exact .on hs (Option.some.inj hnext)

/-- After that a pool may go on without a change to its records. -/
theorem Turns.later {i : Nat} {f : Pool α → Pool α} (h : s.Turns s')
    (he : s'.Evolves (s'.modifyPool i f)) (hf : ∀ pool, (f pool).queue = pool.queue) :
    s.Turns (s'.modifyPool i f) := by
  intro j
  refine (h j).later (he j) ?_
  rw [pools_modifyPool]
  split
  · rw [Option.map_map]
    exact Option.map_congr fun pool _ => hf pool
  · rfl

theorem turns_addPool (s : System α) (id : String) (plan : Plan) : s.Turns (s.addPool id plan) := by
  intro i
  show Pool.Turn s.refusal s.pools[i]? (s.pools ++ [Pool.create id plan])[i]?
  rcases Nat.lt_or_ge i s.pools.length with hi | hi
  · rw [List.getElem?_append_left hi, List.getElem?_eq_getElem hi]
    exact .on .refl rfl
  · rw [List.getElem?_append_right hi, List.getElem?_eq_none hi]
    cases i - s.pools.length with
    | zero => exact .new .refl rfl
    | succ n => exact .none

/-- A submission is the first thing that its pool does. -/
theorem turns_submit (s : System α) (i a : Nat) : s.Turns (s.submit i a).2 := by
  rcases s.submit_cases i a with ⟨-, he⟩ | ⟨pool, t, hi, -, -, hcase⟩
  · rw [he]
    exact turns_of_nexts (.of_pools_eq rfl) rfl
  cases hactive : pool.isActive with
  | false =>
    rw [submit_of_inactive hi hactive]
    exact turns_of_nexts (.of_pools_eq rfl) rfl
  | true =>
    rcases hcase with ⟨e, hreply, -, he⟩ | ⟨ticket, hreply, -, he⟩
    · refine turns_of_nexts (s.evolves_submit i a) ?_
      rw [he]
      refine nexts_modifyPool fun pool' hi' => ?_
      rw [Option.some.inj (hi'.symm.trans hi)]
      exact Pool.next_of_refused hreply
    · intro j
      rw [he]
      show Pool.Turn s.refusal s.pools[j]? (s.modifyPool i _).pools[j]?
      rw [pools_modifyPool]
      split
      · next hj =>
        rw [hj, hi]
        exact .accepts hactive hreply .refl rfl
      · exact turns_of_nexts (.of_pools_eq rfl) rfl j

theorem Waits.nexts_eq {n : Nat} (h : s.Waits n s') : s'.nexts = s.nexts := by
  induction h with
  | refl => rfl
  | mark _ _ ih => exact (nexts_modifyPool fun _ _ => Queue.next_join _ _).trans ih
  | turn _ _ ih => exact ih

/-- A body that ends submits first, if it does. -/
theorem turns_endBody {i w run : Nat} {k : Ticket} {job : Job}
    (hw : s.phase? i w = some (.executing k job (.past run))) :
    s.Turns (s.endBody i w k job run) := by
  unfold System.endBody
  split
  · next p t _ _ =>
    split
    · have hpanic : s.Turns (s.modifyPool i fun p =>
          (p.note (.panicked w k.number)).setPhase w (.executing k job .over)) :=
        turns_of_nexts (evolves_worker hw fun pool hw => .panicBody hw)
          (nexts_modifyPool fun _ _ => rfl)
      rw [System.reportPanic_eq]
      exact hpanic
    · have hevaluate : s.Turns (s.evaluate p w t run).2 := by
        rcases s.evaluate_cases p w t run with he | ⟨j, a, he⟩
        · rw [he]
          exact turns_of_nexts (.of_pools_eq rfl) rfl
        · rw [he]
          exact s.turns_submit j a
      refine hevaluate.later
        (evolves_worker (executing_evaluate hw p w t run) fun pool hw => .returnBody hw _) ?_
      exact fun pool => Pool.queue_putResult pool k _
  · exact turns_of_nexts (.of_pools_eq rfl) rfl

theorem turns_perform (h : s.PoolsSound) (m : Move) : s.Turns (s.perform m) := by
  have hevolves := s.evolves_perform m
  cases m with
  | worker i w =>
    cases hphase : s.phase? i w with
    | none => exact turns_of_nexts hevolves (by simp [perform, hphase])
    | some phase =>
      have hof {pool : Pool α} (hi : s.pools[i]? = some pool) : pool.workers[w]? = some phase := by
        simpa [phase?, hi] using hphase
      rcases phase with _ | notified | ⟨k, job, _ | r | run | _⟩ | _
      · refine turns_of_nexts hevolves ?_
        simp only [perform, hphase]
        exact nexts_modifyPool fun pool hi => Pool.next_advance (h i pool hi).queue w
      · cases notified with
        | false => exact turns_of_nexts hevolves (by simp [perform, hphase])
        | true =>
          refine turns_of_nexts hevolves ?_
          simp only [perform, hphase]
          exact nexts_modifyPool fun pool hi =>
            Pool.next_advance (p := { pool with busy := pool.busy + 1 }) (h i pool hi).queue w
      · refine turns_of_nexts hevolves ?_
        simp only [perform, hphase]
        unfold enterBody
        split
        · exact nexts_modifyPool (s := s.modifyTask job.task _) fun _ _ => rfl
        · rfl
      · exact turns_of_nexts hevolves (by simp [perform, hphase])
      · simp only [perform, hphase]
        exact turns_endBody hphase
      · refine turns_of_nexts hevolves ?_
        simp only [perform, hphase]
        exact nexts_modifyPool fun pool hi => Pool.next_finish (h i pool hi) (hof hi)
      · exact turns_of_nexts hevolves (by simp [perform, hphase])
  | joiner n =>
    exact turns_of_nexts hevolves (s.waits_joiner n).nexts_eq
  | shutdown i =>
    refine turns_of_nexts hevolves ?_
    refine nexts_modifyPool fun pool _ => ?_
    split
    · exact Pool.next_awaitWorkers pool
    · rfl

end System

/-- An accepted submission: its pool as it was found and as it was left. -/
structure Acceptance (α : Type) where
  found : Pool α
  left : Pool α

namespace Program

variable {α : Type} {p : Program α}

/-- **One action gives a place one turn.** -/
theorem turns_act (h : p.system.PoolsSound) (a : Action α) : p.system.Turns (p.act a).system := by
  have hevolves := p.evolves_act a
  cases a with
  | addPool id plan => exact p.system.turns_addPool id plan
  | submit i a => exact p.system.turns_submit i a
  | join a limit =>
    exact System.turns_of_nexts hevolves (congrArg (List.map _) (p.system.pools_call a limit))
  | release a =>
    obtain ⟨_, _, he⟩ := p.release_frame a
    exact System.turns_of_nexts hevolves (by rw [he]; rfl)
  | detach a =>
    obtain ⟨_, _, he⟩ := p.detach_frame a
    exact System.turns_of_nexts hevolves (by rw [he]; rfl)
  | giveBack l =>
    refine System.turns_of_nexts hevolves ?_
    unfold act
    dsimp only
    split
    · exact System.nexts_modifyPool fun pool _ => Pool.next_giveBack l pool
    · rfl
  | shutdown i =>
    refine System.turns_of_nexts hevolves ?_
    show (p.system.shutdown i).2.nexts = _
    unfold System.shutdown
    split
    · rfl
    · next pool hi =>
      dsimp only
      split
      · refine System.nexts_modifyPool fun pool' hi' => ?_
        rw [Option.some.inj (hi'.symm.trans hi)]
        exact Pool.next_shutdown pool
      · rfl
  | dropPool i =>
    refine System.turns_of_nexts hevolves ?_
    exact System.nexts_modifyPool fun pool _ => Pool.next_drop pool
  | openGate a run =>
    refine System.turns_of_nexts hevolves (List.ext_getElem? fun i => ?_)
    show ((p.system.openGate a run).pools.map _)[i]? = (p.system.pools.map _)[i]?
    rw [List.getElem?_map, List.getElem?_map, System.openGate_pools, Option.map_map]
    rfl
  | move m => exact System.turns_perform h m
  | addTask _ _ => exact System.turns_of_nexts hevolves rfl
  | refuseThreads _ => exact System.turns_of_nexts hevolves rfl
  | elapse _ => exact System.turns_of_nexts hevolves rfl

/-! ## 3. The accepted submissions of a run -/

/-- The submission to the pool at place `i` that an action brings about, if it is accepted: it has
taken a number. -/
def acceptance? (p : Program α) (i : Nat) (a : Action α) : Option (Acceptance α) :=
  match p.system.pools[i]?, (p.act a).system.pools[i]? with
  | some found, some left =>
    if found.queue.next < left.queue.next then some ⟨found, left⟩ else none
  | _, _ => none

/-- The submissions that the pool at place `i` accepts while some actions are done, oldest
first. -/
def acceptances (p : Program α) (i : Nat) : List (Action α) → List (Acceptance α)
  | [] => []
  | a :: rest => (p.acceptance? i a).toList ++ (p.act a).acceptances i rest

theorem acceptances_append (p : Program α) (i : Nat) (as bs : List (Action α)) :
    p.acceptances i (as ++ bs) = p.acceptances i as ++ (p.run as).acceptances i bs := by
  induction as generalizing p with
  | nil => rfl
  | cons a rest ih =>
    simp only [List.cons_append, acceptances, run, ih (p.act a), List.append_assoc]

/-- A run and one action more: the pool at a place is new and has accepted nothing, or it has gone
on without a submission, or it has accepted one. -/
theorem acceptances_concat {n i : Nat} {as : List (Action α)} {a : Action α} {pool : Pool α}
    (hallows : (start n).Allows (as ++ [a]))
    (hi : ((start n).run (as ++ [a])).system.pools[i]? = some pool) :
    let xs := (start n).acceptances i as
    let xs' := (start n).acceptances i (as ++ [a])
    let before := ((start n).run as).system
    before.pools[i]? = none ∧ xs' = xs ∧ pool.queue.next = 0 ∧
        (∃ id plan, Pool.Sections (Pool.create id plan) pool) ∨
      (∃ found, before.pools[i]? = some found ∧ xs' = xs ∧ Pool.Sections found pool ∧
        pool.queue.next = found.queue.next) ∨
      ∃ found refusal job ticket, before.pools[i]? = some found ∧ xs' = xs ++ [⟨found, pool⟩] ∧
        found.isActive = true ∧ (found.submit refusal job).1 = .ok ticket ∧
        Pool.Sections (found.submit refusal job).2 pool ∧
        pool.queue = (found.submit refusal job).2.queue := by
  dsimp only
  rw [run_append] at hi
  have hreach : ((start n).run as).Reachable :=
    ⟨n, leads_run as _ ((allows_append _ _ _).mp hallows).1⟩
  have hturn := turns_act hreach.poolsSound a i
  rw [acceptances_append]
  simp only [acceptances, acceptance?, List.append_nil]
  have hi' : (((start n).run as).act a).system.pools[i]? = some pool := hi
  rw [hi'] at hturn ⊢
  generalize hbefore : ((start n).run as).system.pools[i]? = before at hturn
  cases hturn with
  | new hs hnext => exact Or.inl ⟨rfl, List.append_nil _, hnext, _, _, hs⟩
  | @on found _ hs hnext =>
    refine Or.inr (Or.inl ⟨found, rfl, ?_, hs, hnext⟩)
    dsimp only
    rw [if_neg (by omega)]
    exact List.append_nil _
  | @accepts found _ job ticket hactive hok hs hqueue =>
    refine Or.inr (Or.inr ⟨found, _, job, ticket, rfl, ?_, hactive, hok, hs, hqueue⟩)
    have hlt : found.queue.next < pool.queue.next := by
      rw [hqueue, Pool.next_of_accepted hok]
      exact Nat.lt_succ_self _
    dsimp only
    rw [if_pos hlt]
    rfl

/-- No accepted submission is missed: they are as many as the pool has given numbers. -/
theorem length_acceptances {n i : Nat} {as : List (Action α)} (hallows : (start n).Allows as) :
    ((start n).acceptances i as).length =
      (((start n).run as).system.pools[i]?.map (·.queue.next)).getD 0 := by
  induction as using List.reverseRecOn with
  | nil => rfl
  | append_singleton as a ih =>
    have ih := ih ((allows_append _ _ _).mp hallows).1
    cases hi : ((start n).run (as ++ [a])).system.pools[i]? with
    | none =>
      have hstay : ((start n).run as).system.pools[i]? = none := by
        cases hbefore : ((start n).run as).system.pools[i]? with
        | none => rfl
        | some found =>
          rw [run_append] at hi
          obtain ⟨pool, hpool, -⟩ := Pool.Grown.of_some (hbefore ▸ evolves_act _ a i)
          exact absurd (hi.symm.trans hpool) (by simp)
      rw [hstay] at ih
      rw [acceptances_append, acceptances, acceptance?, hstay, List.length_append, ih]
      rfl
    | some pool =>
      rcases acceptances_concat hallows hi with
        ⟨hnone, hxs, hnext, -⟩ | ⟨found, hfound, hxs, -, hnext⟩ |
          ⟨found, refusal, job, ticket, hfound, hxs, -, hok, -, hqueue⟩
      · rw [hxs, ih, hnone]
        exact hnext.symm
      · rw [hxs, ih, hfound]
        exact hnext.symm
      · rw [hxs, List.length_append, ih, hfound, Option.map_some, Option.map_some, hqueue,
          Pool.next_of_accepted hok]
        rfl

theorem acceptances_sound {i : Nat} {as : List (Action α)} (h : p.Reachable)
    (hallows : p.Allows as) : ∀ x ∈ p.acceptances i as, x.found.Sound := by
  induction as generalizing p with
  | nil => exact fun x hx => absurd hx (by simp [acceptances])
  | cons a rest ih =>
    intro x hx
    rw [acceptances, List.mem_append] at hx
    rcases hx with hx | hx
    · unfold acceptance? at hx
      split at hx
      · next found left hfound _ =>
        split at hx
        · have hx := Option.some.inj (Option.mem_toList.mp hx)
          rw [← hx]
          exact h.poolsSound i found hfound
        · exact absurd hx (by simp)
      · exact absurd hx (by simp)
    · exact ih (h.leads (Leads.refl.step a hallows.1)) hallows.2 x hx

end Program
end WorkerPool
