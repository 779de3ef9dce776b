/-
# Joins and time in a system at rest

When nobody can move, a join is answered at once if its record has finished, and otherwise waits;
nothing else moves because of it (`Occurs.joinFor_cases`, `Rests.of_pools`).  And time does nothing
to such a system but answer the joins whose deadline passes (`Occurs.settle_elapse`).
-/
import WorkerPool.Proofs.Occurs

namespace WorkerPool

/-- The last entry of a list is changed. -/
theorem modify_concat {β : Type} (l : List β) (b : β) (f : β → β) :
    (l ++ [b]).modify l.length f = l ++ [f b] := by
  rw [modify_eq_set List.getElem?_concat_length]
  simp

/-- Changing a cell twice in a way that need not be done twice. -/
theorem Arena.modify_modify {β : Type} (a : Arena β) (cell : Nat) {f : β → β}
    (hf : ∀ b, f (f b) = f b) : (a.modify cell f).modify cell f = a.modify cell f := by
  have hcells : (a.cells.modify cell f).modify cell f = a.cells.modify cell f := by
    refine Std.ExtTreeMap.ext_getElem? fun c => ?_
    simp only [Std.ExtTreeMap.getElem?_modify, Nat.compare_eq_eq, if_true]
    split
    · rw [Option.map_map]
      exact congrArg (Option.map · _) (funext hf)
    · rfl
  simp only [modify, hcells]

/-- A record that is marked once more stays as it is. -/
theorem Queue.join_join {J : Type} (q : Queue Arena J) (k : Ticket) :
    (q.join k).join k = q.join k := by
  cases hr : q.get? k with
  | none =>
    have hsame : q.join k = q := by rw [join, update, hr]
    rw [hsame, hsame]
  | some r =>
    have hmarked : (q.join k).get? k = some { r with joined := true } := by
      rw [get?_join, if_pos rfl, hr]
      rfl
    have heq : q.join k =
        { q with records := q.records.modify k.cell fun r => { r with joined := true } } := by
      rw [join, update, hr]
      rfl
    have hrecords := q.records.modify_modify k.cell
      (f := fun r : Record J => { r with joined := true }) fun _ => rfl
    rw [join, update, hmarked, heq]
    exact congrArg (fun records : Arena (Record J) => { q with records }) hrecords

/-- A join that has to give up if it does not have its answer at time `clock`. -/
def Joiner.isOver {α : Type} (j : Joiner α) (clock : Nat) : Bool :=
  j.answer?.isNone && j.isDue clock

/-- The join at time `clock`, when its record has not finished by then. -/
def Joiner.expire {α : Type} (j : Joiner α) (clock : Nat) : Joiner α :=
  if j.isOver clock then { j with state := .answered (.error .timeout) } else j

namespace System

variable {α : Type} {s s' : System α} {schedule : Schedule α}

/-- Whether the workers and the shutdown of a pool rest does not hang on anything else. -/
theorem Rests.of_pools (h : s.Rests)
    (hpools : (s'.pools.map fun p => (p.workers, p.standing)) =
      s.pools.map fun p => (p.workers, p.standing))
    (hjoins : ∀ j ∈ s'.joiners, j.isWoken = false) : s'.Rests := by
  have hpool : ∀ i : Nat, (s'.pools[i]?.map fun p => (p.workers, p.standing)) =
      s.pools[i]?.map fun p => (p.workers, p.standing) := by
    intro i
    rw [← List.getElem?_map, ← List.getElem?_map, hpools]
  intro m
  cases m with
  | worker i w =>
    have hphase : ∀ s : System α, s.phase? i w =
        (s.pools[i]?.map fun p => (p.workers, p.standing)).bind fun seen => seen.1[w]? := by
      intro s
      rw [Option.bind_map]
      rfl
    have hm := h (.worker i w)
    rw [ready, hphase] at hm
    rw [ready, hphase, hpool]
    exact hm
  | joiner n =>
    cases hj : s'.joiners[n]? with
    | none => simp [ready, hj]
    | some j => simp [ready, hj, hjoins j (List.mem_of_getElem? hj)]
  | shutdown i =>
    have hwoken : ∀ s : System α, s.ready (.shutdown i) =
        (s.pools[i]?.map fun p => (p.workers, p.standing)).any fun seen => seen.2.isWoken := by
      intro s
      rw [Option.any_map]
      rfl
    have hm := h (.shutdown i)
    rw [hwoken] at hm
    rw [hwoken, hpool]
    exact hm

/-- When nobody can move, a worker with a body is held up at a gate. -/
theorem Rests.isUnderWay_eq_false (h : s.Rests) {pool : Pool α} (hpool : pool ∈ s.pools)
    {phase : Phase} (hphase : phase ∈ pool.workers) : phase.isUnderWay = false := by
  obtain ⟨i, hi⟩ := List.getElem?_of_mem hpool
  obtain ⟨w, hw⟩ := List.getElem?_of_mem hphase
  have hrests := h (.worker i w)
  rw [ready, phase?_eq_some.mpr ⟨pool, hi, hw⟩, Option.any_some, Bool.or_eq_false_iff] at hrests
  exact hrests.1

/-- Nobody of a system at rest was told to look. -/
theorem Rests.asleep (h : s.Rests) : ∀ j ∈ s.joiners, j.isWoken = false := by
  intro j hj
  obtain ⟨n, hn⟩ := List.getElem?_of_mem hj
  simpa [ready, hn] using h (.joiner n)

/-- A pool without workers has nobody to move. -/
theorem Rests.addPool (h : s.Rests) (id : String) (plan : Plan) : (s.addPool id plan).Rests := by
  intro m
  have hpool (i : Nat) : (s.addPool id plan).pools[i]? = s.pools[i]? ∨
      (s.addPool id plan).pools[i]? = some (Pool.create id plan) := by
    show (s.pools ++ [Pool.create id plan])[i]? = _ ∨ _
    rcases Nat.lt_trichotomy i s.pools.length with hi | rfl | hi
    · exact Or.inl (List.getElem?_append_left hi)
    · exact Or.inr List.getElem?_concat_length
    · refine Or.inl ?_
      rw [List.getElem?_eq_none (by simpa using Nat.succ_le_of_lt hi),
        List.getElem?_eq_none (Nat.le_of_lt hi)]
  cases m with
  | worker i w =>
    have hm := h (.worker i w)
    simp only [ready, phase?] at hm ⊢
    rcases hpool i with he | he <;> rw [he]
    · exact hm
    · rfl
  | joiner n => exact h (.joiner n)
  | shutdown i =>
    have hm := h (.shutdown i)
    simp only [ready] at hm ⊢
    rcases hpool i with he | he <;> rw [he]
    · exact hm
    · rfl

/-! ## 1. Joins -/

/-- What a task in use owns is there. -/
theorem Occurs.record_of_owned (h : s.Occurs) {a : Nat} {x : Submission}
    (hx : x ∈ s.submissions a) : ∃ r, s.record? x = some r := by
  obtain ⟨p, hp, -, rfl⟩ := h
  rw [Program.submissions_eq] at hx
  split at hx
  · next hlive =>
    obtain ⟨r, hr, -⟩ := hp.owned.held a hlive x hx
    exact ⟨r, hr⟩
  · exact absurd hx List.not_mem_nil

theorem workers_join (s : System α) (x : Submission) :
    ((s.modifyPool x.pool (·.join x.ticket)).pools.map fun p => (p.workers, p.standing)) =
      s.pools.map fun p => (p.workers, p.standing) := by
  refine List.ext_getElem? fun i => ?_
  rw [List.getElem?_map, List.getElem?_map, pools_modifyPool]
  split
  · cases s.pools[i]? <;> rfl
  · rfl

theorem record?_join (s : System α) (x : Submission) :
    (s.modifyPool x.pool (·.join x.ticket)).record? x =
      (s.record? x).map fun r => { r with joined := true } := by
  unfold record?
  rw [pools_modifyPool, if_pos rfl]
  cases s.pools[x.pool]? with
  | none => rfl
  | some p =>
    show (p.queue.join x.ticket).get? x.ticket = (p.queue.get? x.ticket).map _
    rw [Queue.get?_join, if_pos rfl]

theorem outcome_join (s : System α) (x : Submission) :
    (s.modifyPool x.pool (·.join x.ticket)).outcome x = s.outcome x := by
  unfold outcome
  rw [pools_modifyPool, if_pos rfl]
  cases s.pools[x.pool]? <;> rfl

theorem join_join (s : System α) (x : Submission) :
    (s.modifyPool x.pool (·.join x.ticket)).modifyPool x.pool (·.join x.ticket) =
      s.modifyPool x.pool (·.join x.ticket) := by
  rw [modifyPool_modifyPool]
  congr 1
  funext p
  exact congrArg (fun q => { p with queue := q }) (Queue.join_join p.queue x.ticket)

/-- The system after a join that has its answer at once. -/
def joinAnswered (s : System α) (a : Nat) (x : Submission) (deadline : Option Nat) : System α :=
  { s.modifyPool x.pool (·.join x.ticket) with
    joiners := s.joiners ++ [⟨a, x, deadline, .answered (s.outcome x)⟩] }

/-- The system after a join that has to wait; without a deadline it has marked its record. -/
def joinWaiting (s : System α) (a : Nat) (x : Submission) (deadline : Option Nat) : System α :=
  { (if deadline.isNone then s.modifyPool x.pool (·.join x.ticket) else s) with
    joiners := s.joiners ++ [⟨a, x, deadline, .waiting false⟩] }

theorem clock_joinWaiting (s : System α) (a : Nat) (x : Submission) (deadline : Option Nat) :
    (s.joinWaiting a x deadline).clock = s.clock := by
  unfold joinWaiting
  split <;> rfl

/-- A join that has no reason to give up looks at its record for the first time. -/
theorem lookAgain_last {joiners : List (Joiner α)} {j : Joiner α} {r : Record Job}
    (hj : s.joiners = joiners ++ [j]) (hr : s.record? j.submission = some r)
    (hdue : j.isDue s.clock = false) :
    s.lookAgain joiners.length =
      if r.status = .finished then
        { s.modifyPool j.submission.pool (·.join j.submission.ticket) with
          joiners := joiners ++ [{ j with state := .answered (s.outcome j.submission) }] }
      else { s with joiners := joiners ++ [{ j with state := .waiting false }] } := by
  have hlast : s.joiners[joiners.length]? = some j := by rw [hj, List.getElem?_concat_length]
  have hset : ∀ (t : System α) (state : JoinState α), t.joiners = s.joiners →
      t.setJoin joiners.length state = { t with joiners := joiners ++ [{ j with state }] } := by
    intro t state ht
    rw [setJoin, ht, hj, modify_concat]
  unfold lookAgain
  simp only [hlast, hr, hdue, Bool.false_eq_true, if_false]
  split
  · exact hset _ _ rfl
  · exact hset _ _ rfl

/-- A join that is called, and its wait begun. -/
theorem startWait_called (s : System α) {a : Nat} {x : Submission} {deadline : Option Nat}
    {r : Record Job} (hr : s.record? x = some r)
    (hdue : (⟨a, x, deadline, .called⟩ : Joiner α).isDue s.clock = false) :
    ({ s with joiners := s.joiners ++ [⟨a, x, deadline, .called⟩] } : System α).startWait
        s.joiners.length =
      if r.status = .finished then s.joinAnswered a x deadline
      else s.joinWaiting a x deadline := by
  let called : System α := { s with joiners := s.joiners ++ [⟨a, x, deadline, .called⟩] }
  have hlast : called.joiners[s.joiners.length]? = some ⟨a, x, deadline, .called⟩ :=
    List.getElem?_concat_length
  show called.startWait s.joiners.length = _
  unfold startWait
  simp only [hlast]
  cases hnone : deadline.isNone with
  | true =>
    have hjoiners : (called.modifyPool x.pool (·.join x.ticket)).joiners =
        s.joiners ++ [⟨a, x, deadline, .called⟩] := rfl
    have hmarked : (called.modifyPool x.pool (·.join x.ticket)).record? x =
        some { r with joined := true } :=
      (called.record?_join x).trans (congrArg (Option.map _) hr)
    have hlook := lookAgain_last hjoiners hmarked hdue
    rw [if_pos rfl, hlook, joinWaiting, hnone]
    dsimp only
    rw [called.join_join x, called.outcome_join x]
    rfl
  | false =>
    have hjoiners : called.joiners = s.joiners ++ [⟨a, x, deadline, .called⟩] := rfl
    have hlook := lookAgain_last hjoiners (show called.record? x = some r from hr) hdue
    rw [if_neg Bool.false_ne_true, hlook, joinWaiting, hnone]
    rfl

/-- What a join comes to when it is called: it finds no submission, it has no time, it is answered
at once because the record has finished, or it waits. -/
theorem Occurs.joinFor_cases (h : s.Occurs) (a : Nat) (limit : Option Patience) :
    s.joinFor a limit = (.error .notSubmitted, s) ∨
      limit = some (.ms 0) ∧ s.joinFor a limit = (.error .timeout, s) ∨
      ∃ x r, (s.submissions a).head? = some x ∧ s.record? x = some r ∧ limit ≠ some (.ms 0) ∧
        let deadline := limit.bind (·.deadline? s.clock)
        s.joinFor a limit = (.ok s.joiners.length,
          if r.status = .finished then s.joinAnswered a x deadline
          else s.joinWaiting a x deadline) := by
  unfold joinFor call
  cases hx : (s.submissions a).head? with
  | none => exact Or.inl rfl
  | some x =>
    dsimp only
    by_cases hzero : limit = some (.ms 0)
    · rw [if_pos hzero]
      exact Or.inr (Or.inl ⟨hzero, rfl⟩)
    rw [if_neg hzero]
    obtain ⟨r, hr⟩ := h.record_of_owned (List.mem_of_mem_head? hx)
    refine Or.inr (Or.inr ⟨x, r, rfl, hr, hzero, congrArg (Prod.mk _) (startWait_called s hr ?_)⟩)
    rcases limit with _ | ⟨_ | n⟩ | _
    · rfl
    · exact absurd rfl hzero
    · simp [Joiner.isDue, Patience.deadline?]
    · rfl

/-- Nobody else moves because of a join. -/
theorem Rests.joinAnswered (h : s.Rests) (a : Nat) (x : Submission) (deadline : Option Nat) :
    (s.joinAnswered a x deadline).Rests := by
  refine h.of_pools (workers_join s x) fun j hj => ?_
  rcases List.mem_append.mp hj with hj | hj
  · exact h.asleep j hj
  · obtain rfl := List.mem_singleton.mp hj
    rfl

theorem Rests.joinWaiting (h : s.Rests) (a : Nat) (x : Submission) (deadline : Option Nat) :
    (s.joinWaiting a x deadline).Rests := by
  refine h.of_pools ?_ fun j hj => ?_
  · unfold System.joinWaiting
    cases deadline.isNone with
    | true => exact workers_join s x
    | false => rfl
  rcases List.mem_append.mp hj with hj | hj
  · exact h.asleep j hj
  · obtain rfl := List.mem_singleton.mp hj
    rfl

/-! ## 2. Time -/

/-- The system at a later time; nothing but its joins has changed. -/
def later (s : System α) (clock : Nat) (joiners : List (Joiner α)) : System α :=
  { s with clock, joiners }

/-- Where a join may be while a system looks what time has brought. -/
def Expiring (clock : Nat) (j j' : Joiner α) : Prop :=
  if j.isOver clock then j' = { j with state := .waiting true } ∨ j' = j.expire clock else j' = j

/-- A system at rest, `s`, has come to a later time and is about to answer the joins whose deadline
has passed. -/
structure Elapsing (s : System α) (clock : Nat) (joiners : List (Joiner α)) : Prop where
  length : joiners.length = s.joiners.length
  expiring : ∀ (n : Nat) (j j' : Joiner α), s.joiners[n]? = some j → joiners[n]? = some j' →
    Expiring clock j j'

theorem Occurs.elapsing (h : s.Occurs) (hrests : s.Rests) (ms : Nat) :
    s.Elapsing (s.clock + ms) (s.elapse ms).joiners := by
  refine ⟨List.length_map _, fun n j j' hj hj' => ?_⟩
  replace hj' : (s.joiners.map _)[n]? = some j' := hj'
  rw [List.getElem?_map, hj, Option.map_some] at hj'
  obtain rfl := Option.some.inj hj'
  unfold Expiring
  cases hp : j.answer? with
  | some answer =>
    rw [Joiner.isOver, hp]
    cases hs : j.state <;> simp_all [Joiner.answer?, Joiner.wake]
  | none =>
    obtain ⟨hasleep, -, -⟩ := h.waits hrests hj hp
    cases hdue : j.isDue (s.clock + ms) with
    | true =>
      rw [if_pos (by simp [Joiner.isOver, hp, hdue]), if_pos rfl]
      exact Or.inl (by rw [Joiner.wake, hasleep])
    | false => rw [if_neg (by simp [Joiner.isOver, hp, hdue]), if_neg Bool.false_ne_true]

/-- A join whose time is over gives up when it looks. -/
theorem perform_expiring {n : Nat} {j : Joiner α} {r : Record Job}
    (hj : s.joiners[n]? = some { j with state := .waiting true })
    (hr : s.record? j.submission = some r) (hs : r.status ≠ .finished)
    (hdue : j.isDue s.clock = true) :
    s.perform (.joiner n) = s.setJoin n (.answered (.error .timeout)) := by
  have hstate : s.joinState? n = some (.waiting true) := by
    rw [joinState?, hj]
    rfl
  have hover : ({ j with state := .waiting true } : Joiner α).isDue s.clock = true := hdue
  simp only [perform, hstate, lookAgain, hj, hr, if_neg hs, hover, if_true]

theorem Elapsing.step {clock : Nat} {joiners : List (Joiner α)} (he : s.Elapsing clock joiners)
    (h : s.Occurs) (hrests : s.Rests) {m : Move}
    (hready : (s.later clock joiners).ready m = true) :
    ∃ joiners', (s.later clock joiners).perform m = s.later clock joiners' ∧
      s.Elapsing clock joiners' := by
  cases m with
  | worker i w => exact absurd (hready.symm.trans (hrests (.worker i w))) (by simp)
  | shutdown i => exact absurd (hready.symm.trans (hrests (.shutdown i))) (by simp)
  | joiner n =>
    obtain ⟨j', hj', hwoken⟩ := (Option.any_eq_true _ _).mp hready
    replace hj' : joiners[n]? = some j' := hj'
    have hlt : n < s.joiners.length := he.length ▸ (List.getElem?_eq_some_iff.mp hj').1
    obtain ⟨j, hj⟩ : ∃ j, s.joiners[n]? = some j := ⟨_, List.getElem?_eq_getElem hlt⟩
    have hexpiring := he.expiring n j j' hj hj'
    unfold Expiring at hexpiring
    split at hexpiring
    · next hover =>
      obtain ⟨hp, hdue⟩ : j.answer? = none ∧ j.isDue clock = true := by
        simpa [Joiner.isOver] using hover
      rcases hexpiring with rfl | rfl
      · -- its record has not finished
        obtain ⟨-, -, r, hr, hunfinished⟩ := h.waits hrests hj hp
        refine ⟨_, perform_expiring (s := s.later clock joiners) hj' hr hunfinished hdue,
          (List.length_modify ..).trans he.length, fun n' i i' hi hi' => ?_⟩
        replace hi' : (joiners.modify n _)[n']? = some i' := hi'
        rw [List.getElem?_modify] at hi'
        by_cases hn : n = n'
        · subst hn
          obtain rfl := Option.some.inj (hi.symm.trans hj)
          rw [hj'] at hi'
          obtain rfl := Option.some.inj hi'
          unfold Expiring
          rw [if_pos hover, Joiner.expire, if_pos hover]
          exact Or.inr (by simp)
        · exact he.expiring n' i i' hi (by simpa [hn] using hi')
      · rw [Joiner.expire, if_pos hover] at hwoken
        exact absurd hwoken (by simp [Joiner.isWoken])
    · subst hexpiring
      exact absurd (hwoken.symm.trans (hrests.asleep j' (List.mem_of_getElem? hj))) (by simp)

/-- When nobody can move any more, they are answered. -/
theorem Elapsing.ends {clock : Nat} {joiners : List (Joiner α)} (he : s.Elapsing clock joiners)
    (hrests : (s.later clock joiners).Rests) : joiners = s.joiners.map (·.expire clock) := by
  refine List.ext_getElem? fun n => ?_
  rw [List.getElem?_map]
  rcases Nat.lt_or_ge n s.joiners.length with hn | hn
  · obtain ⟨j, hj⟩ : ∃ j, s.joiners[n]? = some j := ⟨_, List.getElem?_eq_getElem hn⟩
    obtain ⟨j', hj'⟩ : ∃ j', joiners[n]? = some j' :=
      ⟨_, List.getElem?_eq_getElem (he.length ▸ hn)⟩
    have hasleep := hrests.asleep j' (List.mem_of_getElem? hj')
    have hexpiring := he.expiring n j j' hj hj'
    rw [hj, hj', Option.map_some]
    unfold Expiring at hexpiring
    split at hexpiring
    · rcases hexpiring with rfl | rfl
      · exact absurd hasleep (by simp [Joiner.isWoken])
      · rfl
    · next hover => rw [hexpiring, Joiner.expire, if_neg hover]
  · rw [List.getElem?_eq_none hn, List.getElem?_eq_none (he.length ▸ hn)]
    rfl

/-- **Time does nothing to a system at rest but answer the joins whose deadline passes.** -/
theorem Occurs.settle_elapse (h : s.Occurs) (hrests : s.Rests)
    (hschedule : Schedule.Diligent schedule) (ms : Nat) :
    (s.elapse ms).settle schedule =
      s.later (s.clock + ms) (s.joiners.map (·.expire (s.clock + ms))) := by
  obtain ⟨joiners, hsettled, he⟩ :
      ∃ joiners, (s.elapse ms).settle schedule = s.later (s.clock + ms) joiners ∧
        s.Elapsing (s.clock + ms) joiners := by
    refine settle_induct hschedule (P := fun u => ∃ joiners,
      u = s.later (s.clock + ms) joiners ∧ s.Elapsing (s.clock + ms) joiners) ?_
      ⟨_, rfl, h.elapsing hrests ms⟩
    rintro u m ⟨joiners, rfl, he⟩ hready
    exact he.step h hrests hready
  have hends := (h.brings (s.brings_elapse ms)).rests_settle hschedule
  rw [hsettled] at hends ⊢
  rw [he.ends hends]

end System
end WorkerPool
