/-
# Failed operations leave no trace

A command that has failed leaves nothing behind but notes, answered joins and the time that it took
(`Traceless`), unless it is a join that met a panic.  The gap between a session that carried it out
and one that did not stays as it is for the rest of the script, so later reports do not change if
the command is taken out of the script.  That holds for every order of the threads that does not
hang on what the command left, such as how far the clock has gone (`Gap.Overlooks`): the threads
then go on in the same order in both sessions.

Time is what can make a difference: a bounded join that has to wait takes its time from all others
whose deadline is set.  In a session without such joins it does not matter
(`failures_leave_no_trace`), in others it does (`short_join_takes_time`).
-/
import WorkerPool.Proofs.Failures
import WorkerPool.Proofs.Lockstep.Session

namespace WorkerPool

variable {α : Type}

namespace System

variable {s : System α}

/-- No bounded join is in progress. -/
def Unhurried (s : System α) : Prop := ∀ j ∈ s.joiners, j.answer? = none → j.deadline = none

/-- Without deadlines, time does nothing to joins. -/
theorem Unhurried.expire (h : s.Unhurried) (clock : Nat) :
    s.joiners.map (·.expire clock) = s.joiners := by
  refine (List.map_congr_left fun j hj => ?_).trans (List.map_id _)
  have hnot : j.isOver clock = false := by
    cases hp : j.answer? with
    | some answer => simp [Joiner.isOver, hp]
    | none => simp [Joiner.isOver, Joiner.isDue, hp, h j hj hp]
  rw [Joiner.expire, hnot, if_neg Bool.false_ne_true]
  rfl

end System

namespace Session

variable {S R : Session α} {c : Command α} {e : Failure}

/-! ## 1. The gap that a failure opens -/

/-- Session `S` has gone on to `R`, and left nothing behind but notes, answered joins and the time
that it took, and nobody minds the time. -/
structure Traceless (S R : Session α) : Prop where
  unmoved : S.system.Unmoved R.system
  joins : ∃ joiners, R.system.joiners = S.system.joiners ++ joiners ∧
    ∀ j ∈ joiners, j.answer? ≠ none
  clock_le : S.system.clock ≤ R.system.clock
  unhurried : R.system.clock = S.system.clock ∨ S.system.Unhurried
  pending : R.pending = S.pending
  unsized : R.unsized = S.unsized
  passing : R.passing = S.passing

/-- How far session `R`, which has gone on from `S`, is apart from `S`. -/
def gapTo (S R : Session α) : Gap where
  hidden := none
  before := S.system.joiners.length
  extra := R.system.joiners.length - S.system.joiners.length
  lead := R.system.clock - S.system.clock
  poolNotes i := (R.poolJournal i, S.poolJournal i)
  taskNotes := (R.system.journal, S.system.journal)

theorem place_gapTo {n : Nat} (h : n < S.system.joiners.length) : (S.gapTo R).place n = n :=
  if_pos h

namespace Traceless

theorem pools (h : S.Traceless R) (i : Nat) :
    Option.Rel ((S.gapTo R).Pools i) R.system.pools[i]? S.system.pools[i]? := by
  have hunnoted : R.system.pools[i]?.map Pool.unnoted = S.system.pools[i]?.map Pool.unnoted := by
    rw [← List.getElem?_map, ← List.getElem?_map, h.unmoved.pools]
  cases hq : S.system.pools[i]? with
  | none =>
    rw [hq, Option.map_none, Option.map_eq_none_iff] at hunnoted
    rw [hunnoted]
    exact .none
  | some q =>
    rw [hq, Option.map_some, Option.map_eq_some_iff] at hunnoted
    obtain ⟨p, hp, hpq⟩ := hunnoted
    have hnotes : (S.gapTo R).poolNotes i = (p.journal, q.journal) := by
      simp only [gapTo, poolJournal, hp, hq]
    have hpools : (S.gapTo R).Pools i (q.unnoted.older p.journal) (q.unnoted.older q.journal) := by
      have halike := Gap.Pools.alike q.unnoted
        fun name (hn : (S.gapTo R).hidden = some (i, name)) => absurd hn (by simp [gapTo])
      rwa [hnotes] at halike
    have hself : ∀ r : Pool α, r.unnoted.older r.journal = r := fun _ => rfl
    rw [hself q, ← hpq, hself p] at hpools
    rw [hp]
    exact .some hpools

theorem length_joiners (h : S.Traceless R) :
    R.system.joiners.length = S.system.joiners.length + (S.gapTo R).extra := by
  obtain ⟨joiners, hjoiners, -⟩ := h.joins
  show _ = _ + (R.system.joiners.length - S.system.joiners.length)
  rw [hjoiners, List.length_append, Nat.add_sub_cancel_left]

theorem joins_beside (h : S.Traceless R) (n : Nat) :
    Option.Rel (S.gapTo R).Joins R.system.joiners[(S.gapTo R).place n]? S.system.joiners[n]? := by
  obtain ⟨joiners, hjoiners, -⟩ := h.joins
  rcases Nat.lt_or_ge n S.system.joiners.length with hn | hn
  · rw [place_gapTo hn, hjoiners, List.getElem?_append_left hn, List.getElem?_eq_getElem hn]
    refine .some ⟨rfl, rfl, rfl, fun hp => ?_⟩
    rcases h.unhurried with hclock | hunhurried
    · have hlead : (S.gapTo R).lead = 0 := by simp [gapTo, hclock]
      simp [hlead]
    · rw [hunhurried _ (List.getElem_mem hn) hp]
      rfl
  · have hplace : (S.gapTo R).place n = n + (S.gapTo R).extra := if_neg (Nat.not_lt.mpr hn)
    rw [List.getElem?_eq_none hn, List.getElem?_eq_none (by rw [hplace, h.length_joiners]; omega)]
    exact .none

theorem apart (h : S.Traceless R) : (S.gapTo R).Apart R.system S.system where
  pools := h.pools
  fresh := by
    intro i hi
    have hlength : R.system.pools.length = S.system.pools.length := by
      have hmap := congrArg List.length h.unmoved.pools
      rwa [List.length_map, List.length_map] at hmap
    have hR := List.getElem?_eq_none hi
    have hS := List.getElem?_eq_none (hlength ▸ hi)
    refine ⟨?_, fun name => by simp [gapTo]⟩
    simp only [gapTo, poolJournal, hR, hS]
  tasks := h.unmoved.tasks
  joins := h.joins_beside
  before_le := Nat.le_refl _
  length_joiners := h.length_joiners
  answered := by
    intro n j hn _ hj
    obtain ⟨joiners, hjoiners, hanswered⟩ := h.joins
    rw [hjoiners, List.getElem?_append_right hn] at hj
    exact hanswered j (List.mem_of_getElem? hj)
  events := h.unmoved.events
  journal := ⟨[], rfl, rfl⟩
  clock := (Nat.add_sub_cancel' h.clock_le).symm
  refusal := h.unmoved.refusal
  processors := h.unmoved.processors

theorem sessions (h : S.Traceless R) (hS : S.Settled) : (S.gapTo R).Sessions R S where
  system := h.apart
  pending := by
    rw [h.pending]
    refine ((List.map_congr_left fun e he => ?_).trans (List.map_id _)).symm
    exact congrArg (fun joiner => { e with joiner }) (place_gapTo (hS.attended.listed e he))
  unsized := h.unsized
  passing := h.passing

end Traceless

/-- What a command leaves that fails, if it met no panic and nobody minds the time. -/
theorem Failed.traceless (h : S.Failed c e R) (hpanic : e ≠ .taskPanicked)
    (hcollect : ∀ name, c ≠ .collect name)
    (htime : e = .timeout →
      (∃ task name, c = .joinWithin task (.ms 0) name) ∨ S.system.Unhurried) :
    S.Traceless R := by
  cases h with
  | noted h =>
    exact ⟨h.toUnmoved, ⟨[], by simp [h.joiners], by simp⟩, Nat.le_of_eq h.clock.symm,
      Or.inl h.clock, rfl, rfl, rfl⟩
  | expired he hc hn =>
    rcases htime he with ⟨task, name, hzero⟩ | hunhurried
    · rw [hc] at hzero
      injection hzero with _ hms _
      injection hms with hms
      exact absurd hms hn
    · refine ⟨⟨rfl, rfl, rfl, rfl, rfl⟩, ⟨_, congrArg (· ++ _) (hunhurried.expire _), ?_⟩,
        Nat.le_add_right _ _, Or.inr hunhurried, rfl, rfl, rfl⟩
      intro j hj
      obtain rfl := List.mem_singleton.mp hj
      simp [Joiner.answer?]
  | panicked he _ _ _ => exact absurd he hpanic
  | collected hc _ _ => exact absurd hc (hcollect _)

/-- The pools and tasks after a failure. -/
theorem Failed.unmoved (h : S.Failed c e R) :
    S.system.Unmoved R.system ∨
      e = .taskPanicked ∧ ∃ id a x, c.joins? = some id ∧ S.system.findTask? id = some a ∧
        (S.system.submissions a).head? = some x ∧
        (S.system.modifyPool x.pool (·.join x.ticket)).Unmoved R.system := by
  cases h with
  | noted h => exact Or.inl h.toUnmoved
  | expired _ _ _ => exact Or.inl ⟨rfl, rfl, rfl, rfl, rfl⟩
  | panicked he hc ha hx => exact Or.inr ⟨he, _, _, _, hc, ha, hx, rfl, rfl, rfl, rfl, rfl⟩
  | collected _ h _ => exact Or.inl h

/-! ## 2. A script without the command that fails -/

/-- **Failed operations leave no trace.**  A command that fails leaves all pools and tasks as they
were, except that a join that meets a panic marks the one record that it joins.  Taken out of the
script, the command changes nothing of what is reported after it, if no join ran out of its time
while another one had a deadline, and if the threads go on in the same order.  A submission that is
refused inside a body leaves nothing but a note. -/
theorem failures_leave_no_trace {schedule : Schedule α} (hdiligent : Schedule.Diligent schedule)
    (processors : Nat) (before : List (Command α)) (c : Command α) (e : Failure)
    (he : (Session.step schedule ((start processors).after schedule before) c).1.failure? =
      some e) :
    let S := (start processors).after schedule before
    let R := (Session.step schedule S c).2
    (S.system.Unmoved R.system ∨
      e = .taskPanicked ∧ ∃ id a x, c.joins? = some id ∧ S.system.findTask? id = some a ∧
        (S.system.submissions a).head? = some x ∧
        (S.system.modifyPool x.pool (·.join x.ticket)).Unmoved R.system) ∧
    (e ≠ .taskPanicked → (∀ name, c ≠ .collect name) →
      (e = .timeout → (∃ task name, c = .joinWithin task (.ms 0) name) ∨ S.system.Unhurried) →
      (S.gapTo R).Overlooks schedule →
      ∀ (after : List (Command α)) (quiet log : Bool),
        (Script.runBy processors schedule ⟨before ++ c :: after, quiet, log⟩).drop
            (before.length + 1) =
          (Script.runBy processors schedule ⟨before ++ after, quiet, log⟩).drop before.length) ∧
    ∀ (s : System α) (p : Pool α) (w : Nat) (t : Task α) (run : Nat) (e' : Failure),
      (s.evaluate p w t run).1 = .submitted (.failed e') → s.Noted (s.evaluate p w t run).2 := by
  intro S R
  have hS : S.Settled := (Settled.start processors).after hdiligent before
  have hfailed : S.Failed c e R := hS.failed_step hdiligent he
  refine ⟨hfailed.unmoved, fun hpanic hcollect htime hblind after quiet log => ?_,
    fun s p w t run e' he' => System.noted_evaluate he'⟩
  have hsessions := (hfailed.traceless hpanic hcollect htime).sessions hS
  have hR : R.Settled := hS.step hdiligent c
  have hallows : ∀ c' ∈ after, (S.gapTo R).Allows c' :=
    fun _ _ _ _ i name hn => absurd hn (by simp [gapTo])
  have hfull : (S.gapTo R).IsFull := rfl
  have hsame := hsessions.reports_eq hdiligent hblind hR hS hallows (hfull.unseen _ _) quiet log
  have hshows : (S.gapTo R).shows = fun r : Report α => r := rfl
  rw [hshows, List.map_id', List.map_id'] at hsame
  calc (Script.runBy processors schedule ⟨before ++ c :: after, quiet, log⟩).drop
          (before.length + 1)
      = R.reports schedule quiet log after :=
        reports_drop_succ schedule quiet log (start processors) before c after
    _ = S.reports schedule quiet log after := hsame
    _ = (Script.runBy processors schedule ⟨before ++ after, quiet, log⟩).drop before.length :=
        (reports_drop schedule quiet log (start processors) before after).symm

/-- A pool for one worker and one record, and a task whose body waits at a gate, submitted to it. -/
def crowded : List (Command Nat) :=
  [.buildPool "pool" { threads := some 1, limit := some 1 },
    .createTask "task" ⟨.const 7, .always, .never, 0⟩, .submit "pool" "task"]

/-- A second submission finds the queue full. -/
theorem crowded_forgets_refusal :
    let S := (start 1).after System.inTurns crowded
    (Session.step System.inTurns S (.submit "pool" "task")).1.failure? = some .tooManyTasks ∧
      S.system.Unmoved (Session.step System.inTurns S (.submit "pool" "task")).2.system ∧
      (Script.runBy 1 System.inTurns
          ⟨crowded ++ [.submit "pool" "task", .openGate "task" none, .join "task" "join"],
            false, false⟩).drop 4 =
        (Script.runBy 1 System.inTurns
          ⟨crowded ++ [.openGate "task" none, .join "task" "join"], false, false⟩).drop 3 := by
  intro S
  have hfull : (Session.step System.inTurns S (.submit "pool" "task")).1.failure? =
      some .tooManyTasks := by decide
  obtain ⟨hstate, hreports, -⟩ := failures_leave_no_trace System.inTurns_diligent 1 crowded
    (.submit "pool" "task") _ hfull
  refine ⟨hfull, hstate.resolve_right fun h => absurd h.1 (by decide), ?_⟩
  exact hreports (by decide) (fun _ => nofun) (fun h => absurd h (by decide))
    (Gap.overlooks_inTurns _) _ false false

/-- Two joins of 100 milliseconds take up the time of a third, of 150: with both of them it runs
out, and with one of them it does not. -/
theorem short_join_takes_time :
    let before := crowded ++ [.joinWithin "task" (.ms 150) (some "long"),
      .joinWithin "task" (.ms 100) none]
    let c := Command.joinWithin "task" (.ms 100) none
    let after := [.openGate "task" none, .collect "long"]
    (Session.step System.inTurns ((start 1).after System.inTurns before) c).1.failure? =
        some .timeout ∧
      ((Script.runBy 1 System.inTurns ⟨before ++ c :: after, false, false⟩).drop 6).map
          (·.answer.failure?) = [none, some .timeout] ∧
      ((Script.runBy 1 System.inTurns ⟨before ++ after, false, false⟩).drop 5).map
          (·.answer.failure?) = [none, none] := by
  decide

end Session
end WorkerPool
