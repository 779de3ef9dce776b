/-
# The operations of a system are runs

A `System` releases a task, detaches it or begins a join of it in one go.  A program does the same
section by section, and other threads may come in between.  When none does, the sections of one
thread make together what the operation does (`Makes`), and a system that settles is a program in
which only workers, joins and shutdowns move.  So what is known of every program that is reached is
known of every system that is used by its operations, one after the other.
-/
import WorkerPool.Proofs.Program

namespace WorkerPool
namespace Program

variable {α : Type} {p : Program α}

/-- Some run from `p` makes the system `s`, with nothing still to be given back. -/
def Makes (p : Program α) (s : System α) : Prop :=
  ∃ q, Leads p q ∧ q.system = s ∧ q.leaving = []

/-- One thing after the other. -/
theorem Makes.trans {s s' : System α} (h : p.Makes s)
    (h' : ∀ q : Program α, q.system = s → q.leaving = [] → q.Makes s') : p.Makes s' := by
  obtain ⟨q, hq, hs, hnone⟩ := h
  obtain ⟨r, hr, hs', hnone'⟩ := h' q hs hnone
  exact ⟨r, hq.trans hr, hs', hnone'⟩

theorem makes_move (hnone : p.leaving = []) (m : Move) : p.Makes (p.system.perform m) :=
  ⟨p.act (.move m), .step (.move m) .refl trivial, rfl, hnone⟩

/-! ## 1. Settling -/

/-- A system settles by moves. -/
theorem makes_settleWithin (schedule : Schedule α) (fuel : Nat) (hnone : p.leaving = []) :
    p.Makes (p.system.settleWithin schedule fuel) := by
  induction fuel generalizing p with
  | zero => exact ⟨p, .refl, rfl, hnone⟩
  | succ fuel ih =>
    unfold System.settleWithin
    split
    · exact ⟨p, .refl, rfl, hnone⟩
    · next m _ =>
      refine (makes_move hnone m).trans fun q hs hq => ?_
      rw [← hs]
      exact ih hq

/-! ## 2. Joins -/

/-- A join is called and then begins to wait. -/
theorem makes_joinFor (a : Nat) (limit : Option Patience) (hnone : p.leaving = []) :
    p.Makes (p.system.joinFor a limit).2 := by
  have hcall : p.Makes (p.system.call a limit).2 :=
    ⟨p.act (.join a limit), .step (.join a limit) .refl trivial, rfl, hnone⟩
  unfold System.joinFor
  split
  · next e s hs => rwa [hs] at hcall
  · next n s hs =>
    rw [hs] at hcall
    refine hcall.trans fun q hq hqnone => ?_
    -- the join that was called is the last of the list, and has not begun to wait
    have hcalled : s.joinState? n = some .called := by
      unfold System.call at hs
      split at hs
      · exact absurd (congrArg Prod.fst hs) (by simp)
      · split at hs
        · exact absurd (congrArg Prod.fst hs) (by simp)
        · obtain ⟨hn, rfl⟩ := Prod.mk.inj hs
          obtain rfl := Except.ok.inj hn
          simp [System.joinState?]
    have hperform : q.system.perform (.joiner n) = s.startWait n := by
      simp only [System.perform, hq, hcalled]
    rw [← hperform]
    exact makes_move hqnone (.joiner n)

/-! ## 3. The end of a task -/

/-- The records of a task that goes are given back, one after the other. -/
theorem makes_giveBacks (a : Nat) (fate : Fate) (xs : List Submission)
    (hleaving : p.leaving = xs.map fun x => ⟨a, x, fate⟩) :
    p.Makes (xs.foldl (fun s x =>
      s.modifyPool x.pool (Leaving.giveBack ⟨a, x, fate⟩)) p.system) := by
  induction xs generalizing p with
  | nil => exact ⟨p, .refl, rfl, hleaving⟩
  | cons x xs ih =>
    have hmem : ⟨a, x, fate⟩ ∈ p.leaving := by simp [hleaving]
    have hact : p.act (.giveBack ⟨a, x, fate⟩) =
        { p with
          system := p.system.modifyPool x.pool (Leaving.giveBack ⟨a, x, fate⟩)
          leaving := p.leaving.erase ⟨a, x, fate⟩ } := if_pos hmem
    obtain ⟨q, hq, hs, hnone⟩ := ih (p := p.act (.giveBack ⟨a, x, fate⟩))
      (by rw [hact]; simp [hleaving])
    rw [hact] at hs
    exact ⟨q, (Leads.refl.step (.giveBack ⟨a, x, fate⟩) trivial).trans hq, hs, hnone⟩

/-- Pools and tasks change independently of each other. -/
theorem foldl_modifyPool_modifyTask (f : Submission → Pool α → Pool α) (a : Nat)
    (g : Task α → Task α) (xs : List Submission) (s : System α) :
    xs.foldl (fun s x => s.modifyPool x.pool (f x)) (s.modifyTask a g) =
      (xs.foldl (fun s x => s.modifyPool x.pool (f x)) s).modifyTask a g := by
  induction xs generalizing s with
  | nil => rfl
  | cons x xs ih => exact ih (s.modifyPool x.pool (f x))

/-- A task is taken out of use, and its records are given back. -/
theorem makes_retire (a : Nat) (fate : Fate) (hnone : p.leaving = []) :
    (p.retire a fate).Makes
      (((p.system.submissions a).reverse.foldl (fun s x =>
        s.modifyPool x.pool (Leaving.giveBack ⟨a, x, fate⟩)) p.system).modifyTask a
          fun t => t.retire fate) := by
  rw [← foldl_modifyPool_modifyTask]
  refine makes_giveBacks (p := p.retire a fate) a fate _ ?_
  simp [retire, hnone]

/-- **A release is a run**: of a task without a join in progress, when nothing else is on its
way back. -/
theorem makes_release {a : Nat} (hfree : p.IsFree a) (hnone : p.leaving = []) :
    p.Makes (p.system.release a).2 := by
  have hstep : Leads p (p.act (.release a)) := .step (.release a) .refl hfree
  cases hcan : p.system.canRelease a with
  | false =>
    refine ⟨_, hstep, ?_, ?_⟩
    · simp [act, System.release, hcan, onSystem]
    · simp [act, hcan, onSystem, hnone]
  | true =>
    have hact : p.act (.release a) = p.retire a .released := if_pos hcan
    rw [hact] at hstep
    obtain ⟨q, hq, hs, hq'⟩ := makes_retire a .released hnone
    refine ⟨q, hstep.trans hq, hs.trans ?_, hq'⟩
    simp only [System.release, hcan, if_true]
    rfl

/-- **Detaching is a run**, under the same conditions. -/
theorem makes_detach {a : Nat} (hfree : p.IsFree a) (hnone : p.leaving = []) :
    p.Makes (p.system.detach a) := by
  have hstep : Leads p (p.act (.detach a)) := .step (.detach a) .refl hfree
  by_cases hempty : (p.system.submissions a).isEmpty = true
  · have hact : p.act (.detach a) = p.retire a .detached := by simp [act, hempty]
    rw [hact] at hstep
    obtain ⟨q, hq, hs, hq'⟩ := makes_retire a .detached hnone
    refine ⟨q, hstep.trans hq, hs.trans ?_, hq'⟩
    simp only [System.detach, hempty, if_true]
    rfl
  · have hact : p.act (.detach a) =
        (p.onSystem (·.note (.detaching (p.system.submissions a).length))).retire a .detached := by
      simp [act, hempty]
    rw [hact] at hstep
    obtain ⟨q, hq, hs, hq'⟩ := makes_retire
      (p := p.onSystem (·.note (.detaching (p.system.submissions a).length))) a .detached hnone
    refine ⟨q, hstep.trans hq, hs.trans ?_, hq'⟩
    simp only [System.detach, hempty]
    rfl

end Program
end WorkerPool
