/-
# The runs that have ended

A run of a task has ended when it has begun and no worker is in its body any more
(`System.HasEnded`).  That can be seen from a system alone, and still a run that has ended has ended
for good, whatever happens next, because history tells of its end (`Reachable.hasEnded_iff`).  By
that, too, only the move of a worker that ends the body ends a run (`Reachable.hasEnded_act`).
-/
import WorkerPool.Proofs.ExactlyOnce
import WorkerPool.Proofs.Occurs

namespace WorkerPool

/-- Run number `run` of a task has ended: it has begun, and nobody is in its body. -/
structure System.HasEnded {α : Type} (s : System α) (a run : Nat) : Prop where
  begun : ∃ t, s.tasks[a]? = some t ∧ 1 ≤ run ∧ run ≤ t.runs
  left : ∀ i w k job stage, s.phase? i w = some (.executing k job stage) → job.task = a →
    stage ≠ .atGate run ∧ stage ≠ .past run

namespace Program

variable {α : Type} {p q : Program α} {a run : Nat}

/-- A body that a worker has begun and not ended is in history. -/
theorem Reachable.begun_of_executing (h : p.Reachable) {i w : Nat} {k : Ticket} {job : Job}
    {stage : Stage} (hw : p.system.phase? i w = some (.executing k job stage))
    (hstage : stage = .atGate run ∨ stage = .past run) :
    .begun ⟨i, k⟩ job.task run ∈ p.history ∧ ∀ e, .ended ⟨i, k⟩ e ∉ p.history := by
  obtain ⟨-, life, hlife, hat⟩ := h.chronicled.executed h.owned (executes h.poolsSound hw)
  have hstory : p.story ⟨i, k⟩ = life.story ⟨i, k⟩ job.task := hlife.story
  cases life with
  | begun v run' =>
    obtain ⟨rfl, hat⟩ := hat
    obtain rfl : run' = run := by
      rcases hstage with rfl | rfl <;> rcases hat with hat | hat <;> simpa using hat.symm
    have hbegun : .begun ⟨i, k⟩ job.task run' ∈ p.story ⟨i, k⟩ := by
      rw [hstory]
      exact List.mem_cons_self
    refine ⟨(mem_story.mp hbegun).1, fun e he => ?_⟩
    have hmem : .ended ⟨i, k⟩ e ∈ p.story ⟨i, k⟩ := mem_story.mpr ⟨he, rfl⟩
    rw [hstory] at hmem
    simp [Life.story] at hmem
  | _ => rcases hstage with rfl | rfl <;> simp [Life.IsAt] at hat

theorem Reachable.runs_of_begun (h : p.Reachable) {x : Submission}
    (hx : .begun x a run ∈ p.history) :
    ∃ t, p.system.tasks[a]? = some t ∧ 1 ≤ run ∧ run ≤ t.runs := by
  have hmem := h.chronicled.mem_of_begun hx
  cases ht : p.system.tasks[a]? with
  | none => simp [Ledger.submissions, ledger, ht] at hmem
  | some t =>
    have hrun : run ∈ p.runsOf a :=
      List.mem_filterMap.mpr ⟨_, hx, Happening.runOf?_eq_some.mpr ⟨x, rfl⟩⟩
    rw [h.runs ht, List.mem_reverse, List.mem_range'_1] at hrun
    exact ⟨t, rfl, by omega, by omega⟩

/-- History tells of the runs that have ended. -/
theorem Reachable.hasEnded_iff (h : p.Reachable) :
    p.system.HasEnded a run ↔ ∃ x e, .begun x a run ∈ p.history ∧ .ended x e ∈ p.history := by
  constructor
  · rintro ⟨⟨t, ht, hpos, hle⟩, hleft⟩
    obtain ⟨x, hx, -⟩ := h.run_unique ht hpos hle
    obtain ⟨life, hlife⟩ := h.chronicled.lives a x (h.chronicled.mem_of_begun hx)
    have hstory : p.story x = life.story x a := hlife.story
    have hmem : .begun x a run ∈ life.story x a := hstory ▸ mem_story.mpr ⟨hx, rfl⟩
    have hended : ∀ e, .ended x e ∈ life.story x a →
        ∃ x e, .begun x a run ∈ p.history ∧ .ended x e ∈ p.history :=
      fun e he => ⟨x, e, hx, (mem_story.mp (hstory ▸ he)).1⟩
    cases life with
    | waiting => simp [Life.story] at hmem
    | claimed w => simp [Life.story] at hmem
    | begun w run' =>
      -- then a worker would still be in the body
      obtain rfl : run = run' := by simpa [Life.story] using hmem
      obtain ⟨v, stage, ⟨rfl, hstage⟩, hrunning⟩ := hlife.body rfl
      obtain ⟨hgate, hpast⟩ := hleft _ _ _ _ _ (running_eq_some.mp hrunning) rfl
      exact (hstage.elim hgate hpast).elim
    | ended w run' e => exact hended e (by simp [Life.story])
    | finished w run' e => exact hended e (by simp [Life.story])
  · rintro ⟨x, e, hx, he⟩
    obtain ⟨t, ht, hpos, hle⟩ := h.runs_of_begun hx
    refine ⟨⟨t, ht, hpos, hle⟩, fun i w k job stage hw hjob => ?_⟩
    have hnot : ¬(stage = .atGate run ∨ stage = .past run) := by
      intro hstage
      obtain ⟨hbegun, hopen⟩ := h.begun_of_executing hw hstage
      obtain rfl : x = ⟨i, k⟩ := (h.run_unique ht hpos hle).unique hx (hjob ▸ hbegun)
      exact hopen e he
    exact ⟨fun hs => hnot (Or.inl hs), fun hs => hnot (Or.inr hs)⟩

theorem Leads.hasEnded (h : p.Reachable) (hq : Leads p q) (hended : p.system.HasEnded a run) :
    q.system.HasEnded a run := by
  obtain ⟨x, e, hx, he⟩ := h.hasEnded_iff.mp hended
  exact (h.leads hq).hasEnded_iff.mpr
    ⟨x, e, hq.history_suffix.mem hx, hq.history_suffix.mem he⟩

/-- The move that ends a body ends its run. -/
theorem Reachable.hasEnded_move (h : p.Reachable) {i w : Nat} {k : Ticket} {job : Job}
    (hw : p.system.phase? i w = some (.executing k job (.past run))) :
    ¬p.system.HasEnded job.task run ∧
      (p.system.perform (.worker i w)).HasEnded job.task run := by
  refine ⟨fun hended => (hended.left i w k job _ hw rfl).2 rfl, ?_⟩
  obtain ⟨hbegun, -⟩ := h.begun_of_executing hw (Or.inr rfl)
  obtain ⟨pool, hi, -⟩ := System.phase?_eq_some.mp hw
  obtain ⟨t, ht⟩ := h.task_of_executing hw
  have hreach := h.move (.worker i w)
  refine hreach.hasEnded_iff.mpr ⟨⟨i, k⟩, p.system.ending pool w t run, ?_, ?_⟩
  · exact (p.history_suffix_act _).mem hbegun
  · show _ ∈ p.system.happenings (.worker i w) ++ p.history
    simp [System.happenings, hw, hi, ht]

/-- No other action ends a run. -/
theorem Reachable.hasEnded_act (h : p.Reachable) (act : Action α) (hact : p.Permits act)
    (hended : (p.act act).system.HasEnded a run) :
    p.system.HasEnded a run ∨ ∃ i w k job, act = .move (.worker i w) ∧
      p.system.phase? i w = some (.executing k job (.past run)) ∧ job.task = a := by
  have hreach : (p.act act).Reachable := h.leads (.step act .refl hact)
  obtain ⟨x, e, hx, he⟩ := hreach.hasEnded_iff.mp hended
  rcases p.history_act act with hsame | ⟨m, rfl, hhistory⟩
  · rw [hsame] at hx he
    exact Or.inl (h.hasEnded_iff.mpr ⟨x, e, hx, he⟩)
  -- a submission begins once
  have honce {b n : Nat} (hy : .begun x b n ∈ p.history) : b = a ∧ n = run := by
    obtain ⟨life, hlife⟩ := hreach.chronicled.lives a x (hreach.chronicled.mem_of_begun hx)
    have hstory : (p.act (.move m)).story x = life.story x a := hlife.story
    have hmem : .begun x a run ∈ life.story x a := hstory ▸ mem_story.mpr ⟨hx, rfl⟩
    have hmem' : .begun x b n ∈ life.story x a := by
      rw [← hstory]
      exact mem_story.mpr ⟨hhistory ▸ List.mem_append_right _ hy, rfl⟩
    cases life <;> simp_all [Life.story]
  rw [hhistory, List.mem_append] at hx he
  rcases he with he | he
  · cases m with
    | joiner n => cases he
    | shutdown i => cases he
    | worker i w =>
      rcases hw : p.system.phase? i w with _ | _ | ⟨_ | _⟩ | ⟨k, job, _ | n | n | _⟩ | _
      case some.executing.past =>
        obtain ⟨hbegun, -⟩ := h.begun_of_executing hw (Or.inr rfl)
        obtain ⟨pool, hi, -⟩ := System.phase?_eq_some.mp hw
        obtain ⟨t, ht⟩ := h.task_of_executing hw
        simp only [System.happenings, hw, hi, ht, List.mem_singleton] at he
        obtain ⟨rfl, -⟩ := Happening.ended.inj he
        obtain ⟨rfl, rfl⟩ := honce hbegun
        exact Or.inr ⟨i, w, k, job, rfl, hw, rfl⟩
      all_goals
        simp only [System.happenings, hw, System.claimBy] at he
        repeat' split at he
        all_goals simp at he
  · refine Or.inl (h.hasEnded_iff.mpr ⟨x, e, hx.resolve_left fun hnew => ?_, he⟩)
    -- a submission that begins now has not ended before
    cases m with
    | joiner n => cases hnew
    | shutdown i => cases hnew
    | worker i w =>
      rcases hw : p.system.phase? i w with _ | _ | ⟨_ | _⟩ | ⟨k, job, _ | n | n | _⟩ | _
      case some.executing.entering =>
        obtain ⟨-, life, hlife, hat⟩ := h.chronicled.executed h.owned (executes h.poolsSound hw)
        simp only [System.happenings, hw] at hnew
        split at hnew
        · obtain ⟨rfl, -, -⟩ := Happening.begun.inj (List.mem_singleton.mp hnew)
          have hstory : p.story ⟨i, k⟩ = life.story ⟨i, k⟩ job.task := hlife.story
          have hmem : .ended ⟨i, k⟩ e ∈ life.story ⟨i, k⟩ job.task :=
            hstory ▸ mem_story.mpr ⟨he, rfl⟩
          cases life <;> simp_all [Life.story, Life.IsAt]
        · cases hnew
      all_goals
        simp only [System.happenings, hw, System.claimBy] at hnew
        repeat' split at hnew
        all_goals simp at hnew

end Program

namespace System

variable {α : Type} {s s' s'' : System α} {a run : Nat}

/-- A run that has ended has ended for good. -/
theorem Brings.hasEnded (h : s.Brings s') (hs : s.Occurs) (hended : s.HasEnded a run) :
    s'.HasEnded a run := by
  obtain ⟨p, hp, hnone, rfl⟩ := hs
  obtain ⟨q, hq, rfl, -⟩ := h p rfl hnone
  exact hq.hasEnded hp hended

/-- Only the move that ends a body ends its run. -/
theorem Occurs.hasEnded_perform (hs : s.Occurs) {m : Move}
    (hended : (s.perform m).HasEnded a run) :
    s.HasEnded a run ∨ ∃ i w k job, m = .worker i w ∧
      s.phase? i w = some (.executing k job (.past run)) ∧ job.task = a := by
  obtain ⟨p, hp, -, rfl⟩ := hs
  refine (hp.hasEnded_act (.move m) trivial hended).imp id ?_
  rintro ⟨i, w, k, job, he, hw⟩
  exact ⟨i, w, k, job, Action.move.inj he, hw⟩

/-- What a caller does ends no run. -/
theorem Occurs.hasEnded_act (hs : s.Occurs) (act : Action α) (f : System α → System α)
    (hact : ∀ p : Program α, p.act act = p.onSystem f) (hpermits : ∀ p : Program α, p.Permits act)
    (hmove : ∀ m, act ≠ .move m) (hended : (f s).HasEnded a run) : s.HasEnded a run := by
  obtain ⟨p, hp, -, rfl⟩ := hs
  have hsystem : (p.act act).system = f p.system := by rw [hact]; rfl
  rcases hp.hasEnded_act act (hpermits p) (hsystem ▸ hended) with h | ⟨i, w, k, job, he, -⟩
  · exact h
  · exact absurd he (hmove _)

/-- What has ended shows in the runs of the tasks and in the workers. -/
theorem HasEnded.congr (hended : s'.HasEnded a run)
    (hruns : s'.tasks.map (·.runs) = s.tasks.map (·.runs))
    (hworkers : s'.pools.map (·.workers) = s.pools.map (·.workers)) : s.HasEnded a run := by
  obtain ⟨⟨t', ht', hpos, hle⟩, hleft⟩ := hended
  constructor
  · have hsame : s'.tasks[a]?.map (·.runs) = s.tasks[a]?.map (·.runs) := by
      rw [← List.getElem?_map, ← List.getElem?_map, hruns]
    rw [ht'] at hsame
    obtain ⟨t, ht, he⟩ := Option.map_eq_some_iff.mp hsame.symm
    exact ⟨t, ht, hpos, he ▸ hle⟩
  · intro i w k job stage hw
    refine hleft i w k job stage ?_
    have hread (s : System α) : s.phase? i w = (s.pools.map (·.workers))[i]?.bind (·[w]?) := by
      rw [List.getElem?_map]
      unfold phase?
      cases s.pools[i]? <;> rfl
    rw [hread, hworkers, ← hread]
    exact hw

end System
end WorkerPool
