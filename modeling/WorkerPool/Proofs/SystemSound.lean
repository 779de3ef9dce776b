/-
# The pools of a program stay sound

Bodies submit, joins mark records and callers come and go, and every one of them only ever changes a
pool through its sections (`System.Evolves`).  So each action takes a program with sound pools to
one with sound pools, every program that is reached has no others (`Reachable.poolsSound`), and
what is known of a new pool and kept by every section is known of each pool of such a program
(`Reachable.pool_induct`).
-/
import WorkerPool.Proofs.Sections
import WorkerPool.Proofs.Frames

namespace WorkerPool

namespace System

variable {α : Type} {s : System α}

/-! ## 1. Pools go from section to section -/

/-- Every pool of `s` is still in its place in `s'`, some sections later; any other is new. -/
def Evolves (s s' : System α) : Prop := ∀ i : Nat, Pool.Grown s.pools[i]? s'.pools[i]?

theorem Evolves.trans {s' s'' : System α} (h : s.Evolves s') (h' : s'.Evolves s'') :
    s.Evolves s'' := fun i => (h i).trans (h' i)

/-- What is not in the pools does not matter. -/
theorem Evolves.congr {s' s'' : System α} (h : s.Evolves s') (hp : s''.pools = s'.pools) :
    s.Evolves s'' := fun i => hp ▸ h i

theorem Evolves.of_pools_eq {s' : System α} (hp : s'.pools = s.pools) : s.Evolves s' :=
  fun i => hp ▸ .refl s.pools[i]?

theorem evolves_modifyPool {i : Nat} {f : Pool α → Pool α}
    (hf : ∀ pool, s.pools[i]? = some pool → Pool.Sections pool (f pool)) :
    s.Evolves (s.modifyPool i f) := by
  intro j
  rw [pools_modifyPool]
  split
  · next he =>
    subst he
    cases hj : s.pools[j]? with
    | none => exact .none
    | some pool => exact .old (hf pool hj)
  · exact .refl _

theorem evolves_addPool (s : System α) (id : String) (plan : Plan) :
    s.Evolves (s.addPool id plan) := by
  intro i
  show Pool.Grown s.pools[i]? (s.pools ++ [Pool.create id plan])[i]?
  rcases Nat.lt_or_ge i s.pools.length with hi | hi
  · rw [List.getElem?_append_left hi]
    exact .refl _
  · rw [List.getElem?_append_right hi, List.getElem?_eq_none hi]
    cases i - s.pools.length with
    | zero => exact .new .refl
    | succ n => exact .none

theorem evolves_submit (s : System α) (i a : Nat) : s.Evolves (s.submit i a).2 := by
  rcases s.submit_cases i a with ⟨-, he⟩ | ⟨pool, t, hi, -, -, hcase⟩
  · rw [he]
    exact .of_pools_eq rfl
  cases hactive : pool.isActive with
  | false =>
    rw [submit_of_inactive hi hactive]
    exact .of_pools_eq rfl
  | true =>
    have hs : s.Evolves (s.modifyPool i fun _ => (pool.submit s.refusal ⟨a⟩).2) := by
      refine evolves_modifyPool fun pool' hi' => ?_
      obtain rfl : pool' = pool := Option.some.inj (hi'.symm.trans hi)
      exact .single (.submit hactive _ _)
    rcases hcase with ⟨e, -, -, he⟩ | ⟨ticket, -, -, he⟩
    · rwa [he]
    · rw [he]
      exact hs.congr rfl

theorem evolves_shutdown (s : System α) (i : Nat) : s.Evolves (s.shutdown i).2 := by
  unfold System.shutdown
  cases hi : s.pools[i]? with
  | none => exact .of_pools_eq rfl
  | some pool =>
    dsimp only
    split
    · next hactive =>
      refine evolves_modifyPool fun pool' hi' => ?_
      obtain rfl : pool' = pool := Option.some.inj (hi'.symm.trans hi)
      exact .single (.shutdown hactive)
    · exact .of_pools_eq rfl

theorem openGate_pools (s : System α) (task run i : Nat) :
    (s.openGate task run).pools[i]? =
      s.pools[i]?.map fun p => { p with workers := p.workers.map (Phase.opened task run) } := by
  unfold openGate
  rw [List.getElem?_map]
  refine Option.map_congr fun p _ => congrArg (fun ws => { p with workers := ws }) ?_
  refine List.map_congr_left fun phase _ => ?_
  rcases phase with _ | _ | ⟨k, job, _ | r | r | _⟩ | _ <;> try rfl
  dsimp only [Phase.opened, Stage.opened]
  split <;> rfl

theorem evolves_openGate (s : System α) (task run : Nat) : s.Evolves (s.openGate task run) := by
  intro i
  rw [openGate_pools]
  cases s.pools[i]? with
  | none => exact .none
  | some pool => exact .old (.single (.openGate pool task run))

/-! ## 2. Bodies and joins -/

theorem evolves_evaluate (s : System α) (p : Pool α) (w : Nat) (t : Task α) (run : Nat) :
    s.Evolves (s.evaluate p w t run).2 := by
  rcases s.evaluate_cases p w t run with he | ⟨i, a, he⟩
  · rw [he]
    exact .of_pools_eq rfl
  · rw [he]
    exact s.evolves_submit i a

/-- A submission interrupts no body. -/
theorem executing_submit {i w : Nat} {k : Ticket} {job : Job} {stage : Stage}
    (h : s.phase? i w = some (.executing k job stage)) (i' a : Nat) :
    (s.submit i' a).2.phase? i w = some (.executing k job stage) := by
  obtain ⟨pool, hi, hw⟩ := phase?_eq_some.mp h
  rcases s.submit_cases i' a with ⟨-, he⟩ | ⟨pool', t, hi', -, -, hcase⟩
  · rwa [he]
  · have hs : (s.modifyPool i' fun _ => (pool'.submit s.refusal ⟨a⟩).2).phase? i w =
        some (.executing k job stage) := by
      by_cases he : i = i'
      · subst he
        obtain rfl : pool' = pool := Option.some.inj (hi'.symm.trans hi)
        refine phase?_eq_some.mpr ⟨_, ?_, Pool.executing_submit hw s.refusal ⟨a⟩⟩
        simp [pools_modifyPool, hi]
      · refine phase?_eq_some.mpr ⟨pool, ?_, hw⟩
        simp [pools_modifyPool, he, hi]
    rcases hcase with ⟨e, -, -, he⟩ | ⟨ticket, -, -, he⟩
    · rwa [he]
    · rw [he]
      exact hs

theorem executing_evaluate {i w : Nat} {k : Ticket} {job : Job} {stage : Stage}
    (h : s.phase? i w = some (.executing k job stage)) (p : Pool α) (w' : Nat) (t : Task α)
    (run : Nat) : (s.evaluate p w' t run).2.phase? i w = some (.executing k job stage) := by
  rcases s.evaluate_cases p w' t run with he | ⟨i', a, he⟩
  · rwa [he]
  · rw [he]
    exact executing_submit h i' a

/-- The worker of a pool in a known phase makes a section. -/
theorem evolves_worker {i w : Nat} {phase : Phase} (hw : s.phase? i w = some phase)
    {f : Pool α → Pool α}
    (hf : ∀ pool : Pool α, pool.workers[w]? = some phase → Pool.Section pool (f pool)) :
    s.Evolves (s.modifyPool i f) := by
  obtain ⟨pool, hi, hw⟩ := phase?_eq_some.mp hw
  refine evolves_modifyPool fun pool' hi' => ?_
  obtain rfl : pool' = pool := Option.some.inj (hi'.symm.trans hi)
  exact .single (hf pool' hw)

theorem evolves_enterBody {i w : Nat} {k : Ticket} {job : Job}
    (hw : s.phase? i w = some (.executing k job .entering)) :
    s.Evolves (s.enterBody i w k job) := by
  unfold System.enterBody
  split
  · next p t _ _ =>
    refine (evolves_worker (s := s.modifyTask job.task _) hw fun pool hw => ?_).congr rfl
    by_cases hg : t.body.gate.has (t.runs + 1) = true
    · exact .enterBody hw (Or.inl (if_pos hg))
    · exact .enterBody hw (Or.inr (if_neg hg))
  · exact .of_pools_eq rfl

theorem evolves_endBody {i w run : Nat} {k : Ticket} {job : Job}
    (hw : s.phase? i w = some (.executing k job (.past run))) :
    s.Evolves (s.endBody i w k job run) := by
  unfold System.endBody
  split
  · next p t _ _ =>
    split
    · have hs : s.Evolves (s.modifyPool i fun p =>
          (p.note (.panicked w k.number)).setPhase w (.executing k job .over)) :=
        evolves_worker hw fun pool hw => .panicBody hw
      rw [reportPanic_eq]
      exact hs.congr rfl
    · exact (s.evolves_evaluate p w t run).trans
        (evolves_worker (executing_evaluate hw p w t run) fun pool hw => .returnBody hw _)
  · exact .of_pools_eq rfl

theorem Waits.evolves {s' : System α} {n : Nat} (h : s.Waits n s') : s.Evolves s' := by
  induction h with
  | refl => exact .of_pools_eq rfl
  | mark _ x ih => exact ih.trans (evolves_modifyPool fun pool _ => .single (.join pool x.ticket))
  | turn _ _ ih => exact ih.congr rfl

/-! ## 3. Moves and actions -/

theorem Works.evolves {s' : System α} {i w : Nat} (h : s.Works i w s') : s.Evolves s' := by
  cases h with
  | idle => exact .of_pools_eq rfl
  | look hw hlooks => exact evolves_worker hw fun pool hw => Pool.section_goOn hw hlooks
  | enter hw => exact evolves_enterBody hw
  | leave hw => exact evolves_endBody hw
  | finish hw => exact (evolves_worker hw fun pool hw => .finish hw).congr rfl

theorem evolves_perform (s : System α) (m : Move) : s.Evolves (s.perform m) := by
  cases m with
  | worker i w => exact (s.works_worker i w).evolves
  | joiner n => exact (s.waits_joiner n).evolves
  | shutdown i =>
    refine evolves_modifyPool fun pool _ => ?_
    split
    · next hwoken => exact .single (.awaitWorkers hwoken)
    · exact .refl

/-- A worker that looks for work next makes one section of its pool, and touches no other. -/
theorem pools_perform_look {i w : Nat} {phase : Phase} (hphase : s.phase? i w = some phase)
    (hlooks : phase.looksNext = true) :
    (s.perform (.worker i w)).pools = (s.modifyPool i (·.goOn w phase)).pools := by
  rcases phase with _ | notified | ⟨k, job, stage⟩ | _
  · simp [perform, hphase, Pool.goOn]
  · obtain rfl : notified = true := hlooks
    simp [perform, hphase, Pool.goOn]
  · cases stage with
    | «over» => simp [perform, hphase, Pool.goOn, finishBody, wakeJoiners]
    | _ => exact absurd hlooks (by simp [Phase.looksNext, Phase.isLooking])
  · exact absurd hlooks (by simp [Phase.looksNext, Phase.isLooking])

/-- The move of a worker that looks for work at the end of its section. -/
theorem perform_look {i w : Nat} {pool : Pool α} {phase : Phase} (hi : s.pools[i]? = some pool)
    (hp : pool.Sound) (hw : pool.workers[w]? = some phase) (hlooks : phase.looksNext = true) :
    ∃ q, pool.Look q w phase ∧ (s.perform (.worker i w)).pools[i]? = some (q.advance w) := by
  obtain ⟨q, hlook, he⟩ := hp.look hw hlooks
  have hphase : s.phase? i w = some phase := phase?_eq_some.mpr ⟨pool, hi, hw⟩
  refine ⟨q, hlook, ?_⟩
  rw [pools_perform_look hphase hlooks, pools_modifyPool, if_pos rfl, hi, ← he]
  rfl

/-- A worker that has just got its record has claimed it. -/
theorem claimBy_of_entering {i w : Nat} {k : Ticket} {job : Job}
    (h : s.phase? i w = some (.executing k job .entering)) :
    s.claimBy i w = [.claimed ⟨i, k⟩ w] := by
  simp [claimBy, h]

theorem claimBy_of_idle {i w : Nat} {phase : Phase} (h : s.phase? i w = some phase)
    (hidle : phase.ticket? = none) : s.claimBy i w = [] := by
  cases phase <;> simp_all [claimBy, Phase.ticket?]

/-- Every pool of the system is sound. -/
def PoolsSound (s : System α) : Prop :=
  ∀ (i : Nat) (pool : Pool α), s.pools[i]? = some pool → pool.Sound

theorem PoolsSound.evolves {s' : System α} (h : s.PoolsSound) (he : s.Evolves s') :
    s'.PoolsSound := by
  intro i pool' hi'
  have hgrown := he i
  rw [hi'] at hgrown
  cases hi : s.pools[i]? with
  | none =>
    rw [hi] at hgrown
    cases hgrown with
    | new hs => exact hs.sound (.create _ _)
  | some pool =>
    rw [hi] at hgrown
    cases hgrown with
    | old hs => exact hs.sound (h i pool hi)

end System

namespace Program

variable {α : Type} {p q : Program α}

theorem sections_giveBack (l : Leaving) (pool : Pool α) : Pool.Sections pool (l.giveBack pool) := by
  unfold Leaving.giveBack
  cases l.fate with
  | live => exact .refl
  | released => exact .single (.unlink pool l.submission.ticket)
  | detached => exact .single (.detach pool l.submission.ticket)

/-- An action does no more to the pools than sections. -/
theorem evolves_act (p : Program α) (a : Action α) : p.system.Evolves (p.act a).system := by
  cases a with
  | addPool id plan => exact p.system.evolves_addPool id plan
  | addTask id body => exact .of_pools_eq rfl
  | submit i a => exact p.system.evolves_submit i a
  | join a limit => exact .of_pools_eq (p.system.pools_call a limit)
  | release a =>
    obtain ⟨_, _, he⟩ := p.release_frame a
    exact .of_pools_eq (by rw [he])
  | detach a =>
    obtain ⟨_, _, he⟩ := p.detach_frame a
    exact .of_pools_eq (by rw [he])
  | giveBack l =>
    unfold act
    dsimp only
    split
    · exact System.evolves_modifyPool fun pool _ => sections_giveBack l pool
    · exact .of_pools_eq rfl
  | shutdown i => exact p.system.evolves_shutdown i
  | dropPool i => exact System.evolves_modifyPool fun pool _ => .single (.drop pool)
  | refuseThreads cause => exact .of_pools_eq rfl
  | openGate a run => exact p.system.evolves_openGate a run
  | elapse ms => exact .of_pools_eq rfl
  | move m => exact p.system.evolves_perform m

theorem Leads.evolves (h : Leads p q) : p.system.Evolves q.system := by
  induction h with
  | refl => exact .of_pools_eq rfl
  | step a _ _ ih => exact ih.trans (evolves_act _ a)

/-- A pool stays in its place. -/
theorem Leads.sections (h : Leads p q) {i : Nat} {pool : Pool α}
    (hi : p.system.pools[i]? = some pool) :
    ∃ pool', q.system.pools[i]? = some pool' ∧ Pool.Sections pool pool' :=
  Pool.Grown.of_some (hi ▸ h.evolves i)

/-- What holds of the start and is kept by every permitted action holds of all that is reached. -/
theorem Reachable.induct {P : Program α → Prop} (hstart : ∀ processors, P (start processors))
    (hact : ∀ (p : Program α) (a : Action α), p.Reachable → P p → p.Permits a → P (p.act a))
    (h : p.Reachable) : P p := by
  obtain ⟨processors, h⟩ := h
  induction h with
  | refl => exact hstart processors
  | step a hleads ha ih => exact hact _ a ⟨processors, hleads⟩ ih ha

/-- A pool of a program that is reached got where it is by sections. -/
theorem Reachable.sections (h : p.Reachable) {i : Nat} {pool : Pool α}
    (hi : p.system.pools[i]? = some pool) :
    ∃ id plan, Pool.Sections (Pool.create id plan) pool := by
  obtain ⟨processors, h⟩ := h
  have hgrown := h.evolves i
  rw [hi] at hgrown
  cases hgrown with
  | new hs => exact ⟨_, _, hs⟩

/-- What holds of a new pool and is kept by every section of a sound one holds of each pool. -/
theorem Reachable.pool_induct {P : Pool α → Prop} (h : p.Reachable) {i : Nat} {pool : Pool α}
    (hi : p.system.pools[i]? = some pool) (hcreate : ∀ id plan, P (Pool.create id plan))
    (hstep : ∀ q q' : Pool α, q.Sound → P q → Pool.Section q q' → P q') : P pool := by
  obtain ⟨id, plan, hs⟩ := h.sections hi
  exact hs.induct (.create id plan) (hcreate id plan) hstep

theorem Reachable.poolsSound (h : p.Reachable) : p.system.PoolsSound := by
  intro i pool hi
  obtain ⟨id, plan, hs⟩ := h.sections hi
  exact hs.sound (.create id plan)

end Program
end WorkerPool
