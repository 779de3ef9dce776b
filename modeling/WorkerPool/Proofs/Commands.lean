/-
# What commands are made of

A command of a script does one of four things (`Session.Effect`): it carries out operations of its
system one after the other, some of them with a settling in between (`System.Operates`), or detaches
a task, or adds a pool with a new name, or leaves nothing but a pool that has ended.  What each of
these keeps is therefore kept by every command: `Settled.effect_execute` goes through the commands
once.
-/
import WorkerPool.Proofs.Sessions

namespace WorkerPool

namespace System

variable {α : Type} {s s' : System α}

/-- One operation of a session that adds no pool and detaches no task, or a settling. -/
inductive Operates (schedule : Schedule α) : System α → System α → Prop where
  | addTask (s : System α) (id : String) (body : Body α) : Operates schedule s (s.addTask id body)
  | submit (s : System α) (pool task : Nat) : Operates schedule s (s.submit pool task).2
  | shutdown (s : System α) (pool : Nat) : Operates schedule s (s.shutdown pool).2
  | dropPool (s : System α) (pool : Nat) : Operates schedule s (s.dropPool pool)
  | refuseThreads (s : System α) (refusal : Option String) :
      Operates schedule s { s with refusal }
  | openGate (s : System α) (task run : Nat) : Operates schedule s (s.openGate task run)
  | elapse (s : System α) (ms : Nat) : Operates schedule s (s.elapse ms)
  | joinFor (s : System α) (task : Nat) (limit : Option Patience) :
      Operates schedule s (s.joinFor task limit).2
  | release {s : System α} {task : Nat} (hfree : s.IsFree task) :
      Operates schedule s (s.release task).2
  | settle (s : System α) : Operates schedule s (s.settle schedule)

/-- Any number of them. -/
abbrev Operations (schedule : Schedule α) : System α → System α → Prop :=
  Relation.ReflTransGen (Operates schedule)

variable {schedule : Schedule α}

theorem Operates.brings (h : Operates schedule s s') : s.Brings s' := by
  cases h with
  | addTask id body => exact s.brings_addTask id body
  | submit pool task => exact s.brings_submit pool task
  | shutdown pool => exact s.brings_shutdown pool
  | dropPool pool => exact s.brings_dropPool pool
  | refuseThreads refusal => exact s.brings_refuseThreads refusal
  | openGate task run => exact s.brings_openGate task run
  | elapse ms => exact s.brings_elapse ms
  | joinFor task limit => exact s.brings_joinFor task limit
  | release hfree => exact brings_release hfree
  | settle => exact s.brings_settle schedule

/-- What each operation keeps, of a system that occurs, some of them keep. -/
theorem Operations.induct {P : System α → Prop} (h : Operations schedule s s') (hs : s.Occurs)
    (hP : P s) (hstep : ∀ s s', s.Occurs → P s → Operates schedule s s' → P s') :
    s'.Occurs ∧ P s' := by
  induction h with
  | refl => exact ⟨hs, hP⟩
  | tail _ hop ih => exact ⟨ih.1.brings hop.brings, hstep _ _ ih.1 ih.2 hop⟩

end System

namespace Session

variable {α : Type} {S R R' : Session α} {schedule : Schedule α}

/-- A session after some operations. -/
structure Operates (schedule : Schedule α) (S R : Session α) : Prop where
  operations : System.Operations schedule S.system R.system
  passing_eq : R.passing = S.passing

/-- What a command can do. -/
inductive Effect (schedule : Schedule α) (S R : Session α) : Prop where
  | operates (h : Operates schedule S R)
  | detaches {task : Nat} (hfree : S.system.IsFree task) (hsystem : R.system = S.system.detach task)
      (hpassing : R.passing = S.passing)
  | builds (id : String) (plan : Plan) (hname : ∀ p ∈ S.system.pools, p.plan.name ≠ plan.name)
      (hsystem : R.system = S.system.addPool id plan) (hpassing : R.passing = S.passing)
  | passes (p : Pool α) (hjournal : p.journal = [.closed 0] ∨ p.journal = [.shutDown])
      (hsystem : R.system = S.system) (hpassing : R.passing = p :: S.passing)

theorem Operates.refl (S : Session α) : Operates schedule S S := ⟨.refl, rfl⟩

theorem Operates.single {s : System α} (h : System.Operates schedule S.system s) :
    Operates schedule S { S with system := s } := ⟨.single h, rfl⟩

theorem Operates.tail {s : System α} (h : Operates schedule S R)
    (h' : System.Operates schedule R.system s) : Operates schedule S { R with system := s } :=
  ⟨h.operations.tail h', h.passing_eq⟩

/-- Only the system and the passing pools matter. -/
theorem Operates.congr (h : Operates schedule S R) (hsystem : R'.system = R.system)
    (hpassing : R'.passing = R.passing) : Operates schedule S R' :=
  ⟨hsystem ▸ h.operations, hpassing.trans h.passing_eq⟩

theorem operates_beginJoin {id : String} {limit : Option Patience}
    {next : Nat → Session α → Answer α × Session α}
    (hnext : ∀ n R, Operates schedule S R → Operates schedule S (next n R).2) :
    Operates schedule S
      (beginJoin schedule S id (fun a => S.system.joinFor a limit) next).2 := by
  unfold beginJoin onTask
  split
  · exact .refl S
  · next a _ =>
    have hjoins : Operates schedule S { S with system := (S.system.joinFor a limit).2 } :=
      .single (.joinFor S.system a limit)
    dsimp only
    generalize S.system.joinFor a limit = begun at hjoins
    obtain ⟨e | n, s⟩ := begun
    · exact hjoins
    · exact hnext n { S with system := s.settle schedule } (hjoins.tail (.settle s))

theorem operates_waitFor (h : Operates schedule S R) (joiner patience : Nat) :
    Operates schedule S (waitFor schedule R joiner patience).2 := by
  unfold waitFor
  split
  · exact h
  · exact (h.tail (.elapse R.system _)).tail (.settle _)

theorem operates_namedJoin (name id : String) (limit : Option Patience) :
    Operates schedule S
      (namedJoin schedule S name id fun a => S.system.joinFor a limit).2 := by
  unfold namedJoin
  split
  · exact .refl S
  · refine operates_beginJoin fun n R hR => ?_
    split
    · exact hR
    · exact hR.congr rfl rfl

theorem operations_submitTimes (i a times count : Nat) (s : System α) :
    System.Operations schedule s (submitTimes schedule i a times count s).2 := by
  induction times generalizing s count with
  | zero => exact .refl
  | succ times ih =>
    have hsubmits : System.Operations schedule s (s.submit i a).2 := .single (.submit s i a)
    unfold submitTimes
    split
    · next s' hs' =>
      rw [hs'] at hsubmits
      exact (hsubmits.tail (.settle s')).trans (ih (count + 1) _)
    · next e s' hs' =>
      rw [hs'] at hsubmits
      exact hsubmits
    · next reply s' _ _ hs' =>
      rw [hs'] at hsubmits
      exact hsubmits

theorem effect_buildPool (S : Session α) (id : String) (settings : Settings) :
    Effect schedule S (S.buildPool id settings).2 := by
  unfold buildPool
  split
  · exact .operates (.refl S)
  split
  · exact .operates (.refl S)
  next plan _ =>
  split
  · refine .passes _ (Or.inl ?_) rfl rfl
    simp [Pool.drop, Pool.isActive, Pool.create, Pool.note, Pool.notifyWorkers, Queue.size,
      Queue.empty]
  · next hname =>
    refine .builds id plan (fun p hp he => hname ?_) rfl rfl
    exact List.any_eq_true.mpr ⟨p, hp, by simpa using he⟩

theorem effect_tryPool (S : Session α) (threads : Nat) :
    Effect schedule S (S.tryPool threads).2 := by
  unfold tryPool
  split
  · exact .operates (.refl S)
  · refine .passes _ (Or.inr ?_) rfl rfl
    simp [Pool.shutdown, Pool.create, Pool.awaitWorkers, Pool.note, Pool.notifyWorkers,
      Queue.isEmpty, Queue.size, Queue.empty]

/-! ### Commands on a pool, or on a task -/

theorem effect_onPool {id : String} {f : Nat → Answer α × Session α}
    (hf : ∀ i, Effect schedule S (f i).2) : Effect schedule S (S.onPool id f).2 := by
  unfold onPool
  split
  · exact .operates (.refl S)
  · exact hf _

theorem effect_onTask {id : String} {f : Nat → Answer α × Session α}
    (hf : ∀ a, Effect schedule S (f a).2) : Effect schedule S (S.onTask id f).2 := by
  unfold onTask
  split
  · exact .operates (.refl S)
  · exact hf _

/-- The use of a task ends only when no join of it is in progress. -/
theorem Settled.effect_endTask (h : S.Settled) {id : String} {f : Nat → Answer α × Session α}
    (hf : ∀ a, S.system.IsFree a → Effect schedule S (f a).2) :
    Effect schedule S (S.endTask id f).2 := by
  unfold endTask onTask
  split
  · exact .operates (.refl S)
  next hfree =>
  split
  · exact .operates (.refl S)
  · next a ha => exact hf a (h.isFree (by simpa using hfree) ha)

theorem effect_shutdown (S : Session α) (i : Nat) : Effect schedule S (S.shutdown i).2 := by
  have hshut : Operates schedule S { S with system := (S.system.shutdown i).2 } :=
    .single (.shutdown S.system i)
  unfold shutdown
  generalize S.system.shutdown i = result at hshut
  obtain ⟨_ | e, s⟩ := result <;> exact .operates hshut

theorem effect_submitById (S : Session α) (pool task : String) :
    Effect schedule S { S with system := (S.system.submitById pool task).2 } := by
  unfold System.submitById
  split
  · exact .operates (.single (.submit S.system _ _))
  · exact .operates (.refl S)
  · exact .operates (.refl S)

theorem effect_openRun (S : Session α) (a run : Nat) : Effect schedule S (S.openRun a run).2 :=
  .operates (.single (.openGate S.system a run))

theorem effect_openGate (S : Session α) (a : Nat) (run : Option Nat) :
    Effect schedule S (S.openGate a run).2 := by
  unfold openGate
  dsimp only
  split
  · exact .operates (.refl S)
  · exact effect_openRun S a _

theorem effect_release {a : Nat} (hfree : S.system.IsFree a) :
    Effect schedule S (S.release a).2 := by
  have hrelease : Operates schedule S { S with system := (S.system.release a).2 } :=
    .single (.release hfree)
  unfold release
  generalize S.system.release a = result at hrelease
  obtain ⟨_ | e, s⟩ := result <;> exact .operates hrelease

/-! ### Joins -/

theorem effect_boundedJoin (S : Session α) (task : String) (patience : Patience)
    (name : Option String) : Effect schedule S (boundedJoin schedule S task patience name).2 := by
  unfold boundedJoin
  split
  · exact .operates (operates_beginJoin fun n R hR => operates_waitFor hR n _)
  · exact .operates (operates_namedJoin _ task (some patience))
  · exact .operates (.refl S)

theorem effect_collect (S : Session α) (name : String) :
    Effect schedule S (collect schedule S name).2 := by
  unfold collect
  split
  · exact .operates (.refl S)
  · next e _ =>
    have hwaits : Operates schedule S (waitFor schedule S e.joiner collectPatience).2 :=
      operates_waitFor (.refl S) e.joiner collectPatience
    generalize waitFor schedule S e.joiner collectPatience = result at hwaits
    obtain ⟨_ | answer, R⟩ := result
    · exact .operates hwaits
    · exact .operates (hwaits.congr rfl rfl)

/-- **Every command is a number of operations, or makes one pool.** -/
theorem Settled.effect_execute (h : S.Settled) (schedule : Schedule α) (c : Command α) :
    Effect schedule S (execute schedule S c).2 := by
  cases c with
  | buildPool id settings => exact effect_buildPool S id settings
  | tryPool threads => exact effect_tryPool S threads
  | describePool id => exact effect_onPool fun _ => .operates (.refl S)
  | shutdown id => exact effect_onPool fun i => effect_shutdown S i
  | dropPool id => exact effect_onPool fun i => .operates (.single (.dropPool S.system i))
  | denyThreads on => exact .operates (.single (.refuseThreads S.system _))
  | createTask id body =>
    simp only [execute]
    split
    · exact .operates (.refl S)
    · exact .operates (.single (.addTask S.system id body))
  | submit pool task => exact effect_submitById S pool task
  | submitTimes pool task times =>
    exact effect_onPool fun i => effect_onTask fun a =>
      .operates ⟨operations_submitTimes i a times 0 S.system, rfl⟩
  | openGate task run => exact effect_onTask fun a => effect_openGate S a run
  | openOrphan =>
    simp only [execute]
    split
    · exact .operates (.refl S)
    · exact effect_openRun S _ _
  | join task name => exact .operates (operates_namedJoin name task none)
  | joinWithin task patience name => exact effect_boundedJoin S task patience name
  | collect name => exact effect_collect S name
  | release id => exact h.effect_endTask fun _ hfree => effect_release hfree
  | detach id => exact h.effect_endTask fun _ hfree => .detaches hfree rfl rfl
  | describeTask id => exact effect_onTask fun _ => .operates (.refl S)
  | unknown => exact .operates (.refl S)

end Session
end WorkerPool
