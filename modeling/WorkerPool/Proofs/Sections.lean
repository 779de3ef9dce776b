/-
# All that can happen to a pool

`Pool.Section` lists it: what callers and workers do to a pool under its lock, and the three things
that happen to one of its workers outside of it (its body begins, panics, or returns a value).
Each constructor carries what is known when it happens.  A fact about one pool is proved once
for each of them and then holds along any `Sections`.

`System.Evolves` says that every pool got where it is by sections; the pools of a program do no
more than that.
-/
import Mathlib.Logic.Relation
import WorkerPool.Proofs.PoolSections
import WorkerPool.System.Settle

namespace WorkerPool

/-- A stage after the gate of a run was opened, if it was its gate. -/
def Stage.opened (stage : Stage) (job : Job) (task run : Nat) : Stage :=
  match stage with
  | atGate r => if job.task = task ∧ r = run then past r else atGate r
  | stage => stage

/-- A worker after the gate of a run was opened. -/
def Phase.opened (task run : Nat) : Phase → Phase
  | executing ticket job stage => executing ticket job (stage.opened job task run)
  | phase => phase

namespace Pool

variable {α : Type} {p p' : Pool α}

/-! ## 1. Sections -/

/-- One section under the lock of a pool, or one moment of a body. -/
inductive Section : Pool α → Pool α → Prop where
  /-- A pool in use is asked to take a job. -/
  | submit {p : Pool α} (hactive : p.isActive = true) (refusal : Option String) (job : Job) :
      Section p (p.submit refusal job).2
  | advance {p : Pool α} {w : Nat} (hw : p.workers[w]? = some .starting) : Section p (p.advance w)
  | wake {p : Pool α} {w : Nat} (hw : p.workers[w]? = some (.parked true)) : Section p (p.wake w)
  | enterBody {p : Pool α} {w run : Nat} {k : Ticket} {job : Job} {stage : Stage}
      (hw : p.workers[w]? = some (.executing k job .entering))
      (hs : stage = .atGate run ∨ stage = .past run) :
      Section p (p.setPhase w (.executing k job stage))
  | panicBody {p : Pool α} {w run : Nat} {k : Ticket} {job : Job}
      (hw : p.workers[w]? = some (.executing k job (.past run))) :
      Section p ((p.note (.panicked w k.number)).setPhase w (.executing k job .over))
  | returnBody {p : Pool α} {w run : Nat} {k : Ticket} {job : Job}
      (hw : p.workers[w]? = some (.executing k job (.past run))) (v : Value α) :
      Section p ((p.putResult k v).setPhase w (.executing k job .over))
  | finish {p : Pool α} {w : Nat} {k : Ticket} {job : Job}
      (hw : p.workers[w]? = some (.executing k job .over)) : Section p (p.finish w k)
  | openGate (p : Pool α) (task run : Nat) :
      Section p { p with workers := p.workers.map (Phase.opened task run) }
  | join (p : Pool α) (k : Ticket) : Section p (p.join k)
  | detach (p : Pool α) (k : Ticket) : Section p (p.detach k)
  | unlink (p : Pool α) (k : Ticket) : Section p (p.unlink k)
  | shutdown {p : Pool α} (hactive : p.isActive = true) : Section p p.shutdown.2
  /-- A shutdown that was told looks again. -/
  | awaitWorkers {p : Pool α} (hwoken : p.standing.isWoken = true) : Section p p.awaitWorkers
  | drop (p : Pool α) : Section p p.drop

/-- Any number of sections. -/
abbrev Sections : Pool α → Pool α → Prop := Relation.ReflTransGen Section

theorem queue_putResult (p : Pool α) (k : Ticket) (v : Value α) :
    (p.putResult k v).queue = p.queue := by
  unfold putResult
  split <;> rfl

theorem workers_putResult (p : Pool α) (k : Ticket) (v : Value α) :
    (p.putResult k v).workers = p.workers := by
  unfold putResult
  split <;> rfl

theorem isActive_of_isWoken (h : p.standing.isWoken = true) : p.isActive = false := by
  cases hs : p.standing <;> simp_all [Standing.isWoken, isActive]

/-- A worker that looks for work at the end of its section. -/
theorem section_goOn {w : Nat} {phase : Phase} (hw : p.workers[w]? = some phase)
    (hlooks : phase.looksNext = true) : Section p (p.goOn w phase) := by
  rcases phase with _ | notified | ⟨k, job, stage⟩ | _
  · exact .advance hw
  · obtain rfl : notified = true := hlooks
    exact .wake hw
  · cases stage with
    | «over» => exact .finish hw
    | _ => exact absurd hlooks (by simp [Phase.looksNext, Phase.isLooking])
  · exact absurd hlooks (by simp [Phase.looksNext, Phase.isLooking])

/-- Every section keeps a pool sound. -/
theorem Sound.section (h : p.Sound) (hs : Section p p') : p'.Sound := by
  cases hs with
  | submit hactive refusal job => exact h.submit refusal job
  | advance hw => exact h.advance hw
  | wake hw => exact h.wake hw
  | enterBody hw hs => exact h.setStage hw _
  | panicBody hw => exact (h.note _).setStage hw .over
  | returnBody hw v =>
    exact (h.putResult _ v).setStage ((congrArg (·[_]?) (workers_putResult p _ v)).trans hw) .over
  | finish hw => exact h.finish hw
  | openGate task run =>
    refine h.mapWorkers _ ?_ ?_ ?_ ?_ <;> intro phase <;> cases phase <;>
      simp [Phase.opened, Phase.isIn, Phase.isBusy, Phase.ticket?]
  | join k => exact h.join k
  | detach k => exact h.detach k
  | unlink k => exact h.unlink k
  | shutdown hactive => exact h.shutdown
  | awaitWorkers hwoken =>
    exact h.awaitWorkers (h.alert.told (Or.inr (isActive_of_isWoken hwoken)))
  | drop => exact h.drop

theorem Sections.sound (hs : Sections p p') (h : p.Sound) : p'.Sound := by
  induction hs with
  | refl => exact h
  | tail _ hs ih => exact ih.section hs

/-- What holds of a sound pool and is kept by every section holds after any number of them. -/
theorem Sections.induct {P : Pool α → Prop} (hs : Sections p p') (h : p.Sound) (hp : P p)
    (hstep : ∀ q q' : Pool α, q.Sound → P q → Section q q' → P q') : P p' := by
  induction hs with
  | refl => exact hp
  | tail hs' hs ih => exact hstep _ _ (Sections.sound hs' h) ih hs

/-! ## 2. The place of a pool in a list of pools -/

/-- What may become of a place: a pool that is there stays and goes on by sections, and a new
one may come to an empty place. -/
inductive Grown : Option (Pool α) → Option (Pool α) → Prop where
  | none : Grown none none
  | new {id : String} {plan : Plan} {p : Pool α} (h : Sections (create id plan) p) :
      Grown none (some p)
  | old {p p' : Pool α} (h : Sections p p') : Grown (some p) (some p')

theorem Grown.refl : ∀ o : Option (Pool α), Grown o o
  | .none => .none
  | some _ => .old .refl

theorem Grown.trans {o o' o'' : Option (Pool α)} (h : Grown o o') (h' : Grown o' o'') :
    Grown o o'' := by
  cases h with
  | none => exact h'
  | new h =>
    cases h' with
    | old h' => exact .new (h.trans h')
  | old h =>
    cases h' with
    | old h' => exact .old (h.trans h')

theorem Grown.of_some {o : Option (Pool α)} (h : Grown (some p) o) :
    ∃ p', o = some p' ∧ Sections p p' := by
  cases h with
  | old h => exact ⟨_, rfl, h⟩

end Pool
end WorkerPool
