/-
# Two sessions side by side

The same command is carried out in two sessions, each under a schedule of its own, and the systems
are compared only when both rest.  What a command asks for is little (`System.Alike`): ids, counters
and statuses, and which runs wait at a gate, in no order.  So it is enough to know of a comparison
what becomes of it by the operations that a command is made of.

* `Bond` lists what has to be known for commands that join nothing; such a command then answers the
  same in both sessions (`Bond.execute`).
* `JoinBond` lists what has to be known for the others.  The two need not agree about what a
  finished submission answers: `reads` says how the second reads the answer of the first, and a
  command that joins a submission answers accordingly (`JoinBond.execute`).  Where all joins have
  the same deadlines, this comes to less (`Joinable`).
-/
import WorkerPool.Proofs.Lockstep.System
import WorkerPool.Proofs.Unlinking

namespace WorkerPool

/-- Two that look the same are both missing or both there. -/
theorem map_eq_cases {β γ δ : Type} {b? : Option β} {c? : Option γ} {f : β → δ} {g : γ → δ}
    (h : b?.map f = c?.map g) :
    b? = none ∧ c? = none ∨ ∃ b c, b? = some b ∧ c? = some c ∧ f b = g c := by
  cases b? <;> cases c?
  · exact Or.inl ⟨rfl, rfl⟩
  · simp at h
  · simp at h
  · exact Or.inr ⟨_, _, rfl, rfl, Option.some.inj h⟩

/-! ## 1. What commands ask for -/

/-- What a caller can ask a pool. -/
def Pool.face {α : Type} (p : Pool α) : String × Plan × Bool × PoolCounts × Nat :=
  (p.id, p.plan, p.isActive, p.counts, p.queue.limit)

theorem Pool.describe_congr {α : Type} {p q : Pool α} (hplan : p.plan = q.plan)
    (hthreads : p.threads = q.threads) : p.describe = q.describe := by
  delta Pool.describe
  rw [hplan, hthreads]

/-- What a caller can ask a task. -/
def Task.face {α : Type} (t : Task α) : String × Bool × List Submission :=
  (t.id, t.isLive, t.submissions)

/-- A join that has come as far, but reads its answer in another way. -/
def JoinState.reread {α : Type} (f : Except Failure (Value α) → Except Failure (Value α)) :
    JoinState α → JoinState α
  | .answered answer => .answered (f answer)
  | state => state

/-- A join that reads the answer of its submission in another way. -/
def Joiner.reread {α : Type}
    (reads : Submission → Except Failure (Value α) → Except Failure (Value α)) (j : Joiner α) :
    Joiner α :=
  { j with state := j.state.reread (reads j.submission) }

/-- An answer, if the value of a join is read in another way. -/
def Answer.reread {α : Type} (f : Except Failure (Value α) → Except Failure (Value α)) :
    Answer α → Answer α
  | .value v => Session.joinAnswer (f (.ok v))
  | answer => answer

theorem Answer.reread_id {α : Type} (answer : Answer α) : answer.reread id = answer := by
  cases answer <;> rfl

theorem Joiner.reread_id {α : Type} (j : Joiner α) : j.reread (fun _ => id) = j := by
  obtain ⟨task, x, deadline, state⟩ := j
  cases state <;> rfl

/-- A command that begins a join, or asks for the answer of one. -/
def Command.isJoin {α : Type} : Command α → Bool
  | .join _ _ => true
  | .joinWithin _ _ _ => true
  | .collect _ => true
  | _ => false

namespace System

variable {α : Type} {s t : System α} {x : Submission}

/-- Nobody can move, and that is how a program can be. -/
structure Still (s : System α) : Prop where
  occurs : s.Occurs
  rests : s.Rests

/-- All that commands ask for is the same in both systems. -/
structure Alike (s t : System α) : Prop where
  pools : s.pools.map Pool.face = t.pools.map Pool.face
  tasks : s.tasks.map Task.face = t.tasks.map Task.face
  status : ∀ x, (s.record? x).map (·.status) = (t.record? x).map (·.status)
  blocked : ∀ a, (s.blockedRuns a).Perm (t.blockedRuns a)
  clock : s.clock = t.clock
  processors : s.processors = t.processors

theorem Still.settle (h : s.Occurs) {schedule : Schedule α}
    (hschedule : Schedule.Diligent schedule) : (s.settle schedule).Still :=
  ⟨h.brings (s.brings_settle schedule), h.rests_settle hschedule⟩

/-- A join that finds a submission, and has some time, is answered at once or waits. -/
theorem Occurs.joinFor_waits (h : s.Occurs) {a : Nat} {limit : Option Patience}
    (hx : (s.submissions a).head? = some x) (hzero : limit ≠ some (.ms 0)) :
    ∃ r, s.record? x = some r ∧
      let deadline := limit.bind (·.deadline? s.clock)
      s.joinFor a limit = (.ok s.joiners.length,
        if r.status = .finished then s.joinAnswered a x deadline
        else s.joinWaiting a x deadline) := by
  have hbegun : (s.joinFor a limit).1 = .ok s.joiners.length := by
    simp [joinFor, call, hx, hzero]
  rcases h.joinFor_cases a limit with he | ⟨-, he⟩ | ⟨y, r, hy, hr, -, he⟩
  · exact absurd (hbegun.symm.trans (congrArg Prod.fst he)) (by simp)
  · exact absurd (hbegun.symm.trans (congrArg Prod.fst he)) (by simp)
  · obtain rfl := Option.some.inj (hy.symm.trans hx)
    exact ⟨r, hr, he⟩

/-- What an observer sees of a task with these submissions. -/
def statusOf (s : System α) (xs : List Submission) : TaskStatus :=
  let current := xs.head?.bind fun x => (s.record? x).map (·.status)
  ⟨current == some .running, current == some .finished, xs.length⟩

theorem taskStatus_eq_statusOf (s : System α) (a : Task α) :
    s.taskStatus a = s.statusOf a.submissions := by
  have hcurrent : s.currentStatus? a =
      a.submissions.head?.bind fun x => (s.record? x).map (·.status) := by
    unfold currentStatus?
    cases a.submissions.head? with
    | none => rfl
    | some x => cases hx : s.record? x <;> simp [hx]
  rw [taskStatus, hcurrent]
  rfl

namespace Alike

theorem symm (h : s.Alike t) : t.Alike s :=
  ⟨h.pools.symm, h.tasks.symm, fun x => (h.status x).symm, fun a => (h.blocked a).symm,
    h.clock.symm, h.processors.symm⟩

theorem trans {u : System α} (h : s.Alike t) (h' : t.Alike u) : s.Alike u :=
  ⟨h.pools.trans h'.pools, h.tasks.trans h'.tasks, fun x => (h.status x).trans (h'.status x),
    fun a => (h.blocked a).trans (h'.blocked a), h.clock.trans h'.clock,
    h.processors.trans h'.processors⟩

/-- What a caller asks of every pool is answered alike. -/
theorem map_pools {β : Type} (h : s.Alike t) (f : String × Plan × Bool × PoolCounts × Nat → β) :
    (s.pools.map fun p => f p.face) = t.pools.map fun p => f p.face := by
  have hmap := congrArg (List.map f) h.pools
  rwa [List.map_map, List.map_map] at hmap

theorem map_tasks {β : Type} (h : s.Alike t) (f : String × Bool × List Submission → β) :
    (s.tasks.map fun a => f a.face) = t.tasks.map fun a => f a.face := by
  have hmap := congrArg (List.map f) h.tasks
  rwa [List.map_map, List.map_map] at hmap

theorem face_pool (h : s.Alike t) (i : Nat) :
    s.pools[i]?.map Pool.face = t.pools[i]?.map Pool.face := by
  rw [← List.getElem?_map, ← List.getElem?_map, h.pools]

theorem face_task (h : s.Alike t) (a : Nat) :
    s.tasks[a]?.map Task.face = t.tasks[a]?.map Task.face := by
  rw [← List.getElem?_map, ← List.getElem?_map, h.tasks]

theorem any_pools (h : s.Alike t) (f : String × Plan × Bool × PoolCounts × Nat → Bool) :
    (s.pools.any fun p => f p.face) = t.pools.any fun p => f p.face := by
  have hany := congrArg (List.any · fun b => b) (h.map_pools f)
  rwa [List.any_map, List.any_map] at hany

theorem findPool?_eq (h : s.Alike t) (id : String) : s.findPool? id = t.findPool? id :=
  Gap.Apart.findIdx?_congr (h.map_pools fun face => face.1 == id && face.2.2.1)

theorem findTask?_eq (h : s.Alike t) (id : String) : s.findTask? id = t.findTask? id :=
  Gap.Apart.findIdx?_congr (h.map_tasks fun face => face.1 == id && face.2.1)

theorem submissions_eq (h : s.Alike t) (a : Nat) : s.submissions a = t.submissions a := by
  unfold System.submissions
  rcases map_eq_cases (h.face_task a) with ⟨hb, hc⟩ | ⟨b, c, hb, hc, hface⟩ <;> rw [hb, hc]
  obtain ⟨-, hlive, hsubs⟩ : b.id = c.id ∧ b.isLive = c.isLive ∧ b.submissions = c.submissions := by
    simpa only [Task.face, Prod.mk.injEq] using hface
  dsimp only
  rw [hlive, hsubs]

theorem statusOf_eq (h : s.Alike t) (xs : List Submission) : s.statusOf xs = t.statusOf xs := by
  rw [statusOf, statusOf, funext h.status]

theorem observePool_eq (h : s.Alike t) (id : String) : s.observePool id = t.observePool id := by
  unfold observePool
  rw [h.findPool?_eq]
  cases t.findPool? id with
  | none => rfl
  | some i =>
    show (s.pools[i]? >>= _) = (t.pools[i]? >>= _)
    rcases map_eq_cases (h.face_pool i) with ⟨hp, hq⟩ | ⟨p, q, hp, hq, hface⟩ <;> rw [hp, hq]
    exact congrArg some (congrArg (fun face => face.2.2.2.1) hface)

theorem observeTask_eq (h : s.Alike t) (id : String) : s.observeTask id = t.observeTask id := by
  unfold observeTask
  rw [h.findTask?_eq]
  cases t.findTask? id with
  | none => rfl
  | some a =>
    show (s.tasks[a]? >>= _) = (t.tasks[a]? >>= _)
    rcases map_eq_cases (h.face_task a) with ⟨hb, hc⟩ | ⟨b, c, hb, hc, hface⟩ <;> rw [hb, hc]
    · rfl
    have hsubs : b.submissions = c.submissions := congrArg (fun face => face.2.2) hface
    show some (s.taskStatus b) = some (t.taskStatus c)
    rw [taskStatus_eq_statusOf, taskStatus_eq_statusOf, hsubs, h.statusOf_eq]

theorem contains_blockedRuns (h : s.Alike t) (a run : Nat) :
    (s.blockedRuns a).contains run = (t.blockedRuns a).contains run := by
  rw [Bool.eq_iff_iff, List.contains_iff_mem, List.contains_iff_mem]
  exact (h.blocked a).mem_iff

theorem min?_blockedRuns (h : s.Alike t) (a : Nat) :
    (s.blockedRuns a).min? = (t.blockedRuns a).min? := by
  cases hmin : (t.blockedRuns a).min? with
  | none =>
    rw [List.min?_eq_none_iff] at hmin ⊢
    exact (hmin ▸ h.blocked a).eq_nil
  | some run =>
    obtain ⟨hmem, hle⟩ := List.min?_eq_some_iff.mp hmin
    exact List.min?_eq_some_iff.mpr
      ⟨(h.blocked a).mem_iff.mpr hmem, fun b hb => hle b ((h.blocked a).mem_iff.mp hb)⟩

theorem findOrphan?_eq (h : s.Alike t) : Session.findOrphan? s = Session.findOrphan? t := by
  let ask (blocked : Nat → Option Nat) (entry : (String × Bool × List Submission) × Nat) :
      Option (Nat × Nat) :=
    if entry.1.2.1 then none else (blocked entry.2).map fun run => (entry.2, run)
  have hread (s : System α) : Session.findOrphan? s =
      (s.tasks.map Task.face).zipIdx.findSome? (ask fun a => (s.blockedRuns a).min?) := by
    rw [List.zipIdx_map, List.findSome?_map]
    rfl
  rw [hread, hread, h.tasks, funext h.min?_blockedRuns]

end Alike
end System

/-! ## 2. Sessions -/

namespace Session

variable {α : Type} {S T : Session α}

/-- The submission whose answer a command asks for. -/
def joined? (S : Session α) : Command α → Option Submission
  | .join task _ => (S.system.findTask? task).bind fun a => (S.system.submissions a).head?
  | .joinWithin task _ _ => (S.system.findTask? task).bind fun a => (S.system.submissions a).head?
  | .collect name =>
    (S.pending.find? fun j => j.name == name).bind fun e =>
      S.system.joiners[e.joiner]?.map (·.submission)
  | _ => none

/-- Two sessions whose systems compare like this, with the same joins left waiting. -/
structure Beside (R : System α → System α → Prop) (S T : Session α) : Prop where
  system : R S.system T.system
  pending : S.pending = T.pending
  unsized : S.unsized = T.unsized
  passing : S.passing = T.passing

theorem Settled.still (h : S.Settled) : S.system.Still := ⟨h.occurs, h.rests⟩

/-- The same of sessions between two commands. -/
structure Abreast (R : System α → System α → Prop) (S T : Session α) : Prop
    extends Beside R S T where
  left : S.Settled
  right : T.Settled

theorem Beside.mono {R R' : System α → System α → Prop} (h : Beside R S T)
    (hR : R S.system T.system → R' S.system T.system) : Beside R' S T :=
  ⟨hR h.system, h.pending, h.unsized, h.passing⟩

theorem Beside.withSystem {R R' : System α → System α → Prop} (h : Beside R S T) {s t : System α}
    (hst : R' s t) : Beside R' { S with system := s } { T with system := t } :=
  ⟨hst, h.pending, h.unsized, h.passing⟩

/-- One more pool has come and gone. -/
theorem Beside.pass {R : System α → System α → Prop} (h : Beside R S T) (p : Pool α) :
    Beside R { S with passing := p :: S.passing } { T with passing := p :: T.passing } :=
  ⟨h.system, h.pending, h.unsized, congrArg (p :: ·) h.passing⟩

/-- What the pools and tasks look like is asked like all else. -/
theorem view_eq (h : S.system.Alike T.system) : S.view = T.view := by
  have hpools (s : System α) :
      (s.pools.filter (·.isActive)).map (fun p => (p.id, p.counts)) =
        ((s.pools.map Pool.face).filter (·.2.2.1)).map fun face => (face.1, face.2.2.2.1) := by
    rw [List.filter_map, List.map_map]
    rfl
  have htasks (s : System α) :
      (s.tasks.filter (·.isLive)).map (fun a => (a.id, s.taskStatus a)) =
        ((s.tasks.map Task.face).filter (·.2.1)).map fun face => (face.1, s.statusOf face.2.2) := by
    rw [List.filter_map, List.map_map]
    exact List.map_congr_left fun a _ => congrArg (Prod.mk a.id) (s.taskStatus_eq_statusOf a)
  unfold view
  rw [hpools, hpools, htasks, htasks, h.pools, h.tasks, funext h.statusOf_eq]

theorem describePool_eq (h : S.system.Alike T.system) (hunsized : S.unsized = T.unsized)
    (id : String) (i : Nat) : S.describePool id i = T.describePool id i := by
  unfold describePool
  rw [hunsized]
  rcases map_eq_cases (h.face_pool i) with ⟨hp, hq⟩ | ⟨p, q, hp, hq, hface⟩ <;> rw [hp, hq]
  obtain ⟨-, hplan, -, hcounts, hlimit⟩ : p.id = q.id ∧ p.plan = q.plan ∧
      p.isActive = q.isActive ∧ p.counts = q.counts ∧ p.queue.limit = q.queue.limit := by
    simpa only [Pool.face, Prod.mk.injEq] using hface
  have hdescribe := Pool.describe_congr hplan (congrArg PoolCounts.threads hcounts)
  dsimp only
  rw [hplan, hlimit, hdescribe]

end Session

/-! ## 3. Commands that join nothing -/

/-- What has to be known of a comparison `R` of systems, so that commands which join nothing keep
it: what each operation makes of it, once both systems have settled.  It may hang on what the first
system comes to (`Ok`). -/
structure Bond {α : Type} (σ τ : Schedule α) (Ok : System α → Prop)
    (R : System α → System α → Prop) : Prop where
  left : Schedule.Diligent σ
  right : Schedule.Diligent τ
  alike : ∀ {s t}, R s t → s.Alike t
  ok : ∀ {s s'}, s.Occurs → s.Brings s' → Ok s' → Ok s
  addPool : ∀ {s t}, R s t → ∀ id plan, R (s.addPool id plan) (t.addPool id plan)
  addTask : ∀ {s t}, R s t → ∀ id body, R (s.addTask id body) (t.addTask id body)
  refuse : ∀ {s t}, R s t → ∀ refusal, R { s with refusal } { t with refusal }
  release : ∀ {s t}, s.Still → t.Still → R s t → ∀ a, s.IsFree a →
    (s.release a).1 = (t.release a).1 ∧ R (s.release a).2 (t.release a).2
  detach : ∀ {s t}, R s t → ∀ a, s.IsFree a → R (s.detach a) (t.detach a)
  submit : ∀ {s t}, s.Still → t.Still → R s t → ∀ i a, Ok ((s.submit i a).2.settle σ) →
    (s.submit i a).1 = (t.submit i a).1 ∧
      R ((s.submit i a).2.settle σ) ((t.submit i a).2.settle τ)
  shutdown : ∀ {s t}, s.Still → t.Still → R s t → ∀ i, Ok ((s.shutdown i).2.settle σ) →
    (s.shutdown i).1 = (t.shutdown i).1 ∧
      R ((s.shutdown i).2.settle σ) ((t.shutdown i).2.settle τ)
  dropPool : ∀ {s t}, s.Still → t.Still → R s t → ∀ i, Ok ((s.dropPool i).settle σ) →
    R ((s.dropPool i).settle σ) ((t.dropPool i).settle τ)
  openGate : ∀ {s t}, s.Still → t.Still → R s t → ∀ a run, Ok ((s.openGate a run).settle σ) →
    R ((s.openGate a run).settle σ) ((t.openGate a run).settle τ)

namespace Session

variable {α : Type}

/-- Two answers that are the same, and the sessions after them, once they have settled. -/
structure Same (σ τ : Schedule α) (R : System α → System α → Prop)
    (r r' : Answer α × Session α) : Prop where
  answer : r.1 = r'.1
  session : Beside R (r.2.settle σ) (r'.2.settle τ)

end Session

namespace Bond

variable {α : Type} {σ τ : Schedule α} {Ok : System α → Prop} {R : System α → System α → Prop}
  {S T : Session α}

open Session (Same Beside Abreast)

section Execute

variable (h : Bond σ τ Ok R)

include h

/-- Where nobody can move, settling does nothing. -/
theorem same_rest {S' T' : Session α} (hR : Beside R S' T') (hS : S'.system.Rests)
    (hT : T'.system.Rests) (answer : Answer α) : Same σ τ R (answer, S') (answer, T') := by
  refine ⟨rfl, ?_, hR.pending, hR.unsized, hR.passing⟩
  show R (S'.system.settle σ) (T'.system.settle τ)
  rw [hS.settle_eq h.left, hT.settle_eq h.right]
  exact hR.system

/-- Submissions one after the other, with the systems settling in between. -/
theorem submitTimes {s t : System α} (hs : s.Still) (ht : t.Still) (hR : R s t)
    (i a times count : Nat)
    (hok : Ok ((Session.submitTimes σ i a times count s).2.settle σ)) :
    (Session.submitTimes σ i a times count s).1 = (Session.submitTimes τ i a times count t).1 ∧
      R ((Session.submitTimes σ i a times count s).2.settle σ)
        ((Session.submitTimes τ i a times count t).2.settle τ) := by
  induction times generalizing s t count with
  | zero =>
    refine ⟨rfl, ?_⟩
    show R (s.settle σ) (t.settle τ)
    rwa [hs.rests.settle_eq h.left, ht.rests.settle_eq h.right]
  | succ times ih =>
    have hsubmit := h.submit hs ht hR i a
    have hsubmits := s.brings_submit i a
    have hsubmits' := t.brings_submit i a
    unfold Session.submitTimes at hok ⊢
    generalize s.submit i a = result at *
    generalize t.submit i a = result' at *
    obtain ⟨reply, s'⟩ := result
    obtain ⟨reply', t'⟩ := result'
    have hs' := hs.occurs.brings hsubmits
    have ht' := ht.occurs.brings hsubmits'
    cases reply with
    | accepted =>
      have hrest := (Session.brings_submitTimes σ (s'.settle σ) i a times (count + 1)).1.trans
        (System.brings_settle _ σ)
      have hsettled := hs'.brings (s'.brings_settle σ)
      obtain ⟨hreply, hbeside⟩ := hsubmit (h.ok hsettled hrest hok)
      obtain rfl : SubmitReply.accepted = reply' := hreply
      exact ih (.settle hs' h.left) (.settle ht' h.right) hbeside (count + 1) hok
    | failed e =>
      obtain ⟨hreply, hbeside⟩ := hsubmit hok
      obtain rfl : SubmitReply.failed e = reply' := hreply
      exact ⟨rfl, hbeside⟩
    | noPool =>
      obtain ⟨hreply, hbeside⟩ := hsubmit hok
      obtain rfl : SubmitReply.noPool = reply' := hreply
      exact ⟨rfl, hbeside⟩
    | noTask =>
      obtain ⟨hreply, hbeside⟩ := hsubmit hok
      obtain rfl : SubmitReply.noTask = reply' := hreply
      exact ⟨rfl, hbeside⟩

variable (hST : Abreast R S T)

include hST

/-- A command that changes nothing. -/
theorem same_unmoved (answer : Answer α) : Same σ τ R (answer, S) (answer, T) :=
  h.same_rest hST.toBeside hST.left.rests hST.right.rests answer

theorem same_onPool (id : String) {f g : Nat → Answer α × Session α}
    (hf : ∀ i, S.system.findPool? id = some i → Same σ τ R (f i) (g i)) :
    Same σ τ R (S.onPool id f) (T.onPool id g) := by
  unfold Session.onPool
  rw [← (h.alike hST.system).findPool?_eq]
  cases hi : S.system.findPool? id with
  | none => exact h.same_unmoved hST _
  | some i => exact hf i hi

theorem same_onTask (id : String) {f g : Nat → Answer α × Session α}
    (hf : ∀ a, S.system.findTask? id = some a → Same σ τ R (f a) (g a)) :
    Same σ τ R (S.onTask id f) (T.onTask id g) := by
  unfold Session.onTask
  rw [← (h.alike hST.system).findTask?_eq]
  cases ha : S.system.findTask? id with
  | none => exact h.same_unmoved hST _
  | some a => exact hf a ha

theorem same_endTask (id : String) {f g : Nat → Answer α × Session α}
    (hf : ∀ a, S.system.IsFree a → Same σ τ R (f a) (g a)) :
    Same σ τ R (S.endTask id f) (T.endTask id g) := by
  unfold Session.endTask
  rw [← hST.pending]
  split
  · exact h.same_unmoved hST _
  · next hpending =>
    exact h.same_onTask hST id fun a ha => hf a (hST.left.isFree (by simpa using hpending) ha)

theorem same_buildPool (id : String) (settings : Settings) :
    Same σ τ R (S.buildPool id settings) (T.buildPool id settings) := by
  have halike := h.alike hST.system
  unfold Session.buildPool
  rw [show (S.system.pools.any fun p => p.id == id) = T.system.pools.any fun p => p.id == id from
    halike.any_pools fun face => face.1 == id, halike.processors]
  split
  · exact h.same_unmoved hST _
  cases settings.plan T.system.processors with
  | error fault => exact h.same_unmoved hST _
  | ok plan =>
    dsimp only
    rw [show (S.system.pools.any fun p => p.plan.name == plan.name) =
        T.system.pools.any fun p => p.plan.name == plan.name from
      halike.any_pools fun face => face.2.1.name == plan.name]
    split
    · exact h.same_rest (hST.pass _) hST.left.rests hST.right.rests _
    · have hbeside := hST.withSystem (h.addPool hST.system id plan)
      rw [hST.unsized]
      refine h.same_rest ?_ (hST.left.rests.addPool id plan) (hST.right.rests.addPool id plan) _
      exact ⟨hbeside.system, hbeside.pending, rfl, hbeside.passing⟩

theorem same_tryPool (threads : Nat) : Same σ τ R (S.tryPool threads) (T.tryPool threads) := by
  unfold Session.tryPool
  rw [(h.alike hST.system).processors]
  cases Settings.plan { threads := some threads } T.system.processors with
  | error fault => exact h.same_unmoved hST _
  | ok plan =>
    exact h.same_rest (hST.pass _) hST.left.rests hST.right.rests _

theorem same_shutdown (i : Nat) (hok : Ok ((S.system.shutdown i).2.settle σ)) :
    Same σ τ R (S.shutdown i) (T.shutdown i) := by
  obtain ⟨hanswer, hbeside⟩ := h.shutdown hST.left.still hST.right.still hST.system i hok
  unfold Session.shutdown
  generalize S.system.shutdown i = result at *
  generalize T.system.shutdown i = result' at *
  obtain ⟨refused, s⟩ := result
  obtain ⟨refused', t⟩ := result'
  obtain rfl : refused = refused' := hanswer
  cases refused with
  | none => exact ⟨rfl, hST.withSystem hbeside⟩
  | some e => exact ⟨rfl, hST.withSystem hbeside⟩

theorem same_openRun (a run : Nat) (hok : Ok ((S.system.openGate a run).settle σ)) :
    Same σ τ R (S.openRun a run) (T.openRun a run) :=
  ⟨rfl, hST.withSystem (h.openGate hST.left.still hST.right.still hST.system a run hok)⟩

theorem same_openGate (a : Nat) (run : Option Nat)
    (hok : Ok ((S.openGate a run).2.system.settle σ)) :
    Same σ τ R (S.openGate a run) (T.openGate a run) := by
  have halike := h.alike hST.system
  unfold Session.openGate at hok ⊢
  simp only [halike.contains_blockedRuns, halike.min?_blockedRuns] at hok ⊢
  split
  · exact h.same_unmoved hST _
  · next run' hrun' =>
    simp only [hrun'] at hok
    exact h.same_openRun hST a run' hok

theorem same_release (a : Nat) (hfree : S.system.IsFree a) :
    Same σ τ R (S.release a) (T.release a) := by
  obtain ⟨hanswer, hbeside⟩ := h.release hST.left.still hST.right.still hST.system a hfree
  have hrests := hST.left.rests.release a
  have hrests' := hST.right.rests.release a
  unfold Session.release
  generalize S.system.release a = result at *
  generalize T.system.release a = result' at *
  obtain ⟨refused, s⟩ := result
  obtain ⟨refused', t⟩ := result'
  obtain rfl : refused = refused' := hanswer
  have hsame (answer : Answer α) :
      Same σ τ R (answer, { S with system := s }) (answer, { T with system := t }) :=
    h.same_rest (hST.withSystem hbeside) hrests hrests' answer
  cases refused with
  | none => exact hsame _
  | some e => exact hsame _

/-- **A command that joins nothing answers the same in both sessions.** -/
theorem execute {c : Command α} (hc : c.isJoin = false)
    (hok : Ok ((Session.execute σ S c).2.system.settle σ)) :
    Same σ τ R (Session.execute σ S c) (Session.execute τ T c) := by
  have halike := h.alike hST.system
  have hrests := hST.left.rests
  have hrests' := hST.right.rests
  cases c with
  | buildPool id settings => exact h.same_buildPool hST id settings
  | tryPool threads => exact h.same_tryPool hST threads
  | describePool id =>
    refine h.same_onPool hST id fun i _ => ?_
    rw [Session.describePool_eq halike hST.unsized]
    exact h.same_unmoved hST _
  | shutdown id =>
    refine h.same_onPool hST id fun i hi => h.same_shutdown hST i ?_
    have hsystem : (Session.execute σ S (.shutdown id)).2.system = (S.system.shutdown i).2 := by
      simp only [Session.execute, Session.onPool, hi, Session.shutdown]
      split <;> rfl
    rwa [hsystem] at hok
  | dropPool id =>
    refine h.same_onPool hST id fun i hi => ⟨rfl, hST.withSystem ?_⟩
    simp only [Session.execute, Session.onPool, hi] at hok
    exact h.dropPool hST.left.still hST.right.still hST.system i hok
  | denyThreads on =>
    let refusal := if on then some threadsDenied else none
    exact h.same_rest (hST.withSystem (h.refuse hST.system refusal))
      (hrests.of_pools rfl hrests.asleep) (hrests'.of_pools rfl hrests'.asleep) _
  | createTask id body =>
    simp only [Session.execute]
    rw [← halike.findTask?_eq]
    cases S.system.findTask? id with
    | some a => exact h.same_unmoved hST _
    | none =>
      exact h.same_rest (hST.withSystem (h.addTask hST.system id body))
        (hrests.of_pools rfl hrests.asleep) (hrests'.of_pools rfl hrests'.asleep) _
  | submit pool task =>
    simp only [Session.execute, System.submitById] at hok ⊢
    rw [← halike.findPool?_eq, ← halike.findTask?_eq]
    cases hi : S.system.findPool? pool with
    | none => exact h.same_unmoved hST _
    | some i =>
      cases ha : S.system.findTask? task with
      | none => exact h.same_unmoved hST _
      | some a =>
        rw [hi, ha] at hok
        obtain ⟨hreply, hbeside⟩ :=
          h.submit hST.left.still hST.right.still hST.system i a hok
        exact ⟨congrArg Session.submitAnswer hreply, hST.withSystem hbeside⟩
  | submitTimes pool task times =>
    simp only [Session.execute] at hok ⊢
    refine h.same_onPool hST pool fun i hi => h.same_onTask hST task fun a ha => ?_
    simp only [Session.onPool, hi, Session.onTask, ha] at hok
    obtain ⟨hanswer, hbeside⟩ :=
      h.submitTimes hST.left.still hST.right.still hST.system i a times 0 hok
    exact ⟨hanswer, hST.withSystem hbeside⟩
  | openGate task run =>
    refine h.same_onTask hST task fun a ha => ?_
    simp only [Session.execute, Session.onTask, ha] at hok
    exact h.same_openGate hST a run hok
  | openOrphan =>
    simp only [Session.execute] at hok ⊢
    rw [← halike.findOrphan?_eq]
    cases hblocked : Session.findOrphan? S.system with
    | none => exact h.same_unmoved hST _
    | some blocked =>
      rw [hblocked] at hok
      exact h.same_openRun hST _ _ hok
  | release id => exact h.same_endTask hST id fun a hfree => h.same_release hST a hfree
  | detach id =>
    exact h.same_endTask hST id fun a hfree =>
      h.same_rest (hST.withSystem (h.detach hST.system a hfree)) (hrests.detach a)
        (hrests'.detach a) _
  | describeTask id =>
    refine h.same_onTask hST id fun a _ => ?_
    rw [Session.describeTask, Session.describeTask, halike.submissions_eq]
    exact h.same_unmoved hST _
  | unknown => exact h.same_unmoved hST _
  | join task name => cases hc
  | joinWithin task patience name => cases hc
  | collect name => cases hc

end Execute
end Bond

/-! ## 4. Commands that join a submission -/

/-- What has to be known of a comparison `R`, so that commands which join a submission keep it.  The
second system reads what a finished submission answers in its own way. -/
structure JoinBond {α : Type} (σ τ : Schedule α) (Ok : System α → Prop)
    (reads : Submission → Except Failure (Value α) → Except Failure (Value α))
    (R : System α → System α → Prop) : Prop where
  left : Schedule.Diligent σ
  right : Schedule.Diligent τ
  alike : ∀ {s t}, R s t → s.Alike t
  errors : ∀ x e, reads x (.error e) = .error e
  length : ∀ {s t}, R s t → t.joiners.length = s.joiners.length
  /-- What a join has been answered. -/
  answer : ∀ {s t}, R s t → ∀ {n j}, s.joiners[n]? = some j →
    t.answer? n = (s.answer? n).map (reads j.submission)
  /-- What a join will be answered. -/
  outcome : ∀ {s t}, R s t → ∀ {x r}, s.record? x = some r → r.status = .finished →
    t.outcome x = reads x (s.outcome x)
  mark : ∀ {s t}, R s t → ∀ x : Submission,
    R (s.modifyPool x.pool (·.join x.ticket)) (t.modifyPool x.pool (·.join x.ticket))
  call : ∀ {s t}, R s t → ∀ j : Joiner α,
    R { s with joiners := s.joiners ++ [j] } { t with joiners := t.joiners ++ [j.reread reads] }
  /-- As much time passes for a join in both. -/
  wait : ∀ {s t}, s.Still → t.Still → R s t → ∀ n patience, s.answer? n = none →
    Ok (Session.awaitJoin σ s n patience) →
    R (Session.awaitJoin σ s n patience) (Session.awaitJoin τ t n patience)

/-- The same where the second system has the same joins, but for their answers. -/
structure Joinable {α : Type} (reads : Submission → Except Failure (Value α) →
    Except Failure (Value α)) (R : System α → System α → Prop) : Prop where
  alike : ∀ {s t}, R s t → s.Alike t
  errors : ∀ x e, reads x (.error e) = .error e
  /-- What the joins have been answered. -/
  joiners : ∀ {s t}, R s t → t.joiners = s.joiners.map (·.reread reads)
  /-- What a join will be answered. -/
  outcome : ∀ {s t}, R s t → ∀ {x r}, s.record? x = some r → r.status = .finished →
    t.outcome x = reads x (s.outcome x)
  mark : ∀ {s t}, R s t → ∀ x : Submission,
    R (s.modifyPool x.pool (·.join x.ticket)) (t.modifyPool x.pool (·.join x.ticket))
  rejoin : ∀ {s t}, R s t → ∀ clock joiners,
    R (s.later clock joiners) (t.later clock (joiners.map (·.reread reads)))

namespace Joiner

variable {α : Type} {reads : Submission → Except Failure (Value α) → Except Failure (Value α)}

theorem answer?_reread (j : Joiner α) :
    (j.reread reads).answer? = j.answer?.map (reads j.submission) := by
  obtain ⟨task, x, deadline, state⟩ := j
  cases state <;> rfl

/-- A join whose time runs out gives up, however it would be read. -/
theorem expire_reread (herrors : ∀ x e, reads x (.error e) = .error e) (j : Joiner α)
    (clock : Nat) : (j.reread reads).expire clock = (j.expire clock).reread reads := by
  have hover : (j.reread reads).isOver clock = j.isOver clock := by
    rw [isOver, isOver, answer?_reread, Option.isNone_map]
    rfl
  rw [expire, expire, hover]
  split
  · simp only [reread, JoinState.reread, herrors]
  · rfl

end Joiner

namespace Joinable

variable {α : Type} {reads : Submission → Except Failure (Value α) → Except Failure (Value α)}
  {R : System α → System α → Prop} {σ τ : Schedule α}

/-- How the answer of a command is read that joins this submission, or none. -/
def through (reads : Submission → Except Failure (Value α) → Except Failure (Value α)) :
    Option Submission → Except Failure (Value α) → Except Failure (Value α)
  | some x => reads x
  | none => id

theorem timeFor_eq (h : Joinable reads R) {s t : System α} (hR : R s t) (n patience : Nat) :
    Session.timeFor s n patience = Session.timeFor t n patience := by
  unfold Session.timeFor
  rw [h.joiners hR, List.getElem?_map, (h.alike hR).clock]
  cases s.joiners[n]? <;> rfl

theorem bond (h : Joinable reads R) (hσ : Schedule.Diligent σ) (hτ : Schedule.Diligent τ) :
    JoinBond σ τ (fun _ => True) reads R where
  left := hσ
  right := hτ
  alike := h.alike
  errors := h.errors
  length hR := by rw [h.joiners hR, List.length_map]
  answer {_ _} hR {_ j} hj := by
    rw [System.answer?, System.answer?, h.joiners hR, List.getElem?_map, hj]
    exact j.answer?_reread
  outcome := h.outcome
  mark := h.mark
  call {s t} hR j := by
    have hrejoin := h.rejoin hR s.clock (s.joiners ++ [j])
    have htwin : t.later s.clock (t.joiners ++ [j.reread reads]) =
        { t with joiners := t.joiners ++ [j.reread reads] } := by
      rw [System.later, (h.alike hR).clock]
    rw [List.map_append, ← h.joiners hR] at hrejoin
    exact htwin ▸ hrejoin
  wait {s t} hs ht hR n patience _ _ := by
    rw [Session.awaitJoin_eq, Session.awaitJoin_eq, h.timeFor_eq hR,
      hs.occurs.settle_elapse hs.rests hσ, ht.occurs.settle_elapse ht.rests hτ,
      (h.alike hR).clock, h.joiners hR, List.map_map]
    have hexpire (clock : Nat) : (s.joiners.map ((·.expire clock) ∘ (·.reread reads))) =
        (s.joiners.map (·.expire clock)).map (·.reread reads) := by
      rw [List.map_map]
      exact List.map_congr_left fun j _ => j.expire_reread h.errors clock
    rw [hexpire]
    exact h.rejoin hR _ _

end Joinable

namespace JoinBond

variable {α : Type} {reads : Submission → Except Failure (Value α) → Except Failure (Value α)}
  {R : System α → System α → Prop} {Ok : System α → Prop} {σ τ : Schedule α} {S T : Session α}
  {s t : System α}

open Session (Beside Abreast)
open Joinable (through)

/-- Two answers of which the second is read in its own way, and the sessions after them, in which
nobody can move. -/
structure Read (R : System α → System α → Prop)
    (f : Except Failure (Value α) → Except Failure (Value α)) (r r' : Answer α × Session α) :
    Prop where
  answer : r'.1 = r.1.reread f
  session : Beside R r.2 r'.2
  left : r.2.system.Rests
  right : r'.2.system.Rests

section Systems

variable (h : JoinBond σ τ Ok reads R)

include h

theorem joinAnswer_eq (x : Submission) (r : Except Failure (Value α)) :
    Session.joinAnswer (reads x r) = (Session.joinAnswer r).reread (reads x) := by
  cases r with
  | ok v => rfl
  | error e => rw [h.errors]; rfl

/-- A join that is begun in both systems fails in both, or belongs to the same submission. -/
theorem joinFor (hR : R s t) (hs : s.Still) (ht : t.Still) (a : Nat) (limit : Option Patience) :
    (∃ e, s.joinFor a limit = (.error e, s) ∧ t.joinFor a limit = (.error e, t)) ∨
      ∃ x s' t' j, (s.submissions a).head? = some x ∧
        s.joinFor a limit = (.ok s.joiners.length, s') ∧
        t.joinFor a limit = (.ok s.joiners.length, t') ∧ s'.Rests ∧ t'.Rests ∧ R s' t' ∧
        s'.joiners[s.joiners.length]? = some j ∧ j.submission = x := by
  have halike := h.alike hR
  have hsubs := halike.submissions_eq a
  cases hx : (s.submissions a).head? with
  | none =>
    have hx' : (t.submissions a).head? = none := hsubs ▸ hx
    exact Or.inl ⟨.notSubmitted, by simp [System.joinFor, System.call, hx],
      by simp [System.joinFor, System.call, hx']⟩
  | some x =>
    have hx' : (t.submissions a).head? = some x := hsubs ▸ hx
    by_cases hzero : limit = some (.ms 0)
    · exact Or.inl ⟨.timeout, by simp [System.joinFor, System.call, hx, hzero],
        by simp [System.joinFor, System.call, hx', hzero]⟩
    obtain ⟨r, hr, he⟩ := hs.occurs.joinFor_waits hx hzero
    obtain ⟨r', hr', he'⟩ := ht.occurs.joinFor_waits hx' hzero
    have hstatus : r.status = r'.status := by
      have hsame := halike.status x
      rw [hr, hr'] at hsame
      exact Option.some.inj hsame
    dsimp only at he he'
    rw [h.length hR, ← halike.clock] at he'
    have hlast (j : Joiner α) : (s.joiners ++ [j])[s.joiners.length]? = some j :=
      List.getElem?_concat_length
    refine Or.inr ?_
    generalize limit.bind (·.deadline? s.clock) = deadline at he he'
    by_cases hfinished : r.status = .finished
    · rw [if_pos hfinished] at he
      rw [if_pos (hstatus ▸ hfinished)] at he'
      have hcalled := h.call (h.mark hR x) ⟨a, x, deadline, .answered (s.outcome x)⟩
      have houtcome : t.joinAnswered a x deadline =
          { t.modifyPool x.pool (·.join x.ticket) with
            joiners := t.joiners ++
              [Joiner.reread reads ⟨a, x, deadline, .answered (s.outcome x)⟩] } := by
        rw [System.joinAnswered, h.outcome hR hr hfinished]
        rfl
      exact ⟨x, _, _, _, rfl, he, he', hs.rests.joinAnswered a x deadline,
        ht.rests.joinAnswered a x deadline, houtcome ▸ hcalled, hlast _, rfl⟩
    · rw [if_neg hfinished] at he
      rw [if_neg (hstatus ▸ hfinished)] at he'
      have hcalled : R (s.joinWaiting a x deadline) (t.joinWaiting a x deadline) := by
        unfold System.joinWaiting
        cases deadline.isNone with
        | true => exact h.call (h.mark hR x) ⟨a, x, deadline, .waiting false⟩
        | false => exact h.call hR ⟨a, x, deadline, .waiting false⟩
      exact ⟨x, _, _, _, rfl, he, he', hs.rests.joinWaiting a x deadline,
        ht.rests.joinWaiting a x deadline, hcalled, hlast _, rfl⟩

end Systems

/-- Time takes no join to another submission. -/
theorem submission_awaitJoin (hσ : Schedule.Diligent σ) (hs : s.Still) {n : Nat} {j : Joiner α}
    (hj : s.joiners[n]? = some j) (patience : Nat) :
    ∃ j', (Session.awaitJoin σ s n patience).joiners[n]? = some j' ∧
      j'.submission = j.submission := by
  rw [Session.awaitJoin_eq, hs.occurs.settle_elapse hs.rests hσ]
  refine ⟨_, (List.getElem?_map ..).trans (congrArg (Option.map _) hj), ?_⟩
  show (j.expire _).submission = _
  unfold Joiner.expire
  split <;> rfl

/-- A command that is not carried out. -/
theorem read_unmoved (hST : Abreast R S T) (why : Refusal)
    (f : Except Failure (Value α) → Except Failure (Value α)) :
    Read R f (.refused why, S) (.refused why, T) :=
  ⟨rfl, hST.toBeside, hST.left.rests, hST.right.rests⟩

section Sessions

variable (h : JoinBond σ τ Ok reads R)

include h

theorem waitFor (hR : Beside R S T) (hs : S.system.Still) (ht : T.system.Still) {n : Nat}
    {j : Joiner α} (hj : S.system.joiners[n]? = some j) (patience : Nat)
    (hok : Ok ((Session.waitFor σ S n patience).2.system.settle σ)) :
    (Session.waitFor τ T n patience).1 =
        (Session.waitFor σ S n patience).1.map (reads j.submission) ∧
      Beside R (Session.waitFor σ S n patience).2 (Session.waitFor τ T n patience).2 ∧
      (Session.waitFor σ S n patience).2.system.Rests ∧
      (Session.waitFor τ T n patience).2.system.Rests := by
  unfold Session.waitFor at hok ⊢
  rw [h.answer hR.system hj]
  cases ha : S.system.answer? n with
  | some answer => exact ⟨rfl, hR, hs.rests, ht.rests⟩
  | none =>
    rw [ha] at hok
    have hrests := (hs.occurs.brings (S.system.brings_elapse
      (Session.timeFor S.system n patience))).rests_settle h.left
    have hrests' := (ht.occurs.brings (T.system.brings_elapse
      (Session.timeFor T.system n patience))).rests_settle h.right
    have hsettled : (Session.awaitJoin σ S.system n patience).settle σ =
        Session.awaitJoin σ S.system n patience := hrests.settle_eq h.left
    have hwaited := h.wait hs ht hR.system n patience ha (hsettled ▸ hok)
    obtain ⟨j', hj', hsame⟩ := submission_awaitJoin h.left hs hj patience
    exact ⟨hsame ▸ h.answer hwaited hj', hR.withSystem hwaited, hrests, hrests'⟩

variable (hST : Abreast R S T)

include hST

theorem read_beginJoin (id : String) (limit : Option Patience)
    {next next' : Nat → Session α → Answer α × Session α}
    (hnext : ∀ (n : Nat) (j : Joiner α) (s t : System α), R s t → s.Still → t.Still →
      s.joiners[n]? = some j → Ok ((next n { S with system := s }).2.system.settle σ) →
      Read R (reads j.submission) (next n { S with system := s })
        (next' n { T with system := t }))
    (hok : Ok ((Session.beginJoin σ S id (fun a => S.system.joinFor a limit)
      next).2.system.settle σ)) :
    Read R
      (through reads ((S.system.findTask? id).bind fun a => (S.system.submissions a).head?))
      (Session.beginJoin σ S id (fun a => S.system.joinFor a limit) next)
      (Session.beginJoin τ T id (fun a => T.system.joinFor a limit) next') := by
  have hjoins := S.system.brings_joinFor
  have hjoins' := T.system.brings_joinFor
  unfold Session.beginJoin Session.onTask at hok ⊢
  rw [← (h.alike hST.system).findTask?_eq]
  cases ha : S.system.findTask? id with
  | none => exact read_unmoved hST _ _
  | some a =>
    rw [ha] at hok
    dsimp only [Option.bind_some] at hok ⊢
    rcases h.joinFor hST.system hST.left.still hST.right.still a limit with
      ⟨e, he, he'⟩ | ⟨x, s', t', j, hx, he, he', hrests, hrests', hR, hj, rfl⟩
    · rw [he, he']
      exact ⟨rfl, hST.toBeside, hST.left.rests, hST.right.rests⟩
    · have hbrings := hjoins a limit
      have hbrings' := hjoins' a limit
      rw [he] at hbrings hok
      rw [he'] at hbrings'
      rw [he, he', hx]
      dsimp only [Session.settle] at hok ⊢
      rw [hrests.settle_eq h.left] at hok
      rw [hrests.settle_eq h.left, hrests'.settle_eq h.right]
      exact hnext _ j s' t' hR ⟨hST.left.occurs.brings hbrings, hrests⟩
        ⟨hST.right.occurs.brings hbrings', hrests'⟩ hj hok

theorem read_namedJoin (name id : String) (limit : Option Patience)
    (hok : Ok ((Session.namedJoin σ S name id fun a =>
      S.system.joinFor a limit).2.system.settle σ)) :
    Read R
      (through reads ((S.system.findTask? id).bind fun a => (S.system.submissions a).head?))
      (Session.namedJoin σ S name id fun a => S.system.joinFor a limit)
      (Session.namedJoin τ T name id fun a => T.system.joinFor a limit) := by
  unfold Session.namedJoin at hok ⊢
  rw [← hST.pending]
  split
  · exact read_unmoved hST _ _
  next hfree =>
  rw [if_neg hfree] at hok
  refine h.read_beginJoin hST id limit (fun n j s t hR hs ht hj _ => ?_) hok
  dsimp only
  rw [h.answer hR hj]
  cases s.answer? n with
  | some answer =>
    exact ⟨h.joinAnswer_eq _ answer, hST.withSystem hR, hs.rests, ht.rests⟩
  | none =>
    have hbeside := hST.withSystem hR
    exact ⟨rfl, ⟨hR, congrArg (_ :: ·) hST.pending, hbeside.unsized, hbeside.passing⟩, hs.rests,
      ht.rests⟩

theorem read_shortJoin (id : String) (patience : Nat)
    (hok : Ok ((Session.shortJoin σ S id patience).2.system.settle σ)) :
    Read R
      (through reads ((S.system.findTask? id).bind fun a => (S.system.submissions a).head?))
      (Session.shortJoin σ S id patience) (Session.shortJoin τ T id patience) := by
  refine h.read_beginJoin hST id (some (.ms patience)) (fun n j s t hR hs ht hj hok => ?_) hok
  obtain ⟨hanswer, hbeside, hrests, hrests'⟩ :=
    h.waitFor (hST.withSystem hR) hs ht hj patience hok
  refine ⟨?_, hbeside, hrests, hrests'⟩
  dsimp only
  rw [hanswer]
  cases (Session.waitFor σ { S with system := s } n patience).1 with
  | none => rfl
  | some answer => exact h.joinAnswer_eq _ answer

theorem read_collect (name : String)
    (hok : Ok ((Session.collect σ S name).2.system.settle σ)) :
    Read R (through reads (S.joined? (.collect name))) (Session.collect σ S name)
      (Session.collect τ T name) := by
  unfold Session.collect at hok ⊢
  unfold Session.joined?
  rw [← hST.pending]
  cases he : S.pending.find? fun j => j.name == name with
  | none => exact read_unmoved hST _ _
  | some e =>
    have hlisted := hST.left.attended.listed e (List.mem_of_find?_eq_some he)
    obtain ⟨j, hj⟩ : ∃ j, S.system.joiners[e.joiner]? = some j :=
      ⟨_, List.getElem?_eq_getElem hlisted⟩
    have hwaits := h.waitFor hST.toBeside hST.left.still hST.right.still hj collectPatience
    simp only [he, Option.bind_some, hj, Option.map_some] at hok ⊢
    generalize Session.waitFor σ S e.joiner collectPatience = result at *
    generalize Session.waitFor τ T e.joiner collectPatience = result' at *
    obtain ⟨answer, S'⟩ := result
    obtain ⟨answer', T'⟩ := result'
    cases answer with
    | none =>
      obtain ⟨hanswer, hbeside, hrests, hrests'⟩ := hwaits hok
      obtain rfl : answer' = none := hanswer
      exact ⟨rfl, hbeside, hrests, hrests'⟩
    | some answer =>
      obtain ⟨hanswer, hbeside, hrests, hrests'⟩ := hwaits hok
      obtain rfl : answer' = some (reads j.submission answer) := hanswer
      exact ⟨h.joinAnswer_eq _ answer,
        ⟨hbeside.system, congrArg (List.erase · e) hbeside.pending, hbeside.unsized,
          hbeside.passing⟩,
        hrests, hrests'⟩

/-- **A command that joins a submission answers as the second system reads it.** -/
theorem execute {c : Command α} (hc : c.isJoin = true)
    (hok : Ok ((Session.execute σ S c).2.system.settle σ)) :
    Read R (through reads (S.joined? c)) (Session.execute σ S c) (Session.execute τ T c) := by
  cases c with
  | join task name => exact h.read_namedJoin hST name task none hok
  | joinWithin task patience name =>
    simp only [Session.execute, Session.boundedJoin] at hok ⊢
    cases hshort : patience.short? with
    | some n =>
      rw [hshort] at hok
      exact h.read_shortJoin hST task n hok
    | none =>
      cases name with
      | none => exact read_unmoved hST _ _
      | some name =>
        rw [hshort] at hok
        exact h.read_namedJoin hST name task (some patience) hok
  | collect name => exact h.read_collect hST name hok
  | _ => cases hc

end Sessions
end JoinBond

/-! ## 5. Commands of both kinds -/

/-- **A command answers the same in both sessions**, where finished submissions answer the same. -/
theorem Session.Abreast.advance {α : Type} {R : System α → System α → Prop}
    {Ok Ok' : System α → Prop} {σ τ : Schedule α} {S T : Session α} (h : Abreast R S T)
    (hbond : Bond σ τ Ok R) (hjoins : JoinBond σ τ Ok' (fun _ => id) R) (c : Command α)
    (hok : Ok (Session.step σ S c).2.system) (hok' : Ok' (Session.step σ S c).2.system) :
    (Session.step σ S c).1 = (Session.step τ T c).1 ∧
      Abreast R (Session.step σ S c).2 (Session.step τ T c).2 := by
  have hleft := h.left.step hbond.left c
  have hright := h.right.step hbond.right c
  cases hc : c.isJoin with
  | false =>
    obtain ⟨hanswer, hbeside⟩ := hbond.execute h hc hok
    exact ⟨hanswer, hbeside, hleft, hright⟩
  | true =>
    obtain ⟨hanswer, hbeside, hrests, hrests'⟩ := hjoins.execute h hc hok'
    have hsame (answer : Answer α) (j? : Option Submission) :
        answer.reread (Joinable.through (fun _ => id) j?) = answer := by
      cases j? <;> exact answer.reread_id
    have hsystem : R ((Session.execute σ S c).2.system.settle σ)
        ((Session.execute τ T c).2.system.settle τ) := by
      rw [hrests.settle_eq hbond.left, hrests'.settle_eq hbond.right]
      exact hbeside.system
    exact ⟨(hanswer.trans (hsame _ _)).symm, hbeside.withSystem hsystem, hleft, hright⟩

end WorkerPool
