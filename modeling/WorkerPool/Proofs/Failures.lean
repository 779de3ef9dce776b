/-
# How a command fails

A command that fails leaves all pools and tasks as they were (`System.Unmoved`), and notes are all
that remains of it.  There are two exceptions.  A join that finds that its body panicked marks that
one record joined, as a join with a result does.  And a bounded join takes its time: nobody moves
meanwhile, but other joins whose deadline passes are answered.  `Failed` lists all that can happen,
and `Settled.failed_step` says that nothing else does.
-/
import WorkerPool.Proofs.Sessions
import WorkerPool.Proofs.Shutdown

namespace WorkerPool

/-- The pool without its journal. -/
def Pool.unnoted {α : Type} (p : Pool α) : Pool α := { p with journal := [] }

/-- What a command failed with. -/
def Answer.failure? {α : Type} : Answer α → Option Failure
  | .failed e => some e
  | .handedBack e => some e
  | _ => none

namespace System

variable {α : Type} {s s' s'' : System α}

/-- All pools and tasks are as they were, whatever was noted, and nothing has happened. -/
structure Unmoved (s s' : System α) : Prop where
  pools : s'.pools.map Pool.unnoted = s.pools.map Pool.unnoted
  tasks : s'.tasks = s.tasks
  events : s'.events = s.events
  refusal : s'.refusal = s.refusal
  processors : s'.processors = s.processors

theorem Unmoved.refl (s : System α) : s.Unmoved s := ⟨rfl, rfl, rfl, rfl, rfl⟩

/-- A section that only notes something. -/
theorem unmoved_modifyPool {i : Nat} {pool : Pool α} (hi : s.pools[i]? = some pool)
    {f : Pool α → Pool α} (hf : (f pool).unnoted = pool.unnoted) :
    s.Unmoved (s.modifyPool i f) := by
  refine ⟨List.ext_getElem? fun j => ?_, rfl, rfl, rfl, rfl⟩
  rw [List.getElem?_map, List.getElem?_map, pools_modifyPool]
  split
  · next hj =>
    rw [hj, hi]
    exact congrArg some hf
  · rfl

theorem Unmoved.workers (h : s.Unmoved s') :
    (s'.pools.map fun p => (p.workers, p.standing)) =
      s.pools.map fun p => (p.workers, p.standing) := by
  have hmap := congrArg (List.map fun p : Pool α => (p.workers, p.standing)) h.pools
  rwa [List.map_map, List.map_map] at hmap

/-! ## 1. What is refused is noted, and that is all -/

end System

namespace Pool

variable {α : Type} {p : Pool α}

theorem unnoted_submit {refusal : Option String} {job : Job} {e : Failure}
    (he : (p.submit refusal job).1 = .error e) : (p.submit refusal job).2.unnoted = p.unnoted := by
  rcases p.submit_cases refusal job with ⟨-, hs⟩ | ⟨e', -, hgrow, hs⟩ | ⟨-, -, hs⟩
  · rw [hs]
    rfl
  · rw [hs]
    rcases p.grow_cases refusal with ⟨-, hg⟩ | ⟨-, -, hg⟩ | ⟨_, -, -, ⟨-, hg⟩ | ⟨-, hg⟩⟩ <;>
      rw [hg] at hgrow ⊢
    · exact absurd hgrow (by simp)
    · exact absurd hgrow (by simp)
    · rfl
  · rw [hs] at he
    exact absurd he (by simp)

theorem unnoted_shutdown {e : Failure} (he : p.shutdown.1 = some e) :
    p.shutdown.2.unnoted = p.unnoted := by
  rcases p.shutdown_cases with ⟨-, hnone, -⟩ | ⟨-, hs⟩
  · exact absurd (he.symm.trans hnone) (by simp)
  · rw [hs]
    rfl

end Pool

namespace System

variable {α : Type} {s s' s'' : System α}

/-- The system has noted something, and that is all. -/
structure Noted (s s' : System α) : Prop extends s.Unmoved s' where
  joiners : s'.joiners = s.joiners
  clock : s'.clock = s.clock

theorem Noted.refl (s : System α) : s.Noted s := ⟨.refl s, rfl, rfl⟩

theorem Noted.rests (h : s.Noted s') (hrests : s.Rests) : s'.Rests :=
  hrests.of_pools h.workers (h.joiners ▸ hrests.asleep)

theorem noted_submit {i a : Nat} {e : Failure} (he : (s.submit i a).1 = .failed e) :
    s.Noted (s.submit i a).2 := by
  rcases s.submit_cases i a with ⟨-, hs⟩ | ⟨pool, t, hi, -, -, ⟨e', herror, -, hs⟩ | ⟨k, -, hok, -⟩⟩
  · rw [hs]
    exact .refl s
  · rw [hs]
    exact ⟨unmoved_modifyPool hi (Pool.unnoted_submit herror), rfl, rfl⟩
  · exact absurd (he.symm.trans hok) (by simp)

theorem noted_submitById {pool task : String} {e : Failure}
    (he : (s.submitById pool task).1 = .failed e) : s.Noted (s.submitById pool task).2 := by
  unfold submitById at he ⊢
  split
  · next i a hi ha =>
    simp only [hi, ha] at he
    exact noted_submit he
  · exact .refl s
  · exact .refl s

/-- **A submission that is refused inside a body is noted, and that is all.** -/
theorem noted_evaluate {p : Pool α} {w run : Nat} {t : Task α} {e : Failure}
    (he : (s.evaluate p w t run).1 = .submitted (.failed e)) :
    s.Noted (s.evaluate p w t run).2 := by
  unfold evaluate at he ⊢
  split <;> try exact .refl s
  next on pool task hkind =>
    simp only [hkind] at he
    split
    · next hon =>
      rw [if_pos hon] at he
      exact noted_submitById (Value.submitted.inj he)
    · exact .refl s

theorem noted_shutdown {i : Nat} {e : Failure} (he : (s.shutdown i).1 = some e) :
    s.Noted (s.shutdown i).2 := by
  unfold shutdown at he ⊢
  split
  · exact .refl s
  · next p hi =>
    split
    · next hactive =>
      simp only [hi, hactive, if_true] at he
      exact ⟨unmoved_modifyPool hi (Pool.unnoted_shutdown he), rfl, rfl⟩
    · exact .refl s

theorem noted_release {a : Nat} {e : Failure} (he : (s.release a).1 = some e) :
    s.Noted (s.release a).2 := by
  unfold release at he ⊢
  split
  · next hcan => simp [hcan] at he
  · exact ⟨⟨rfl, rfl, rfl, rfl, rfl⟩, rfl, rfl⟩

end System

/-! ## 2. How a command fails -/

/-- The task that a command joins, by its id. -/
def Command.joins? {α : Type} : Command α → Option String
  | .join task _ => some task
  | .joinWithin task _ _ => some task
  | _ => none

/-- A join that has not been told to look is not told so when its time is over. -/
theorem Joiner.isWoken_expire {α : Type} {j : Joiner α} (h : j.isWoken = false) (clock : Nat) :
    (j.expire clock).isWoken = false := by
  unfold expire
  split
  · rfl
  · exact h

theorem System.outcome_error {α : Type} {s : System α} {x : Submission} {e : Failure}
    (h : s.outcome x = .error e) : e = .taskPanicked := by
  unfold outcome at h
  split at h
  · unfold Pool.outcome at h
    split at h
    · exact absurd h (by simp)
    · exact (Except.error.inj h).symm
  · exact (Except.error.inj h).symm

namespace Session

variable {α : Type} {S R : Session α} {schedule : Schedule α} {c : Command α} {e : Failure}

/-- What a command that fails leaves of a session. -/
inductive Failed (S : Session α) (c : Command α) (e : Failure) : Session α → Prop where
  /-- Something is noted. -/
  | noted {s : System α} (h : S.system.Noted s) : Failed S c e { S with system := s }
  /-- A join has waited until its time was over. -/
  | expired {id : String} {name : Option String} {n a : Nat} {x : Submission}
      (he : e = .timeout) (hc : c = .joinWithin id (.ms n) name) (hn : n ≠ 0) :
      Failed S c e
        { S with
          system := S.system.later (S.system.clock + n)
            (S.system.joiners.map (·.expire (S.system.clock + n)) ++
              [(⟨a, x, some (S.system.clock + n), .answered (.error .timeout)⟩ : Joiner α)]) }
  /-- A join has met a submission whose body panicked, and marked it. -/
  | panicked {id : String} {a : Nat} {x : Submission} {deadline : Option Nat}
      (he : e = .taskPanicked) (hc : c.joins? = some id) (ha : S.system.findTask? id = some a)
      (hx : (S.system.submissions a).head? = some x) :
      Failed S c e { S with system := S.system.joinAnswered a x deadline }
  /-- A join that was left waiting is asked for its answer. -/
  | collected {s : System α} {name : String} {pending : List PendingJoin}
      (hc : c = .collect name) (h : S.system.Unmoved s) (hrests : s.Rests) :
      Failed S c e { S with system := s, pending }

/-- Nobody moves after a failure. -/
theorem Failed.rests (h : S.Failed c e R) (hrests : S.system.Rests) : R.system.Rests := by
  cases h with
  | noted h => exact h.rests hrests
  | expired _ _ _ =>
    refine hrests.of_pools rfl fun j hj => ?_
    rcases List.mem_append.mp hj with hj | hj
    · obtain ⟨old, hold, rfl⟩ := List.mem_map.mp hj
      exact Joiner.isWoken_expire (hrests.asleep old hold) _
    · obtain rfl := List.mem_singleton.mp hj
      rfl
  | panicked _ _ _ _ => exact hrests.joinAnswered _ _ _
  | collected _ _ h => exact h

/-! ### Joins -/

/-- A join that fails does so at once, or when its record is found finished, or after it has
waited. -/
theorem Settled.failed_beginJoin (h : S.Settled) (hschedule : Schedule.Diligent schedule)
    {id : String} {limit : Option Patience} {next : Nat → Session α → Answer α × Session α}
    (hanswered : ∀ a x s, S.system.findTask? id = some a →
      (S.system.submissions a).head? = some x →
      s = S.system.joinAnswered a x (limit.bind (·.deadline? S.system.clock)) →
      (next S.system.joiners.length { S with system := s }).1.failure? = some e →
      S.Failed c e (next S.system.joiners.length { S with system := s }).2)
    (hwaiting : ∀ a x s, limit ≠ some (.ms 0) → (S.system.joinFor a limit).2 = s →
      s = S.system.joinWaiting a x (limit.bind (·.deadline? S.system.clock)) →
      (next S.system.joiners.length { S with system := s }).1.failure? = some e →
      S.Failed c e (next S.system.joiners.length { S with system := s }).2)
    (he : (beginJoin schedule S id (fun a => S.system.joinFor a limit) next).1.failure? = some e) :
    S.Failed c e (beginJoin schedule S id (fun a => S.system.joinFor a limit) next).2 := by
  unfold beginJoin onTask at he ⊢
  cases ha : S.system.findTask? id with
  | none => exact .noted (.refl S.system)
  | some a =>
    rw [ha] at he
    dsimp only at he ⊢
    rcases h.occurs.joinFor_cases a limit with hjoin | ⟨-, hjoin⟩ | ⟨x, r, hx, -, hne, hjoin⟩
    · rw [hjoin]
      exact .noted (.refl S.system)
    · rw [hjoin]
      exact .noted (.refl S.system)
    · dsimp only at hjoin
      by_cases hfinished : r.status = .finished
      · rw [if_pos hfinished] at hjoin
        have hrests := h.rests.joinAnswered a x (limit.bind (·.deadline? S.system.clock))
        simp only [hjoin, Session.settle, hrests.settle_eq hschedule] at he ⊢
        exact hanswered a x _ ha hx rfl he
      · rw [if_neg hfinished] at hjoin
        have hrests := h.rests.joinWaiting a x (limit.bind (·.deadline? S.system.clock))
        simp only [hjoin, Session.settle, hrests.settle_eq hschedule] at he ⊢
        exact hwaiting a x _ hne (by rw [hjoin]) rfl he

/-- A join that is answered at once fails only because the body panicked. -/
theorem failed_joinAnswered {id : String} {a : Nat} {x : Submission} {deadline : Option Nat}
    (hc : c.joins? = some id) (ha : S.system.findTask? id = some a)
    (hx : (S.system.submissions a).head? = some x)
    (he : (joinAnswer (S.system.outcome x)).failure? = some e) :
    S.Failed c e { S with system := S.system.joinAnswered a x deadline } := by
  cases houtcome : S.system.outcome x with
  | ok v => simp [houtcome, joinAnswer, Answer.failure?] at he
  | error e' =>
    obtain rfl : e' = e := by simpa [houtcome, joinAnswer, Answer.failure?] using he
    exact .panicked (System.outcome_error houtcome) hc ha hx

theorem answer?_concat (s : System α) (joiners : List (Joiner α)) (j : Joiner α) {n : Nat}
    (hn : n = joiners.length) :
    ({ s with joiners := joiners ++ [j] } : System α).answer? n = j.answer? := by
  subst hn
  simp [System.answer?]

theorem answer?_joinAnswered (s : System α) (a : Nat) (x : Submission) (deadline : Option Nat) :
    (s.joinAnswered a x deadline).answer? s.joiners.length = some (s.outcome x) :=
  answer?_concat (s.modifyPool x.pool (·.join x.ticket)) s.joiners
    ⟨a, x, deadline, .answered (s.outcome x)⟩ rfl

theorem answer?_joinWaiting (s : System α) (a : Nat) (x : Submission) (deadline : Option Nat) :
    (s.joinWaiting a x deadline).answer? s.joiners.length = none :=
  answer?_concat (if deadline.isNone then s.modifyPool x.pool (·.join x.ticket) else s) s.joiners
    ⟨a, x, deadline, .waiting false⟩ rfl

theorem Settled.failed_namedJoin (h : S.Settled) (hschedule : Schedule.Diligent schedule)
    {name id : String} {limit : Option Patience} (hc : c.joins? = some id)
    (he : (namedJoin schedule S name id fun a => S.system.joinFor a limit).1.failure? = some e) :
    S.Failed c e (namedJoin schedule S name id fun a => S.system.joinFor a limit).2 := by
  unfold namedJoin at he ⊢
  split
  · exact .noted (.refl S.system)
  next hfree =>
  rw [if_neg hfree] at he
  refine h.failed_beginJoin hschedule (fun a x s ha hx hs hr => ?_)
    (fun a x s _ _ hs hr => ?_) he
  · simp only [hs, answer?_joinAnswered] at hr ⊢
    exact failed_joinAnswered hc ha hx hr
  · -- it is left waiting
    simp only [hs, answer?_joinWaiting] at hr
    exact absurd hr (by simp [Answer.failure?])

/-- A bounded join that waits to its end. -/
theorem Settled.awaitJoin_waiting (h : S.Settled) (hschedule : Schedule.Diligent schedule)
    {a n : Nat} {x : Submission}
    (hs : (S.system.joinFor a (some (.ms n))).2 =
      S.system.joinWaiting a x (some (S.system.clock + n))) :
    awaitJoin schedule (S.system.joinWaiting a x (some (S.system.clock + n)))
        S.system.joiners.length n =
      S.system.later (S.system.clock + n)
        (S.system.joiners.map (·.expire (S.system.clock + n)) ++
          [(⟨a, x, some (S.system.clock + n), .answered (.error .timeout)⟩ : Joiner α)]) := by
  have htime : timeFor (S.system.joinWaiting a x (some (S.system.clock + n)))
      S.system.joiners.length n = n := by
    simp [timeFor, System.joinWaiting]
  have hoccurs := h.occurs.brings (S.system.brings_joinFor a (some (.ms n)))
  rw [hs] at hoccurs
  rw [awaitJoin_eq, htime, hoccurs.settle_elapse (h.rests.joinWaiting a x _) hschedule]
  simp [System.joinWaiting, System.later, Joiner.expire, Joiner.isOver, Joiner.isDue,
    Joiner.answer?]

theorem Settled.failed_shortJoin (h : S.Settled) (hschedule : Schedule.Diligent schedule)
    {id : String} {n : Nat} {name : Option String} (hc : c = .joinWithin id (.ms n) name)
    (he : (shortJoin schedule S id n).1.failure? = some e) :
    S.Failed c e (shortJoin schedule S id n).2 := by
  have hjoins : c.joins? = some id := by
    rw [hc]
    rfl
  refine h.failed_beginJoin hschedule (fun a x s ha hx hs hr => ?_)
    (fun a x s hne hjoin hs hr => ?_) he
  · simp only [hs, waitFor, answer?_joinAnswered, Option.bind_some, Patience.deadline?,
      Option.elim] at hr ⊢
    exact failed_joinAnswered hjoins ha hx hr
  · have hexpired := answer?_concat { S.system with clock := S.system.clock + n }
      (S.system.joiners.map (·.expire (S.system.clock + n)))
      ⟨a, x, some (S.system.clock + n), .answered (.error .timeout)⟩ (List.length_map _).symm
    have hlater : (S.system.later (S.system.clock + n)
        (S.system.joiners.map (·.expire (S.system.clock + n)) ++
          [⟨a, x, some (S.system.clock + n), .answered (.error .timeout)⟩])).answer?
        S.system.joiners.length = some (.error .timeout) := hexpired
    simp only [hs, Option.bind_some, Patience.deadline?, waitFor, answer?_joinWaiting,
      h.awaitJoin_waiting hschedule (hjoin.trans hs), hlater, Option.elim, joinAnswer,
      Answer.failure?, Option.some.injEq] at hr ⊢
    exact .expired hr.symm hc fun hzero => hne (by rw [hzero])

theorem Settled.failed_collect (h : S.Settled) (hschedule : Schedule.Diligent schedule)
    (name : String) : S.Failed (.collect name) e (collect schedule S name).2 := by
  have hsame : ∀ pending, S.Failed (.collect name) e { S with pending } :=
    fun pending => .collected rfl (.refl S.system) h.rests
  unfold collect
  split
  · exact hsame S.pending
  next j _ =>
  unfold waitFor
  cases S.system.answer? j.joiner with
  | some answer => exact hsame _
  | none =>
    dsimp only
    rw [awaitJoin_eq]
    have hlater := h.occurs.settle_elapse h.rests hschedule
      (timeFor S.system j.joiner collectPatience)
    have hrests := (h.occurs.brings (S.system.brings_elapse
      (timeFor S.system j.joiner collectPatience))).rests_settle hschedule
    have hunmoved : S.system.Unmoved ((S.system.elapse
        (timeFor S.system j.joiner collectPatience)).settle schedule) := by
      rw [hlater]
      exact ⟨rfl, rfl, rfl, rfl, rfl⟩
    split
    · next heq =>
      obtain ⟨-, rfl⟩ := Prod.mk.inj heq
      exact .collected rfl hunmoved hrests
    · next heq =>
      obtain ⟨-, rfl⟩ := Prod.mk.inj heq
      exact .collected rfl hunmoved hrests

/-! ### Commands -/

/-- A list of submissions never fails: it tells how far it came. -/
theorem failure?_submitTimes (i a times count : Nat) (s : System α) :
    (submitTimes schedule i a times count s).1.failure? = none := by
  induction times generalizing s count with
  | zero => rfl
  | succ times ih =>
    unfold submitTimes
    split
    · exact ih _ _
    · rfl
    · next reply _ hne hfailed _ =>
      cases reply with
      | accepted => exact (hne rfl).elim
      | failed e => exact (hfailed _ rfl).elim
      | noPool => rfl
      | noTask => rfl

theorem Settled.failed_boundedJoin (h : S.Settled) (hschedule : Schedule.Diligent schedule)
    {id : String} {patience : Patience} {name : Option String}
    (he : (boundedJoin schedule S id patience name).1.failure? = some e) :
    S.Failed (.joinWithin id patience name) e (boundedJoin schedule S id patience name).2 := by
  unfold boundedJoin at he ⊢
  rcases patience with n | _
  · by_cases hn : n ≤ shortPatience
    · simp only [Patience.short?, if_pos hn] at he ⊢
      exact h.failed_shortJoin hschedule rfl he
    · simp only [Patience.short?, if_neg hn] at he ⊢
      cases name with
      | none => exact .noted (.refl S.system)
      | some name => exact h.failed_namedJoin hschedule rfl he
  · cases name with
    | none => exact .noted (.refl S.system)
    | some name => exact h.failed_namedJoin hschedule rfl he

/-- A command on a pool in use, or on a task in use, fails as what it does there. -/
theorem failed_onPool {id : String} {f : Nat → Answer α × Session α}
    (hf : ∀ i, (f i).1.failure? = some e → S.Failed c e (f i).2)
    (he : (S.onPool id f).1.failure? = some e) : S.Failed c e (S.onPool id f).2 := by
  unfold onPool at he ⊢
  cases hi : S.system.findPool? id with
  | none => exact .noted (.refl S.system)
  | some i =>
    rw [hi] at he
    exact hf i he

theorem failed_onTask {id : String} {f : Nat → Answer α × Session α}
    (hf : ∀ a, (f a).1.failure? = some e → S.Failed c e (f a).2)
    (he : (S.onTask id f).1.failure? = some e) : S.Failed c e (S.onTask id f).2 := by
  unfold onTask at he ⊢
  cases ha : S.system.findTask? id with
  | none => exact .noted (.refl S.system)
  | some a =>
    rw [ha] at he
    exact hf a he

theorem failed_endTask {id : String} {f : Nat → Answer α × Session α}
    (hf : ∀ a, (f a).1.failure? = some e → S.Failed c e (f a).2)
    (he : (S.endTask id f).1.failure? = some e) : S.Failed c e (S.endTask id f).2 := by
  unfold endTask at he ⊢
  split
  · exact .noted (.refl S.system)
  · next hfree =>
    rw [if_neg hfree] at he
    exact failed_onTask hf he

theorem failed_shutdown (i : Nat) (he : (S.shutdown i).1.failure? = some e) :
    S.Failed c e (S.shutdown i).2 := by
  have hnoted : ∀ e, (S.system.shutdown i).1 = some e →
      S.system.Noted (S.system.shutdown i).2 := fun _ => System.noted_shutdown
  unfold shutdown at he ⊢
  generalize S.system.shutdown i = r at *
  obtain ⟨_ | e', s⟩ := r
  · exact absurd he (by simp [Answer.failure?])
  · exact .noted (hnoted e' rfl)

theorem failed_release (a : Nat) (he : (S.release a).1.failure? = some e) :
    S.Failed c e (S.release a).2 := by
  have hnoted : ∀ e, (S.system.release a).1 = some e →
      S.system.Noted (S.system.release a).2 := fun _ => System.noted_release
  unfold release at he ⊢
  generalize S.system.release a = r at *
  obtain ⟨_ | e', s⟩ := r
  · exact absurd he (by simp [Answer.failure?])
  · exact .noted (hnoted e' rfl)

theorem failed_submit {pool task : String}
    (he : (execute schedule S (.submit pool task)).1.failure? = some e) :
    S.Failed c e (execute schedule S (.submit pool task)).2 := by
  have hnoted : ∀ e, (S.system.submitById pool task).1 = .failed e →
      S.system.Noted (S.system.submitById pool task).2 := fun _ => System.noted_submitById
  simp only [execute] at he ⊢
  generalize S.system.submitById pool task = r at *
  obtain ⟨_ | e' | _ | _, s⟩ := r
  · exact absurd he (by simp [submitAnswer, Answer.failure?])
  · exact .noted (hnoted e' rfl)
  · exact absurd he (by simp [submitAnswer, Answer.failure?])
  · exact absurd he (by simp [submitAnswer, Answer.failure?])

/-- What does not fail does not fail. -/
theorem failed_of_eq_none {r : Answer α × Session α} (hr : r.1.failure? = none)
    (he : r.1.failure? = some e) : S.Failed c e r.2 :=
  absurd (hr.symm.trans he) (by simp)

/-- **How a command fails.** -/
theorem Settled.failed_execute (h : S.Settled) (hschedule : Schedule.Diligent schedule)
    (he : (execute schedule S c).1.failure? = some e) :
    S.Failed c e (execute schedule S c).2 := by
  cases c with
  | buildPool id settings =>
    simp only [execute, buildPool] at he ⊢
    split
    · exact .noted (.refl S.system)
    next hfree =>
    rw [if_neg hfree] at he
    split
    · exact .noted (.refl S.system)
    next hplan =>
    simp only [hplan] at he
    split <;> next hname => simp [hname, Answer.failure?] at he
  | tryPool threads =>
    simp only [execute, tryPool] at he ⊢
    split
    · exact .noted (.refl S.system)
    next hplan => simp [hplan, Answer.failure?] at he
  | describePool id =>
    refine failed_onPool (fun i => failed_of_eq_none ?_) he
    dsimp only [describePool]
    split
    · rfl
    · split <;> rfl
  | shutdown id => exact failed_onPool (fun i => failed_shutdown i) he
  | dropPool id => exact failed_onPool (fun i => failed_of_eq_none rfl) he
  | denyThreads on => exact failed_of_eq_none rfl he
  | createTask id body =>
    refine failed_of_eq_none ?_ he
    simp only [execute]
    split <;> rfl
  | submit pool task => exact failed_submit he
  | submitTimes pool task times =>
    exact failed_onPool (fun i => failed_onTask fun a =>
      failed_of_eq_none (failure?_submitTimes i a times 0 S.system)) he
  | openGate task run =>
    refine failed_onTask (fun a => failed_of_eq_none ?_) he
    unfold openGate
    dsimp only
    split <;> rfl
  | openOrphan =>
    refine failed_of_eq_none ?_ he
    simp only [execute]
    split <;> rfl
  | join task name => exact h.failed_namedJoin hschedule rfl he
  | joinWithin task patience name => exact h.failed_boundedJoin hschedule he
  | collect name => exact h.failed_collect hschedule name
  | release id => exact failed_endTask (fun a => failed_release a) he
  | detach id => exact failed_endTask (fun a => failed_of_eq_none rfl) he
  | describeTask id => exact failed_onTask (fun a => failed_of_eq_none rfl) he
  | unknown => exact failed_of_eq_none rfl he

theorem Settled.failed_step (h : S.Settled) (hschedule : Schedule.Diligent schedule)
    (he : (Session.step schedule S c).1.failure? = some e) :
    S.Failed c e (Session.step schedule S c).2 := by
  have hfailed := h.failed_execute hschedule he
  have hrests := hfailed.rests h.rests
  rw [show (Session.step schedule S c).2 = (execute schedule S c).2 from
    congrArg (fun s => { (execute schedule S c).2 with system := s })
      (hrests.settle_eq hschedule)]
  exact hfailed

end Session
end WorkerPool
