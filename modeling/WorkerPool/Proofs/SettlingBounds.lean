/-
# The settling after a command is bounded

What a command does by itself leaves no record claimed whose body has not begun
(`Settled.allBegun_execute`): everybody rested before it, and no caller claims a record.  From there
the bounds of any number of moves are those of the settling, whoever moves first
(`settling_is_bounded`).  A command that submits many times and lets the system settle after each is
bounded by the places that were left before it, however many times it asks for.
-/
import WorkerPool.Proofs.Allowance
import WorkerPool.Proofs.Commands

namespace WorkerPool

/-! ## 1. Callers claim no record -/

namespace Pool

variable {α : Type} {p : Pool α}

theorem entering_shutdown (p : Pool α) : p.shutdown.2.entering = p.entering := by
  unfold Pool.shutdown
  split
  · unfold awaitWorkers
    split <;> exact entering_notifyWorkers p
  · rfl

theorem entering_drop (p : Pool α) : p.drop.entering = p.entering := by
  unfold Pool.drop
  split
  · exact entering_notifyWorkers p
  · rfl

theorem entering_openGate (p : Pool α) (task run : Nat) :
    ({ p with workers := p.workers.map (Phase.opened task run) } : Pool α).entering =
      p.entering := by
  show (p.workers.map (Phase.opened task run)).countP _ = _
  rw [List.countP_map]
  refine List.countP_congr fun phase _ => ?_
  rcases phase with _ | _ | ⟨k, job, _ | r | _ | _⟩ | _
  case executing.atGate =>
    simp only [Function.comp_apply, Phase.opened, Stage.opened]
    split <;> simp [Phase.isEntering]
  all_goals simp [Phase.opened, Stage.opened, Phase.isEntering]

end Pool

namespace System

variable {α : Type} {s s' : System α}

theorem Rests.allBegun (h : s.Rests) : s.AllBegun := by
  refine fun pool hmem => List.countP_eq_zero.mpr fun phase hphase hentering => ?_
  have hrests := h.isUnderWay_eq_false hmem hphase
  rcases phase with _ | _ | ⟨_, _, _ | _ | _ | _⟩ | _ <;>
    simp_all [Phase.isEntering, Phase.isUnderWay]

theorem AllBegun.modifyPool (h : s.AllBegun) {i : Nat} {f : Pool α → Pool α}
    (hf : ∀ pool, s.pools[i]? = some pool → (f pool).entering = pool.entering) :
    (s.modifyPool i f).AllBegun := by
  intro pool' hmem
  obtain ⟨j, hj⟩ := List.getElem?_of_mem hmem
  rw [pools_modifyPool] at hj
  split at hj
  · next hji =>
    subst hji
    obtain ⟨pool, hi, rfl⟩ := Option.map_eq_some_iff.mp hj
    rw [hf pool hi]
    exact h pool (List.mem_of_getElem? hi)
  · exact h pool' (List.mem_of_getElem? hj)

theorem AllBegun.submit (h : s.AllBegun) (i a : Nat) : (s.submit i a).2.AllBegun := by
  rcases s.submit_cases i a with ⟨-, he⟩ | ⟨pool, t, hi, -, -, hcase⟩
  · rwa [he]
  have hsubmits : (s.modifyPool i fun _ => (pool.submit s.refusal ⟨a⟩).2).AllBegun := by
    refine h.modifyPool fun pool' hi' => ?_
    obtain rfl := Option.some.inj (hi'.symm.trans hi)
    exact Pool.entering_submit pool' s.refusal ⟨a⟩
  rcases hcase with ⟨e, -, -, he⟩ | ⟨ticket, -, -, he⟩ <;> rw [he]
  · exact hsubmits
  · exact hsubmits

theorem AllBegun.foldl (f : Submission → Pool α → Pool α)
    (hf : ∀ x pool, (f x pool).entering = pool.entering) (xs : List Submission)
    (h : s.AllBegun) : (xs.foldl (fun s x => s.modifyPool x.pool (f x)) s).AllBegun := by
  induction xs generalizing s with
  | nil => exact h
  | cons x xs ih => exact ih (h.modifyPool fun pool _ => hf x pool)

theorem AllBegun.release (h : s.AllBegun) (a : Nat) : (s.release a).2.AllBegun := by
  unfold System.release
  split
  · refine h.foldl (fun x p => p.unlink x.ticket) (fun x pool => ?_) _
    rcases pool.unlink_cases x.ticket with he | he | ⟨f, he⟩ <;> rw [he] <;> rfl
  · exact h

theorem AllBegun.detach (h : s.AllBegun) (a : Nat) : (s.detach a).AllBegun := by
  unfold System.detach
  dsimp only
  split
  · exact h.foldl (fun x p => p.detach x.ticket) (fun _ _ => rfl) _
  · exact AllBegun.foldl (s := s.note _) (fun x p => p.detach x.ticket) (fun _ _ => rfl) _ h

/-- A submission that is accepted is given one number. -/
theorem next_of_accepted {i a : Nat} (h : (s.submit i a).1 = .accepted) {pool pool' : Pool α}
    (hi : s.pools[i]? = some pool) (hi' : (s.submit i a).2.pools[i]? = some pool') :
    pool'.queue.next = pool.queue.next + 1 := by
  rcases s.submit_cases i a with ⟨hne, -⟩ | ⟨q, t, hq, -, -, hcase⟩
  · exact absurd h hne
  obtain rfl := Option.some.inj (hq.symm.trans hi)
  rcases hcase with ⟨e, -, hreply, -⟩ | ⟨ticket, hok, -, he⟩
  · exact absurd (h.symm.trans hreply) (by simp)
  · have hplace : (s.submit i a).2.pools[i]? = some (q.submit s.refusal ⟨a⟩).2 := by
      rw [he]
      show (s.modifyPool i _).pools[i]? = _
      rw [pools_modifyPool, if_pos rfl, hi]
      rfl
    rw [Option.some.inj (hi'.symm.trans hplace), Pool.next_of_accepted hok]

theorem AllBegun.openGate (h : s.AllBegun) (task run : Nat) : (s.openGate task run).AllBegun := by
  intro pool' hmem
  obtain ⟨i, hi⟩ := List.getElem?_of_mem hmem
  rw [openGate_pools] at hi
  obtain ⟨pool, hpool, rfl⟩ := Option.map_eq_some_iff.mp hi
  exact (Pool.entering_openGate pool task run).trans (h pool (List.mem_of_getElem? hpool))

theorem AllBegun.joinFor (h : s.AllBegun) (hs : s.Occurs) (a : Nat) (limit : Option Patience) :
    (s.joinFor a limit).2.AllBegun := by
  have hjoin (x : Submission) : (s.modifyPool x.pool (·.join x.ticket)).AllBegun :=
    h.modifyPool fun _ _ => rfl
  rcases hs.joinFor_cases a limit with he | ⟨-, he⟩ | ⟨x, r, -, -, -, he⟩ <;> rw [he]
  · exact h
  · exact h
  · dsimp only
    split
    · exact hjoin x
    · unfold joinWaiting
      split
      · exact hjoin x
      · exact h

theorem AllBegun.shutdown (h : s.AllBegun) (i : Nat) : (s.shutdown i).2.AllBegun := by
  unfold System.shutdown
  split
  · exact h
  · next pool hi =>
    dsimp only
    split
    · refine h.modifyPool fun pool' hi' => ?_
      obtain rfl := Option.some.inj (hi'.symm.trans hi)
      exact Pool.entering_shutdown pool'
    · exact h

theorem AllBegun.addPool (h : s.AllBegun) (id : String) (plan : Plan) :
    (s.addPool id plan).AllBegun := by
  intro pool hmem
  rcases List.mem_append.mp hmem with hmem | hmem
  · exact h pool hmem
  · obtain rfl := List.mem_singleton.mp hmem
    rfl

/-- No operation of a caller claims a record, and a system that has settled rests. -/
theorem Operates.allBegun {schedule : Schedule α} (hop : Operates schedule s s')
    (hschedule : Schedule.Diligent schedule) (hs : s.Occurs) (h : s.AllBegun) : s'.AllBegun := by
  cases hop with
  | addTask id body => exact h
  | submit pool task => exact h.submit pool task
  | shutdown pool => exact h.shutdown pool
  | dropPool pool => exact h.modifyPool fun pool _ => Pool.entering_drop pool
  | refuseThreads refusal => exact h
  | openGate task run => exact h.openGate task run
  | elapse ms => exact h
  | joinFor task limit => exact h.joinFor hs task limit
  | release hfree => exact h.release _
  | settle => exact (hs.rests_settle hschedule).allBegun

end System

namespace Session

variable {α : Type} {S : Session α} {schedule : Schedule α}

/-- What a command that submits many times comes to: all of it is paid for by places, and so is the
number that it answers. -/
theorem submitTimes_spends (hschedule : Schedule.Diligent schedule) {s : System α} (hs : s.Occurs)
    (hrests : s.Rests) {i : Nat} {pool : Pool α} (hi : s.pools[i]? = some pool)
    (a times count : Nat) :
    let result := submitTimes schedule i a times count s
    s.Spends result.2 ∧ ∃ pool', result.2.pools[i]? = some pool' ∧
      ∀ n e, result.1 = .accepted n e → n + pool.queue.next ≤ count + pool'.queue.next := by
  induction times generalizing s pool count with
  | zero =>
    refine ⟨.refl s, pool, hi, fun n e he => ?_⟩
    injection he with hn
    exact Nat.le_of_eq (by rw [hn])
  | succ times ih =>
    have hsubmits := s.spends_submit i a
    have hbrings := s.brings_submit i a
    obtain ⟨pool₁, hi₁, hspends₁⟩ := hsubmits.pool hi
    unfold submitTimes
    split
    · next s₁ hs₁ =>
      rw [hs₁] at hsubmits hbrings hi₁
      have hnext : pool₁.queue.next = pool.queue.next + 1 :=
        System.next_of_accepted (congrArg Prod.fst hs₁) hi
          ((congrArg (·.2.pools[i]?) hs₁).trans hi₁)
      have hoccurs := hs.brings hbrings
      obtain ⟨ms, hms⟩ := System.moves_settleWithin hschedule s₁ s₁.budget
      have hsettles : s₁.Spends (s₁.settle schedule) := hms.spends hoccurs
      obtain ⟨pool₂, hi₂, hspends₂⟩ := hsettles.pool hi₁
      obtain ⟨hspends, pool', hi', hcount⟩ :=
        ih (hoccurs.brings (s₁.brings_settle schedule)) (hoccurs.rests_settle hschedule) hi₂
          (count + 1)
      refine ⟨(hsubmits.trans hsettles).trans hspends, pool', hi', fun n e he => ?_⟩
      have hle := hcount n e he
      have hle₂ := hspends₂.next_le
      omega
    · next e s₁ hs₁ =>
      rw [hs₁] at hsubmits hi₁
      refine ⟨hsubmits, pool₁, hi₁, fun n e he => ?_⟩
      injection he with hn
      have hle := hspends₁.next_le
      omega
    · next reply s₁ haccepted hfailed hs₁ =>
      rw [hs₁] at hsubmits hi₁
      refine ⟨hsubmits, pool₁, hi₁, fun n e he => ?_⟩
      cases reply with
      | accepted => exact (haccepted rfl).elim
      | failed e => exact (hfailed e rfl).elim
      | noPool => exact absurd he (by simp [submitAnswer])
      | noTask => exact absurd he (by simp [submitAnswer])

/-- **Nobody is about to begin a body** when a command has been carried out and the system has not
settled yet. -/
theorem Settled.allBegun_execute (h : S.Settled) (hschedule : Schedule.Diligent schedule)
    (c : Command α) : (execute schedule S c).2.system.AllBegun := by
  cases h.effect_execute schedule c with
  | operates hop =>
    exact (hop.operations.induct h.occurs h.rests.allBegun fun _ _ hs hP hop =>
      hop.allBegun hschedule hs hP).2
  | detaches _ hsystem => exact hsystem ▸ h.rests.allBegun.detach _
  | builds id plan _ hsystem => exact hsystem ▸ h.rests.allBegun.addPool id plan
  | passes _ _ hsystem => exact hsystem ▸ h.rests.allBegun

/-! ## 2. The bounds of a step -/

/-- **Settling ends, and within bounds.**  After whatever a command does by itself, the threads can
make only finitely many moves, in any order; they accept at most as many submissions from bodies as
the pools in use have places left, and begin at most so many more bodies as records wait.  A
command that submits again and again accepts no more than that either, its own submissions among
them. -/
theorem settling_is_bounded (hschedule : Schedule.Diligent schedule) (h : S.Settled)
    (c : Command α) :
    let own := (execute schedule S c).2.system
    let settled := (step schedule S c).2.system
    (∃ ms, own.Moves ms settled) ∧ settled.Rests ∧
      (∀ ms s, own.Moves ms s → ms.length ≤ own.budget ∧
        s.accepted ≤ own.accepted + own.allowance ∧
        s.begun + own.accepted ≤ own.begun + own.queued + s.accepted) ∧
      ∀ pool task times, c = .submitTimes pool task times →
        own.accepted ≤ S.system.accepted + S.system.allowance ∧
          own.begun + S.system.accepted ≤ S.system.begun + S.system.queued + own.accepted ∧
          ∀ n e, (execute schedule S c).1 = .accepted n e →
            ∃ i p, S.system.findPool? pool = some i ∧ S.system.pools[i]? = some p ∧
              n ≤ p.room ∧ p.room ≤ p.queue.limit := by
  intro own settled
  have hoccurs : own.Occurs := h.occurs.brings (leads_execute hschedule h c).1
  refine ⟨System.moves_settleWithin hschedule own own.budget, (h.step hschedule c).rests, ?_, ?_⟩
  · intro ms s hms
    have hspends := hms.spends hoccurs
    have hbodies := hspends.bodies
    rw [hoccurs.poolsSound.unbegun_eq (h.allBegun_execute hschedule c)] at hbodies
    exact ⟨hms.length_le hoccurs, hspends.accepted_le (hoccurs.brings hms.brings).poolsSound,
      by omega⟩
  · rintro pool task times rfl
    have hsound := hoccurs.poolsSound
    suffices hsuff : S.system.Spends own ∧ ∀ n e,
        (execute schedule S (.submitTimes pool task times)).1 = .accepted n e →
        ∃ i p p', S.system.findPool? pool = some i ∧ S.system.pools[i]? = some p ∧
          own.pools[i]? = some p' ∧ n + p.queue.next ≤ p'.queue.next by
      have hbodies := hsuff.1.bodies
      rw [h.occurs.poolsSound.unbegun_eq h.rests.allBegun] at hbodies
      refine ⟨hsuff.1.accepted_le hsound, by omega, fun n e he => ?_⟩
      obtain ⟨i, p, p', hi, hp, hp', hle⟩ := hsuff.2 n e he
      obtain ⟨p'', hp'', hspends⟩ := hsuff.1.pool hp
      obtain rfl := Option.some.inj (hp''.symm.trans hp')
      have hroom := hspends.next_le_room (hsound i p'' hp')
      refine ⟨i, p, hi, hp, ?_, Nat.sub_le _ _⟩
      split at hroom <;> omega
    simp only [own, execute, onPool, onTask]
    cases hpool : S.system.findPool? pool with
    | none => exact ⟨.refl _, fun n e he => absurd he (by simp)⟩
    | some i =>
      obtain ⟨hlt, -⟩ := List.findIdx?_eq_some_iff_getElem.mp hpool
      have hi := List.getElem?_eq_getElem hlt
      cases htask : S.system.findTask? task with
      | none => exact ⟨.refl _, fun n e he => absurd he (by simp)⟩
      | some a =>
        obtain ⟨hspends, p', hp', hcount⟩ :=
          submitTimes_spends hschedule h.occurs h.rests hi a times 0
        refine ⟨hspends, fun n e he => ⟨i, _, p', rfl, hi, hp', ?_⟩⟩
        have hle := hcount n e he
        omega

/-- A pool for two workers and four records, and a task that submits itself whenever it runs. -/
def echoing : List (Command Nat) :=
  [.buildPool "pool" { threads := some 2, limit := some 4 },
    .createTask "task" ⟨.submit .always "pool" "task", .never, .never, 0⟩]

/-- One submission fills the pool: three more are accepted from bodies, and four bodies begin. -/
theorem echoing_fills_pool :
    let S := (start 1).after System.bodiesFirst echoing
    let own := (execute System.bodiesFirst S (.submit "pool" "task")).2.system
    let settled := (step System.bodiesFirst S (.submit "pool" "task")).2.system
    settled.Rests ∧ settled.accepted ≤ own.accepted + own.allowance ∧
      settled.begun + own.accepted ≤ own.begun + own.queued + settled.accepted ∧
      (own.accepted, own.allowance, own.queued) = (1, 3, 1) ∧
      (settled.accepted, settled.begun) = (4, 4) := by
  intro S own settled
  have hS : S.Settled := (Settled.start 1).after System.bodiesFirst_diligent echoing
  obtain ⟨⟨ms, hms⟩, hrests, hbounds, -⟩ :=
    settling_is_bounded System.bodiesFirst_diligent hS (.submit "pool" "task")
  obtain ⟨-, haccepted, hbegun⟩ := hbounds ms settled hms
  exact ⟨hrests, haccepted, hbegun, by decide, by decide⟩

end Session
end WorkerPool
