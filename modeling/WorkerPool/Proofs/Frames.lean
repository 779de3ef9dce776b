/-
# What the operations leave alone

No operation touches all of a system.  A frame says which components it may change (`call_frame`,
`submit_frame`, `perform_frame` and so on), so whatever reads only the others is as before.  What
the wait of a join does is told in full (`System.Waits`): records are marked, and the join goes from
state to state.  A property that both of these keep is kept by every move of a join.  What one move
of a worker comes to is told by cases (`System.Works`).
-/
import WorkerPool.Proofs.PoolSections
import WorkerPool.Proofs.Program

namespace WorkerPool

/-! ## 1. Small changes, by index -/

/-- What does not see the change of an entry sees the list as it was. -/
theorem map_modify_of_eq {β γ : Type} {f : β → γ} {g : β → β} (h : ∀ b, f (g b) = f b)
    (l : List β) (i : Nat) : (l.modify i g).map f = l.map f := by
  refine List.ext_getElem? fun j => ?_
  rw [List.getElem?_map, List.getElem?_map, List.getElem?_modify]
  cases l[j]? with
  | none => rfl
  | some b => by_cases hj : i = j <;> simp [hj, h]

/-- Two that are related are both missing or both there. -/
theorem rel_cases {β γ : Type} {r : β → γ → Prop} {b? : Option β} {c? : Option γ}
    (h : Option.Rel r b? c?) :
    b? = none ∧ c? = none ∨ ∃ b c, b? = some b ∧ c? = some c ∧ r b c := by
  cases h with
  | none => exact Or.inl ⟨rfl, rfl⟩
  | some hr => exact Or.inr ⟨_, _, rfl, rfl, hr⟩

/-- Lists that are related place by place look the same to a function that sees no difference. -/
theorem map_eq_of_rel {β γ δ : Type} {r : Nat → β → γ → Prop} {bs : List β} {cs : List γ}
    (h : ∀ i : Nat, Option.Rel (r i) bs[i]? cs[i]?) {f : β → δ} {g : γ → δ}
    (hf : ∀ i b c, r i b c → f b = g c) : bs.map f = cs.map g := by
  refine List.ext_getElem? fun i => ?_
  rw [List.getElem?_map, List.getElem?_map]
  rcases rel_cases (h i) with ⟨hb, hc⟩ | ⟨b, c, hb, hc, hr⟩ <;> rw [hb, hc]
  · rfl
  · exact congrArg some (hf i b c hr)

theorem length_eq_of_rel {β γ : Type} {r : Nat → β → γ → Prop} {bs : List β} {cs : List γ}
    (h : ∀ i : Nat, Option.Rel (r i) bs[i]? cs[i]?) : bs.length = cs.length := by
  have hmap := congrArg List.length (map_eq_of_rel h (f := fun _ => ()) fun _ _ _ _ => rfl)
  rwa [List.length_map, List.length_map] at hmap

namespace System

variable {α : Type} {s s' : System α}

theorem pools_modifyPool (s : System α) (i j : Nat) (f : Pool α → Pool α) :
    (s.modifyPool i f).pools[j]? = if j = i then s.pools[j]?.map f else s.pools[j]? := by
  simp only [modifyPool, List.getElem?_modify, Option.map_eq_map]
  by_cases h : j = i
  · simp [h]
  · simp [h, Ne.symm h]

/-- Systems whose pools are related place by place stay so when the pool at one place changes in
both. -/
theorem rel_modifyPool {r : Nat → Pool α → Pool α → Prop}
    (h : ∀ j : Nat, Option.Rel (r j) s.pools[j]? s'.pools[j]?) (i : Nat) {f g : Pool α → Pool α}
    (hf : ∀ p q, s.pools[i]? = some p → s'.pools[i]? = some q → r i p q → r i (f p) (g q))
    (j : Nat) : Option.Rel (r j) (s.modifyPool i f).pools[j]? (s'.modifyPool i g).pools[j]? := by
  rw [pools_modifyPool, pools_modifyPool]
  split
  · next hj =>
    subst hj
    rcases rel_cases (h j) with ⟨hp, hq⟩ | ⟨p, q, hp, hq, hr⟩ <;> rw [hp, hq]
    · exact .none
    · exact .some (hf p q hp hq hr)
  · exact h j

theorem tasks_modifyTask (s : System α) (a b : Nat) (f : Task α → Task α) :
    (s.modifyTask a f).tasks[b]? = if b = a then s.tasks[b]?.map f else s.tasks[b]? := by
  simp only [modifyTask, List.getElem?_modify, Option.map_eq_map]
  by_cases h : b = a
  · simp [h]
  · simp [h, Ne.symm h]

theorem joiners_setJoin (s : System α) (n m : Nat) (state : JoinState α) :
    (s.setJoin n state).joiners[m]? =
      if m = n then s.joiners[m]?.map fun j => { j with state } else s.joiners[m]? := by
  simp only [setJoin, List.getElem?_modify, Option.map_eq_map]
  by_cases h : m = n
  · simp [h]
  · simp [h, Ne.symm h]

theorem modifyPool_modifyPool (s : System α) (i : Nat) (f g : Pool α → Pool α) :
    (s.modifyPool i f).modifyPool i g = s.modifyPool i fun p => g (f p) := by
  simp only [modifyPool, List.modify_modify_eq]
  rfl

theorem modifyPool_of_none {i : Nat} (hi : s.pools[i]? = none) (f : Pool α → Pool α) :
    s.modifyPool i f = s := by
  have he : s.pools.modify i f = s.pools := by
    refine List.ext_getElem? fun j => ?_
    rw [List.getElem?_modify]
    by_cases hj : i = j
    · rw [← hj, hi]; rfl
    · simp [hj]
  simp only [modifyPool, he]

/-- Only what the section does to the pool that is there matters. -/
theorem modifyPool_congr {i : Nat} {pool : Pool α} (hi : s.pools[i]? = some pool)
    {f g : Pool α → Pool α} (h : f pool = g pool) : s.modifyPool i f = s.modifyPool i g := by
  have he : s.pools.modify i f = s.pools.modify i g := by
    refine List.ext_getElem? fun j => ?_
    rw [List.getElem?_modify, List.getElem?_modify]
    by_cases hj : i = j
    · rw [← hj, hi]; simp [h]
    · simp [hj]
  simp only [modifyPool, he]

theorem phase?_eq_some {i w : Nat} {phase : Phase} :
    s.phase? i w = some phase ↔ ∃ p, s.pools[i]? = some p ∧ p.workers[w]? = some phase :=
  Option.bind_eq_some_iff

/-! ## 2. Callers -/

/-- A call adds to the joiners, and changes nothing else. -/
theorem call_frame (s : System α) (a : Nat) (limit : Option Patience) :
    (s.call a limit).2 = { s with joiners := (s.call a limit).2.joiners } := by
  unfold call
  split
  · rfl
  · split <;> rfl

@[simp] theorem pools_call (s : System α) (a : Nat) (limit : Option Patience) :
    (s.call a limit).2.pools = s.pools := by rw [call_frame]

@[simp] theorem tasks_call (s : System α) (a : Nat) (limit : Option Patience) :
    (s.call a limit).2.tasks = s.tasks := by rw [call_frame]

@[simp] theorem events_call (s : System α) (a : Nat) (limit : Option Patience) :
    (s.call a limit).2.events = s.events := by rw [call_frame]

@[simp] theorem journal_call (s : System α) (a : Nat) (limit : Option Patience) :
    (s.call a limit).2.journal = s.journal := by rw [call_frame]

/-- A submission that reaches its pool is up to the pool, and is put on the list of its task if the
pool accepts it. -/
theorem submit_cases (s : System α) (i a : Nat) :
    (s.submit i a).1 ≠ .accepted ∧ (s.submit i a).2 = s ∨
      ∃ pool t, s.pools[i]? = some pool ∧ s.tasks[a]? = some t ∧ t.fate = .live ∧
        ((∃ e, (pool.submit s.refusal ⟨a⟩).1 = .error e ∧ (s.submit i a).1 = .failed e ∧
            (s.submit i a).2 = s.modifyPool i fun _ => (pool.submit s.refusal ⟨a⟩).2) ∨
          ∃ ticket, (pool.submit s.refusal ⟨a⟩).1 = .ok ticket ∧ (s.submit i a).1 = .accepted ∧
            (s.submit i a).2 =
              (s.modifyPool i fun _ => (pool.submit s.refusal ⟨a⟩).2).modifyTask a fun t =>
                { t with submissions := ⟨i, ticket⟩ :: t.submissions }) := by
  unfold System.submit
  cases hi : s.pools[i]? with
  | none => exact Or.inl ⟨by simp, rfl⟩
  | some pool =>
    cases ha : s.tasks[a]? with
    | none => exact Or.inl ⟨by simp, rfl⟩
    | some t =>
      dsimp only
      split
      · exact Or.inl ⟨by simp, rfl⟩
      split
      · exact Or.inl ⟨by simp, rfl⟩
      next hlive =>
      refine Or.inr ⟨pool, t, rfl, rfl, by simpa [Task.isLive] using hlive, ?_⟩
      cases hreply : (pool.submit s.refusal ⟨a⟩).1 with
      | error e => exact Or.inl ⟨e, rfl, by simp only, by simp only⟩
      | ok ticket => exact Or.inr ⟨ticket, rfl, by simp only, by simp only⟩

/-- A pool that is not in use is asked for nothing. -/
theorem submit_of_inactive {i : Nat} {pool : Pool α} (hi : s.pools[i]? = some pool)
    (hactive : pool.isActive = false) (a : Nat) : (s.submit i a).2 = s := by
  unfold System.submit
  cases s.tasks[a]? with
  | none => simp only [hi]
  | some t => simp [hi, hactive]

/-- A submission changes its pool and its task. -/
theorem submit_frame (s : System α) (i a : Nat) :
    ∃ pools tasks, (s.submit i a).2 = { s with pools, tasks } := by
  rcases s.submit_cases i a with ⟨-, he⟩ | ⟨pool, t, -, -, -, ⟨e, -, -, he⟩ | ⟨k, -, -, he⟩⟩ <;>
    exact ⟨_, _, he⟩

/-- A shutdown changes its pool. -/
theorem shutdown_frame (s : System α) (i : Nat) :
    ∃ pools, (s.shutdown i).2 = { s with pools } := by
  unfold shutdown
  split
  · exact ⟨_, rfl⟩
  · dsimp only
    split <;> exact ⟨_, rfl⟩

@[simp] theorem tasks_shutdown (s : System α) (i : Nat) : (s.shutdown i).2.tasks = s.tasks := by
  obtain ⟨_, he⟩ := s.shutdown_frame i
  rw [he]

@[simp] theorem events_shutdown (s : System α) (i : Nat) :
    (s.shutdown i).2.events = s.events := by
  obtain ⟨_, he⟩ := s.shutdown_frame i
  rw [he]

@[simp] theorem journal_shutdown (s : System α) (i : Nat) :
    (s.shutdown i).2.journal = s.journal := by
  obtain ⟨_, he⟩ := s.shutdown_frame i
  rw [he]

/-! ## 3. Bodies -/

/-- A body does nothing to its system, or one submission. -/
theorem evaluate_cases (s : System α) (p : Pool α) (w : Nat) (t : Task α) (run : Nat) :
    (s.evaluate p w t run).2 = s ∨ ∃ i a, (s.evaluate p w t run).2 = (s.submit i a).2 := by
  unfold evaluate
  cases t.body.kind with
  | submit on pool task =>
    dsimp only
    split
    · unfold submitById
      cases s.findPool? pool with
      | none => exact Or.inl rfl
      | some i =>
        cases s.findTask? task with
        | none => exact Or.inl rfl
        | some a => exact Or.inr ⟨i, a, rfl⟩
    · exact Or.inl rfl
  | _ => exact Or.inl rfl

theorem evaluate_frame (s : System α) (p : Pool α) (w : Nat) (t : Task α) (run : Nat) :
    ∃ pools tasks, (s.evaluate p w t run).2 = { s with pools, tasks } := by
  rcases s.evaluate_cases p w t run with he | ⟨i, a, he⟩ <;> rw [he]
  · exact ⟨_, _, rfl⟩
  · exact s.submit_frame i a

theorem enterBody_frame (s : System α) (i w : Nat) (k : Ticket) (job : Job) :
    ∃ pools tasks events, s.enterBody i w k job = { s with pools, tasks, events } := by
  unfold enterBody
  split <;> exact ⟨_, _, _, rfl⟩

theorem endBody_frame (s : System α) (i w : Nat) (k : Ticket) (job : Job) (run : Nat) :
    ∃ pools tasks events, s.endBody i w k job run = { s with pools, tasks, events } := by
  unfold endBody
  split
  · next p t _ _ =>
    split
    · rw [reportPanic_eq]
      exact ⟨_, _, _, rfl⟩
    · obtain ⟨_, _, he⟩ := s.evaluate_frame p w t run
      dsimp only
      rw [he]
      exact ⟨_, _, _, rfl⟩
  · exact ⟨_, _, _, rfl⟩

/-! ## 4. Joins -/

/-- What comes of the wait of join number `n`: records are marked, and the join takes up states. -/
inductive Waits (s : System α) (n : Nat) : System α → Prop where
  | refl : Waits s n s
  | mark {s' : System α} (h : Waits s n s') (x : Submission) :
      Waits s n (s'.modifyPool x.pool (·.join x.ticket))
  | turn {s' : System α} (h : Waits s n s') (state : JoinState α) :
      Waits s n (s'.setJoin n state)

theorem Waits.lookAgain {n : Nat} (h : s.Waits n s') : s.Waits n (s'.lookAgain n) := by
  unfold System.lookAgain
  split
  · exact h
  · next j _ =>
    split
    · exact h.turn _
    · split
      · exact (h.mark j.submission).turn _
      · split <;> exact h.turn _

theorem Waits.startWait {n : Nat} (h : s.Waits n s') : s.Waits n (s'.startWait n) := by
  unfold System.startWait
  split
  · exact h
  · next j _ =>
    dsimp only
    split
    · exact (h.mark j.submission).lookAgain
    · exact h.lookAgain

/-- A join that is called and begins to wait at once. -/
theorem waits_joinFor (s : System α) (a : Nat) (limit : Option Patience) :
    ∃ n, (s.call a limit).2.Waits n (s.joinFor a limit).2 := by
  unfold joinFor
  generalize s.call a limit = result
  obtain ⟨_ | n, s'⟩ := result
  · exact ⟨0, .refl⟩
  · exact ⟨n, Waits.refl.startWait⟩

/-- A move of a join is a part of its wait. -/
theorem waits_joiner (s : System α) (n : Nat) : s.Waits n (s.perform (.joiner n)) := by
  unfold perform
  dsimp only
  split
  · exact Waits.refl.startWait
  · exact Waits.refl.lookAgain
  · exact .refl

theorem Waits.frame {n : Nat} (h : s.Waits n s') :
    ∃ pools joiners, s' = { s with pools, joiners } := by
  induction h with
  | refl => exact ⟨_, _, rfl⟩
  | mark _ _ ih =>
    obtain ⟨_, _, rfl⟩ := ih
    exact ⟨_, _, rfl⟩
  | turn _ _ ih =>
    obtain ⟨_, _, rfl⟩ := ih
    exact ⟨_, _, rfl⟩

/-! ## 5. Moves -/

/-- What comes of a move of worker `w` of pool `i`. -/
inductive Works (s : System α) (i w : Nat) : System α → Prop where
  /-- It waits for something, or has left. -/
  | idle : Works s i w s
  | look {phase : Phase} (hw : s.phase? i w = some phase) (hlooks : phase.looksNext = true) :
      Works s i w (s.modifyPool i (·.goOn w phase))
  | enter {k : Ticket} {job : Job} (hw : s.phase? i w = some (.executing k job .entering)) :
      Works s i w (s.enterBody i w k job)
  | leave {k : Ticket} {job : Job} {run : Nat}
      (hw : s.phase? i w = some (.executing k job (.past run))) :
      Works s i w (s.endBody i w k job run)
  /-- It finishes its record before it looks for work, and tells the joins of the record. -/
  | finish {k : Ticket} {job : Job} (hw : s.phase? i w = some (.executing k job .over)) :
      Works s i w ((s.modifyPool i (·.goOn w (.executing k job .over))).wakeJoiners ⟨i, k⟩)

theorem works_worker (s : System α) (i w : Nat) : s.Works i w (s.perform (.worker i w)) := by
  unfold perform
  dsimp only
  split
  · next hw => exact .look hw rfl
  · next hw => exact .look hw rfl
  · next hw => exact .enter hw
  · next hw => exact .leave hw
  · next hw => exact .finish hw
  · exact .idle

theorem Works.frame {i w : Nat} (h : s.Works i w s') :
    ∃ pools tasks joiners events, s' = { s with pools, tasks, joiners, events } := by
  cases h with
  | idle => exact ⟨_, _, _, _, rfl⟩
  | look hw hlooks => exact ⟨_, _, _, _, rfl⟩
  | enter hw =>
    obtain ⟨_, _, _, he⟩ := s.enterBody_frame i w _ _
    exact ⟨_, _, _, _, he⟩
  | leave hw =>
    obtain ⟨_, _, _, he⟩ := s.endBody_frame i w _ _ _
    exact ⟨_, _, _, _, he⟩
  | finish hw => exact ⟨_, _, _, _, rfl⟩

/-- No move takes time, or does anything outside of the program. -/
theorem perform_frame (s : System α) (m : Move) :
    ∃ pools tasks joiners events, s.perform m = { s with pools, tasks, joiners, events } := by
  cases m with
  | worker i w => exact (s.works_worker i w).frame
  | joiner n =>
    obtain ⟨_, _, he⟩ := (s.waits_joiner n).frame
    exact ⟨_, _, _, _, he⟩
  | shutdown i => exact ⟨_, _, _, _, rfl⟩

end System

/-! ## 6. The end of a task -/

namespace Program

variable {α : Type}

theorem release_frame (p : Program α) (a : Nat) :
    ∃ tasks journal, (p.act (.release a)).system = { p.system with tasks, journal } := by
  unfold act
  dsimp only
  split <;> exact ⟨_, _, rfl⟩

theorem detach_frame (p : Program α) (a : Nat) :
    ∃ tasks journal, (p.act (.detach a)).system = { p.system with tasks, journal } := by
  unfold act
  dsimp only
  split <;> exact ⟨_, _, rfl⟩

theorem giveBack_frame (p : Program α) (l : Leaving) :
    ∃ pools, (p.act (.giveBack l)).system = { p.system with pools } := by
  unfold act
  dsimp only
  split <;> exact ⟨_, rfl⟩

end Program
end WorkerPool
