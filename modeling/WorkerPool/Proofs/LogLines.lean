/-
# The log of a script has every note once

A report shows what was noted since the one before it, so the logs of all reports up to some point
are the lines of everything noted until then (`lines_perm`), in another order.  The lines of a pool
are told by its name.  No two pools that scripts use have the same name; but a pool that a command
builds and ends at once may have the name of another one, and its only note is that of its end
(`Named`).
-/
import WorkerPool.Proofs.Growth
import WorkerPool.Proofs.Commands
import WorkerPool.Proofs.Allowance

namespace WorkerPool

/-! ## 1. Notes are only added -/

namespace Pool

variable {α : Type} {p p' : Pool α}

theorem noted_submit (p : Pool α) (refusal : Option String) (job : Job) :
    (p.submit refusal job).2.plan = p.plan ∧ p.journal <:+ (p.submit refusal job).2.journal := by
  have hgrow : (p.grow refusal).2.plan = p.plan ∧ p.journal <:+ (p.grow refusal).2.journal := by
    rcases p.grow_cases refusal with ⟨-, hg⟩ | ⟨-, -, hg⟩ | ⟨_, -, -, ⟨-, hg⟩ | ⟨-, hg⟩⟩ <;> rw [hg]
    · exact ⟨rfl, List.suffix_rfl⟩
    · exact ⟨rfl, List.suffix_cons _ _⟩
    · exact ⟨rfl, List.suffix_cons _ _⟩
    · exact ⟨rfl, List.suffix_cons _ _⟩
  rcases submit_cases p refusal job with ⟨-, he⟩ | ⟨e, -, -, he⟩ | ⟨-, -, he⟩ <;> rw [he]
  · exact ⟨rfl, List.suffix_cons _ _⟩
  · exact hgrow
  · exact ⟨hgrow.1, hgrow.2.trans (List.suffix_cons _ _)⟩

/-- A section keeps the plan of a pool and what it has noted. -/
theorem Section.noted (hs : Section p p') (h : p.Sound) :
    p'.plan = p.plan ∧ p.journal <:+ p'.journal := by
  by_cases hnext : p'.queue.next = p.queue.next
  · have heased := hs.eased h hnext
    exact ⟨heased.plan_eq, heased.journal_suffix⟩
  -- only a submission gives a number
  cases hs with
  | submit hactive refusal job => exact noted_submit p refusal job
  | advance hw => exact absurd (next_advance h.queue _) hnext
  | wake hw => exact absurd (next_advance (p := { p with busy := p.busy + 1 }) h.queue _) hnext
  | returnBody hw v => exact absurd (congrArg Queue.next (queue_putResult p _ v)) hnext
  | finish hw => exact absurd (next_finish h hw) hnext
  | join k => exact absurd (Queue.next_join _ _) hnext
  | detach k => exact absurd (Queue.next_detach _ _) hnext
  | unlink k => exact absurd (next_unlink p k) hnext
  | shutdown hactive => exact absurd (next_shutdown p) hnext
  | awaitWorkers hwoken => exact absurd (next_awaitWorkers p) hnext
  | drop => exact absurd (next_drop p) hnext
  | enterBody hw hs => exact absurd rfl hnext
  | panicBody hw => exact absurd rfl hnext
  | openGate task run => exact absurd rfl hnext

theorem Sections.noted (hs : Sections p p') (h : p.Sound) :
    p'.plan = p.plan ∧ p.journal <:+ p'.journal := by
  refine hs.induct (P := fun q => q.plan = p.plan ∧ p.journal <:+ q.journal) h
    ⟨rfl, List.suffix_rfl⟩ fun q q' hq hnoted hs => ?_
  obtain ⟨hplan, hjournal⟩ := hs.noted hq
  exact ⟨hplan.trans hnoted.1, hnoted.2.trans hjournal⟩

end Pool

/-- What is put in front of a list is what is new. -/
theorem newest_of_suffix {β : Type} {before after : List β} (h : before <:+ after) :
    newest before after ++ before = after := by
  obtain ⟨new, rfl⟩ := h
  rw [newest, List.length_append, Nat.add_sub_cancel, List.take_left]

namespace System

variable {α : Type} {s s' : System α}

theorem journal_submit (s : System α) (i a : Nat) : (s.submit i a).2.journal = s.journal := by
  obtain ⟨_, _, he⟩ := s.submit_frame i a
  rw [he]

/-- No thread notes anything for a task. -/
theorem journal_perform (s : System α) (m : Move) : (s.perform m).journal = s.journal := by
  obtain ⟨_, _, _, _, he⟩ := s.perform_frame m
  rw [he]

/-- A pool keeps its place, its plan and its notes, and tasks keep their notes. -/
structure NotesStay (s s' : System α) : Prop where
  pools : ∀ (i : Nat) (pool : Pool α), s.pools[i]? = some pool →
    ∃ pool', s'.pools[i]? = some pool' ∧ pool'.plan = pool.plan ∧ pool.journal <:+ pool'.journal
  tasks : s.journal <:+ s'.journal

end System

namespace Program

variable {α : Type} {p q : Program α}

theorem journal_suffix_act (p : Program α) (a : Action α) :
    p.system.journal <:+ (p.act a).system.journal := by
  cases a with
  | submit i a => exact (p.system.journal_submit i a) ▸ List.suffix_rfl
  | join a limit => exact (p.system.journal_call a limit) ▸ List.suffix_rfl
  | release a =>
    unfold act
    dsimp only
    split
    · exact List.suffix_rfl
    · exact List.suffix_cons _ _
  | detach a =>
    unfold act
    dsimp only
    split
    · exact List.suffix_rfl
    · exact List.suffix_cons _ _
  | giveBack l =>
    obtain ⟨_, he⟩ := p.giveBack_frame l
    exact he ▸ List.suffix_rfl
  | shutdown i => exact (p.system.journal_shutdown i) ▸ List.suffix_rfl
  | move m => exact (p.system.journal_perform m) ▸ List.suffix_rfl
  | _ => exact List.suffix_rfl

theorem Leads.notesStay (hp : p.Reachable) (h : Leads p q) : p.system.NotesStay q.system where
  pools := by
    intro i pool hi
    obtain ⟨pool', hi', hs⟩ := h.sections hi
    exact ⟨pool', hi', hs.noted (hp.poolsSound i pool hi)⟩
  tasks := by
    induction h with
    | refl => exact List.suffix_rfl
    | step a _ _ ih => exact ih.trans (journal_suffix_act _ a)

end Program

namespace System

variable {α : Type} {s s' : System α}

theorem Occurs.notesStay (h : s.Occurs) (hs : s.Brings s') : s.NotesStay s' := by
  obtain ⟨p, hp, hnone, rfl⟩ := h
  obtain ⟨q, hq, rfl, -⟩ := hs p rfl hnone
  exact hq.notesStay hp

end System

/-! ## 2. The names of the pools -/

namespace System

variable {α : Type} {s s' : System α} {schedule : Schedule α}

theorem length_pools_foldl (f : Submission → Pool α → Pool α) (xs : List Submission)
    (s : System α) :
    (xs.foldl (fun s x => s.modifyPool x.pool (f x)) s).pools.length = s.pools.length := by
  induction xs generalizing s with
  | nil => rfl
  | cons x rest ih => exact (ih _).trans (List.length_modify ..)

theorem length_pools_detach (s : System α) (a : Nat) :
    (s.detach a).pools.length = s.pools.length := by
  unfold System.detach
  dsimp only
  split <;> exact length_pools_foldl (fun x p => p.detach x.ticket) _ _

/-- No operation adds or removes a pool. -/
theorem Operates.length_pools (hop : Operates schedule s s') (hs : s.Occurs)
    (hschedule : Schedule.Diligent schedule) : s'.pools.length = s.pools.length := by
  cases hop with
  | addTask id body => rfl
  | submit i a => exact (s.spends_submit i a).pools.length_eq.symm
  | shutdown i =>
    unfold System.shutdown
    split
    · rfl
    · dsimp only
      split
      · exact List.length_modify ..
      · rfl
  | dropPool i => exact List.length_modify ..
  | refuseThreads refusal => rfl
  | openGate a run => exact List.length_map _
  | elapse ms => rfl
  | joinFor a limit =>
    obtain ⟨n, hwaits⟩ := s.waits_joinFor a limit
    exact hwaits.spends.pools.length_eq.symm.trans (congrArg List.length (s.pools_call a limit))
  | release hfree =>
    unfold System.release
    split
    · exact length_pools_foldl (fun x p => p.unlink x.ticket) _ s
    · rfl
  | settle =>
    obtain ⟨ms, hms⟩ := moves_settleWithin hschedule s s.budget
    exact (hms.spends hs).pools.length_eq.symm

theorem NotesStay.plans (h : s.NotesStay s') (hlength : s'.pools.length = s.pools.length) :
    s'.pools.map (·.plan) = s.pools.map (·.plan) := by
  refine List.ext_getElem? fun i => ?_
  rw [List.getElem?_map, List.getElem?_map]
  cases hi : s.pools[i]? with
  | none =>
    rw [List.getElem?_eq_none (hlength ▸ List.getElem?_eq_none_iff.mp hi)]
  | some pool =>
    obtain ⟨pool', hi', hplan, -⟩ := h.pools i pool hi
    rw [hi', Option.map_some, hplan]
    rfl

theorem Operations.plans (hops : Operations schedule s s') (hs : s.Occurs)
    (hschedule : Schedule.Diligent schedule) :
    s'.pools.map (·.plan) = s.pools.map (·.plan) :=
  (hops.induct (P := fun s' => s'.pools.map (·.plan) = s.pools.map (·.plan)) hs rfl
    fun _ _ hs hplans hop =>
      ((hs.notesStay hop.brings).plans (hop.length_pools hs hschedule)).trans hplans).2

end System

namespace Session

variable {α : Type} {S R : Session α} {schedule : Schedule α}

/-- The names of the pools differ, and a passing pool has noted its end and nothing else. -/
structure Named (S : Session α) : Prop where
  nodup : (S.system.pools.map (·.plan.name)).Nodup
  passing : ∀ p ∈ S.passing, p.journal = [.closed 0] ∨ p.journal = [.shutDown]

theorem Named.start (processors : Nat) : (start processors : Session α).Named :=
  ⟨List.nodup_nil, fun _ hp => nomatch hp⟩

/-- What a command may do to the notes of a session. -/
structure NotesStay (S R : Session α) : Prop where
  system : S.system.NotesStay R.system
  passing : S.passing <:+ R.passing

theorem Named.plans (h : S.Named)
    (hplans : R.system.pools.map (·.plan) = S.system.pools.map (·.plan))
    (hpassing : ∀ p ∈ R.passing, p.journal = [.closed 0] ∨ p.journal = [.shutDown]) :
    R.Named := by
  refine ⟨?_, hpassing⟩
  have hnames : R.system.pools.map (·.plan.name) = S.system.pools.map (·.plan.name) := by
    simpa [Function.comp_def] using congrArg (List.map Plan.name) hplans
  exact hnames ▸ h.nodup

theorem Settled.named_step (h : S.Settled) (hschedule : Schedule.Diligent schedule) (hS : S.Named)
    (c : Command α) : (Session.step schedule S c).2.Named := by
  have hsettles : (Session.step schedule S c).2.system.pools.map (·.plan) =
      (execute schedule S c).2.system.pools.map (·.plan) :=
    System.Operations.plans (.single (.settle _))
      (h.occurs.brings (leads_execute hschedule h c).1) hschedule
  suffices hR : (execute schedule S c).2.Named from hR.plans hsettles hR.passing
  cases h.effect_execute schedule c with
  | operates hop =>
    exact hS.plans (hop.operations.plans h.occurs hschedule) (hop.passing_eq ▸ hS.passing)
  | @detaches a hfree hsystem hpassing =>
    refine hS.plans ?_ (hpassing ▸ hS.passing)
    rw [hsystem]
    exact (h.occurs.notesStay (System.brings_detach hfree)).plans (S.system.length_pools_detach a)
  | builds id plan hname hsystem hpassing =>
    refine ⟨?_, hpassing ▸ hS.passing⟩
    rw [hsystem]
    simp only [System.addPool, List.map_append, List.map_cons, List.map_nil]
    refine List.nodup_append.mpr ⟨hS.nodup, List.nodup_singleton _, fun name hmem name' hmem' => ?_⟩
    obtain ⟨p, hp, rfl⟩ := List.mem_map.mp hmem
    obtain rfl := List.mem_singleton.mp hmem'
    exact hname p hp
  | passes p hjournal hsystem hpassing =>
    refine hS.plans (congrArg _ (congrArg System.pools hsystem)) (hpassing ▸ fun q hq => ?_)
    rcases List.mem_cons.mp hq with rfl | hq
    · exact hjournal
    · exact hS.passing q hq

theorem Settled.notesStay_step (h : S.Settled) (hschedule : Schedule.Diligent schedule)
    (c : Command α) : S.NotesStay (Session.step schedule S c).2 where
  system := h.occurs.notesStay (h.brings_step hschedule c)
  passing := by
    cases h.effect_execute schedule c with
    | operates hop => exact hop.passing_eq ▸ List.suffix_rfl
    | detaches _ _ hpassing => exact hpassing ▸ List.suffix_rfl
    | builds _ _ _ _ hpassing => exact hpassing ▸ List.suffix_rfl
    | passes p _ _ hpassing => exact hpassing ▸ List.suffix_cons _ _

/-! ## 3. The lines of a script -/

/-- The notes of the pools so far, each with the name of its pool. -/
def notes (S : Session α) : List (String × PoolNote) :=
  (S.system.pools ++ S.passing).flatMap fun p => p.journal.map fun n => (p.plan.name, n)

/-- The lines of everything that was noted. -/
def lines (S : Session α) : List String :=
  S.notes.map (fun note => note.2.render note.1) ++ S.system.journal.map TaskNote.render

/-- The notes of a list of pools, when a part of the notes of each was there before. -/
theorem perm_newest {β : Type} (f : Pool α → PoolNote → β) (old : Nat → Option (Pool α)) :
    ∀ (pools : List (Pool α)) (k : Nat),
      (∀ (i : Nat) (p q : Pool α), pools[i]? = some p → old (k + i) = some q →
        (f p = f q) ∧ q.journal <:+ p.journal) →
      (pools.flatMap fun p => p.journal.map (f p)).Perm
        (((pools.zipIdx k).flatMap fun e =>
            (newest ((old e.2).elim [] (·.journal)) e.1.journal).map (f e.1)) ++
          (List.range' k pools.length).flatMap fun i =>
            (old i).elim [] fun q => q.journal.map (f q))
  | [], _, _ => .refl _
  | p :: pools, k, h => by
    have hrest := perm_newest f old pools (k + 1) fun i p q hp hq =>
      h (i + 1) p q hp (by rwa [show k + (i + 1) = k + 1 + i by omega])
    have hp : p.journal.map (f p) =
        (newest ((old k).elim [] (·.journal)) p.journal).map (f p) ++
          (old k).elim [] fun q => q.journal.map (f q) := by
      cases hold : old k with
      | none => simp [newest]
      | some q =>
        obtain ⟨hf, hsuffix⟩ := h 0 p q rfl hold
        simp only [Option.elim_some, ← hf]
        rw [← List.map_append, newest_of_suffix hsuffix]
    simp only [List.zipIdx_cons, List.flatMap_cons, List.length_cons, List.range'_succ]
    rw [hp, List.append_assoc, List.append_assoc]
    exact ((hrest.append_left _).trans (List.perm_append_comm_assoc _ _ _)).append_left _

/-- A list is what is found at its places. -/
theorem flatMap_places {β γ : Type} (f : β → List γ) :
    ∀ (l : List β) (n : Nat), l.length ≤ n →
      ((List.range n).flatMap fun i => l[i]?.elim [] f) = l.flatMap f
  | [], n, _ => by simp
  | b :: l, 0, h => absurd h (by simp)
  | b :: l, n + 1, h => by
    rw [List.range_succ_eq_map, List.flatMap_cons, List.flatMap_map, List.flatMap_cons]
    exact congrArg _ (flatMap_places f l n (Nat.le_of_succ_le_succ h))

/-- **What was noted is what a log shows of it, and what had been noted before.** -/
theorem NotesStay.lines_perm (h : S.NotesStay R) : (S.logSince R ++ S.lines).Perm R.lines := by
  have hjournal (i : Nat) : S.poolJournal i = (S.system.pools[i]?).elim [] (·.journal) := by
    unfold poolJournal
    cases S.system.pools[i]? <;> rfl
  have hlength : S.system.pools.length ≤ R.system.pools.length := by
    by_contra hlt
    obtain ⟨p, hi⟩ : ∃ p, S.system.pools[R.system.pools.length]? = some p :=
      ⟨_, List.getElem?_eq_getElem (by omega)⟩
    obtain ⟨p', hi', -⟩ := h.system.pools _ p hi
    simp at hi'
  let f (p : Pool α) (n : PoolNote) : String := n.render p.plan.name
  have hpools := perm_newest f (fun i => S.system.pools[i]?) R.system.pools 0 fun i p q hp hq => by
    obtain ⟨p', hp', hplan, hsuffix⟩ := h.system.pools i q (by rwa [Nat.zero_add] at hq)
    obtain rfl := Option.some.inj (hp'.symm.trans hp)
    exact ⟨by simp only [f, hplan], hsuffix⟩
  rw [← List.range_eq_range', flatMap_places _ _ _ hlength] at hpools
  have hpassing := congrArg (List.flatMap fun p => p.journal.map (f p)) (newest_of_suffix h.passing)
  rw [List.flatMap_append] at hpassing
  have htasks := congrArg (List.map TaskNote.render) (newest_of_suffix h.system.tasks)
  rw [List.map_append] at htasks
  have hlines (S : Session α) : S.lines = (S.system.pools.flatMap fun p => p.journal.map (f p)) ++
      (S.passing.flatMap fun p => p.journal.map (f p)) ++ S.system.journal.map TaskNote.render := by
    simp [lines, notes, List.map_flatMap, List.map_map, Function.comp_def, f]
  rw [hlines R, hlines S, ← hpassing, ← htasks]
  have hlog : (S.logSince R).Perm
      ((R.system.pools.zipIdx.flatMap fun e =>
          (newest (S.poolJournal e.2) e.1.journal).map (f e.1)) ++
        ((newest S.passing R.passing).flatMap fun p => p.journal.map (f p)) ++
        (newest S.system.journal R.system.journal).map TaskNote.render) :=
    List.mergeSort_perm _ _
  simp only [hjournal] at hlog
  refine List.perm_iff_count.mpr fun line => ?_
  have hsorted := List.perm_iff_count.mp hlog line
  have hcount := List.perm_iff_count.mp hpools line
  simp only [List.count_append] at hsorted hcount ⊢
  omega

theorem Settled.named_after (h : S.Settled) (hschedule : Schedule.Diligent schedule)
    (hS : S.Named) (commands : List (Command α)) : (S.after schedule commands).Named := by
  induction commands generalizing S with
  | nil => exact hS
  | cons c rest ih => exact ih (h.step hschedule c) (h.named_step hschedule hS c)

/-- **The logs of a script show every line once**: those of the first reports are the lines of what
was noted until then. -/
theorem Settled.reports_lines (h : S.Settled) (hschedule : Schedule.Diligent schedule)
    (quiet : Bool) (commands rest : List (Command α)) :
    (((S.reports schedule quiet true (commands ++ rest)).take commands.length).flatMap
        (fun r => r.log.getD []) ++ S.lines).Perm (S.after schedule commands).lines := by
  induction commands generalizing S with
  | nil => exact .refl S.lines
  | cons c commands ih =>
    rw [List.cons_append, reports_cons, List.length_cons, List.take_succ_cons, List.flatMap_cons,
      List.append_assoc]
    have hrest := ih (h.step hschedule c)
    have hlog := (h.notesStay_step hschedule c).lines_perm
    exact (List.perm_append_comm_assoc _ _ _).trans ((hlog.append_left _).trans hrest)

theorem lines_start (processors : Nat) : (start processors : Session α).lines = [] := rfl

end Session
end WorkerPool
