/-
# Two systems in lockstep

A `Gap` says how far two runs are apart: which pool only the first of them has dropped, which joins
only the first has called, by how much its clock is ahead, and what either had noted when the
comparison began.  `Gap.Apart` says that two systems differ by no more than that.  Whatever is done
to both of two such systems, answers the same and leaves them apart by the same gap, provided that
nobody asks for the pool that is dropped in one of them.

The moves of the two correspond, so under the schedule that lets bodies go first they make them in
the same order, and settle side by side (`Apart.settle`).
-/
import WorkerPool.Proofs.Endings
import WorkerPool.Proofs.Lockstep.Pool

namespace WorkerPool

/-! ## 1. The gap -/

/-- The pool that a run of the body looks at or submits to, by its id. -/
def Body.poolOf? {α : Type} (b : Body α) (run : Nat) : Option String :=
  if b.panics.has run then none
  else
    match b.kind with
    | .observe pool _ => some pool
    | .submit on pool _ => if on.has run then some pool else none
    | _ => none

/-- How far two runs are apart. -/
structure Gap where
  /-- The place and the id of a pool that only the first run has dropped. -/
  hidden : Option (Nat × String)
  /-- So many joins both had called before the comparison began; -/
  before : Nat
  /-- and after them so many only the first. -/
  extra : Nat
  /-- The milliseconds that have passed in the first run only. -/
  lead : Nat
  /-- What the pools had noted, in the first run and in the second. -/
  poolNotes : Nat → List PoolNote × List PoolNote
  taskNotes : List TaskNote × List TaskNote

namespace Gap

variable {α : Type} (gap : Gap)

/-- The id is not the one of the pool that is dropped in one run. -/
def Spares (id : String) : Prop := ∀ i name, gap.hidden = some (i, name) → id ≠ name

/-- No pool is dropped in the first run only. -/
def IsFull : Prop := gap.hidden = none

/-- Where the first run has the join that the second has at place `n`. -/
def place (n : Nat) : Nat := if n < gap.before then n else n + gap.extra

/-- The move of the first run that corresponds to a move of the second. -/
def move : Move → Move
  | .joiner n => .joiner (gap.place n)
  | m => m

/-- Pool `i` of the two runs. -/
inductive Pools (i : Nat) : Pool α → Pool α → Prop where
  | alike (r : Pool α) (h : ∀ name, gap.hidden ≠ some (i, name)) :
      Pools i (r.older (gap.poolNotes i).1) (r.older (gap.poolNotes i).2)
  | dropped {p q : Pool α} {name : String} (h : gap.hidden = some (i, name))
      (htwin : Pool.DroppedTwin name p q) : Pools i p q

/-- A join of the two runs.  Once it is answered, its deadline does not matter. -/
structure Joins (j j' : Joiner α) : Prop where
  task : j.task = j'.task
  submission : j.submission = j'.submission
  state : j.state = j'.state
  deadline : j.answer? = none → j.deadline = j'.deadline.map (· + gap.lead)

/-- The first system is apart from the second by no more than the gap. -/
structure Apart (s t : System α) : Prop where
  pools : ∀ i : Nat, Option.Rel (gap.Pools i) s.pools[i]? t.pools[i]?
  /-- The comparison began before the pools to come. -/
  fresh : ∀ i, s.pools.length ≤ i → gap.poolNotes i = ([], []) ∧ ∀ name, gap.hidden ≠ some (i, name)
  tasks : s.tasks = t.tasks
  joins : ∀ n : Nat, Option.Rel gap.Joins s.joiners[gap.place n]? t.joiners[n]?
  before_le : gap.before ≤ t.joiners.length
  length_joiners : s.joiners.length = t.joiners.length + gap.extra
  /-- Nobody waits for the joins of the first run only. -/
  answered : ∀ n j, gap.before ≤ n → n < gap.before + gap.extra → s.joiners[n]? = some j →
    j.answer? ≠ none
  events : s.events = t.events
  journal : ∃ notes, s.journal = notes ++ gap.taskNotes.1 ∧ t.journal = notes ++ gap.taskNotes.2
  clock : s.clock = t.clock + gap.lead
  refusal : s.refusal = t.refusal
  processors : s.processors = t.processors

variable {gap}

theorem place_injective {n m : Nat} (h : gap.place n = gap.place m) : n = m := by
  unfold place at h
  split at h <;> split at h <;> omega

theorem place_lt_place {n m : Nat} : gap.place n < gap.place m ↔ n < m := by
  unfold place
  split <;> split <;> omega

/-- The place of a join, unless it is one of the first run only. -/
theorem place_cases (gap : Gap) (m : Nat) :
    (∃ n, m = gap.place n) ∨ gap.before ≤ m ∧ m < gap.before + gap.extra := by
  by_cases h : m < gap.before
  · exact Or.inl ⟨m, by rw [place, if_pos h]⟩
  · by_cases h' : m < gap.before + gap.extra
    · exact Or.inr ⟨by omega, h'⟩
    · refine Or.inl ⟨m - gap.extra, ?_⟩
      rw [place, if_neg (by omega)]
      omega

theorem place_not_between (gap : Gap) (n : Nat) :
    ¬(gap.before ≤ gap.place n ∧ gap.place n < gap.before + gap.extra) := by
  unfold place
  split <;> omega

/-! ## 2. Pools and joins beside each other -/

namespace Pools

variable {i : Nat} {p q : Pool α}

theorem queue_eq (h : gap.Pools i p q) : p.queue = q.queue := by
  cases h with
  | alike r _ => rfl
  | dropped _ htwin => exact htwin.queue_eq

theorem id_eq (h : gap.Pools i p q) : p.id = q.id := by
  cases h with
  | alike r _ => rfl
  | dropped _ htwin => exact htwin.id_left.trans htwin.id_right.symm

theorem plan_eq (h : gap.Pools i p q) : p.plan = q.plan := by
  cases h with
  | alike r _ => rfl
  | dropped _ htwin => exact htwin.plan_eq

theorem outcome_eq (h : gap.Pools i p q) (k : Ticket) : p.outcome k = q.outcome k := by
  cases h with
  | alike r _ => rfl
  | dropped _ htwin => exact htwin.outcome_eq k

theorem workerName_eq (h : gap.Pools i p q) (w : Nat) : p.workerName w = q.workerName w := by
  rw [Pool.workerName, Pool.workerName, h.plan_eq]

theorem blockedRuns_eq (h : gap.Pools i p q) (task : Nat) :
    p.blockedRuns task = q.blockedRuns task := by
  cases h with
  | alike r _ => rfl
  | dropped _ htwin => exact htwin.blockedRuns_eq task

theorem map_workers {β : Type} (h : gap.Pools i p q) {f : Phase → β}
    (hf : ∀ {phase phase'}, Phase.Beside phase phase' → f phase = f phase') :
    p.workers.map f = q.workers.map f := by
  cases h with
  | alike r _ => rfl
  | dropped _ htwin => exact htwin.map_workers hf

theorem isWoken_eq (h : gap.Pools i p q) : p.standing.isWoken = q.standing.isWoken := by
  cases h with
  | alike r _ => rfl
  | dropped _ htwin => rw [htwin.dropped, htwin.active]; rfl

/-- Unless it is the one that is dropped in one run only, a pool is in use in both or in none. -/
theorem isActive_eq (h : gap.Pools i p q) {id : String} (hid : gap.Spares id) :
    (p.id == id && p.isActive) = (q.id == id && q.isActive) := by
  cases h with
  | alike r _ => rfl
  | dropped hhidden htwin =>
    have hne := (hid _ _ hhidden).symm
    rw [htwin.id_left, htwin.id_right, beq_false_of_ne hne]
    rfl

/-- What does not read the journal and keeps a dropped pool beside its twin. -/
theorem map (h : gap.Pools i p q) {f : Pool α → Pool α} (hf : Pool.Blind f)
    (htwin : ∀ {name p q}, Pool.DroppedTwin name p q → Pool.DroppedTwin name (f p) (f q)) :
    gap.Pools i (f p) (f q) := by
  cases h with
  | alike r hne =>
    rw [hf, hf]
    exact .alike (f r) hne
  | dropped hhidden h => exact .dropped hhidden (htwin h)

end Pools

namespace Joins

variable {j j' : Joiner α}

theorem answer?_eq (h : gap.Joins j j') : j.answer? = j'.answer? := by
  rw [Joiner.answer?, Joiner.answer?, h.state]

theorem isWoken_eq (h : gap.Joins j j') : j.isWoken = j'.isWoken := by
  rw [Joiner.isWoken, Joiner.isWoken, h.state]

theorem isDue_eq (h : gap.Joins j j') (hp : j.answer? = none) (clock : Nat) :
    j.isDue (clock + gap.lead) = j'.isDue clock := by
  rw [Joiner.isDue, Joiner.isDue, h.deadline hp]
  cases j'.deadline with
  | none => rfl
  | some deadline => simp

theorem setState (h : gap.Joins j j') (state : JoinState α) (hp : j.answer? = none) :
    gap.Joins { j with state } { j' with state } :=
  ⟨h.task, h.submission, rfl, fun _ => h.deadline hp⟩

theorem wake (h : gap.Joins j j') : gap.Joins j.wake j'.wake := by
  obtain ⟨task, submission, deadline, state⟩ := j
  obtain ⟨task', submission', deadline', state'⟩ := j'
  obtain ⟨rfl, rfl, rfl, hdeadline⟩ := h
  cases state <;> exact ⟨rfl, rfl, rfl, hdeadline⟩

/-- An answered join is told nothing. -/
theorem wake_of_answered (h : gap.Joins j j') (hp : j.answer? ≠ none) (b b' : Bool) :
    gap.Joins (if b then j.wake else j) (if b' then j'.wake else j') := by
  have hsame : ∀ {j : Joiner α}, j.answer? ≠ none → j.wake = j := by
    rintro ⟨_, _, _, state⟩ hp
    cases state <;> first | rfl | exact absurd rfl hp
  rw [hsame hp, hsame (h.answer?_eq ▸ hp), ite_self, ite_self]
  exact h

end Joins

/-! ## 3. Looking at both -/

namespace Apart

variable {s t : System α}

theorem pool_cases (h : gap.Apart s t) (i : Nat) :
    s.pools[i]? = none ∧ t.pools[i]? = none ∨
      ∃ p q, s.pools[i]? = some p ∧ t.pools[i]? = some q ∧ gap.Pools i p q :=
  rel_cases (h.pools i)

theorem join_cases (h : gap.Apart s t) (n : Nat) :
    s.joiners[gap.place n]? = none ∧ t.joiners[n]? = none ∨
      ∃ j j', s.joiners[gap.place n]? = some j ∧ t.joiners[n]? = some j' ∧ gap.Joins j j' :=
  rel_cases (h.joins n)

theorem map_pools {β : Type} (h : gap.Apart s t) {f : Pool α → β}
    (hf : ∀ {i p q}, gap.Pools i p q → f p = f q) : s.pools.map f = t.pools.map f :=
  map_eq_of_rel h.pools fun _ _ _ => hf

theorem length_pools (h : gap.Apart s t) : s.pools.length = t.pools.length :=
  length_eq_of_rel h.pools

/-- A search that sees no difference finds the same place. -/
theorem findIdx?_congr {β γ : Type} {l : List β} {l' : List γ} {f : β → Bool} {g : γ → Bool}
    (h : l.map f = l'.map g) : l.findIdx? f = l'.findIdx? g := by
  have hmap : ∀ {δ : Type} (l : List δ) (f : δ → Bool),
      l.findIdx? f = (l.map f).findIdx? fun b => b :=
    fun l f => by rw [List.findIdx?_map]; rfl
  rw [hmap l f, hmap l' g, h]

theorem findPool?_eq (h : gap.Apart s t) {id : String} (hid : gap.Spares id) :
    s.findPool? id = t.findPool? id :=
  findIdx?_congr (h.map_pools fun hpools => hpools.isActive_eq hid)

/-- The pool that is found under its id is not the one that is dropped in one run only. -/
theorem alike_of_findPool? (h : gap.Apart s t) {id : String} (hid : gap.Spares id) {i : Nat}
    (hi : s.findPool? id = some i) :
    ∃ r : Pool α, s.pools[i]? = some (r.older (gap.poolNotes i).1) ∧
      t.pools[i]? = some (r.older (gap.poolNotes i).2) ∧ ∀ name, gap.hidden ≠ some (i, name) := by
  obtain ⟨hlt, hfound, -⟩ := List.findIdx?_eq_some_iff_getElem.mp hi
  obtain ⟨hname, -⟩ := (Bool.and_eq_true _ _).mp hfound
  rcases h.pool_cases i with ⟨hnone, -⟩ | ⟨p, q, hp, hq, hpools⟩
  · exact absurd hlt (Nat.not_lt.mpr (List.getElem?_eq_none_iff.mp hnone))
  · have hp' : s.pools[i] = p := Option.some.inj ((List.getElem?_eq_getElem hlt).symm.trans hp)
    rw [hp'] at hname
    cases hpools with
    | alike r hne => exact ⟨r, hp, hq, hne⟩
    | dropped hhidden htwin =>
      exact absurd ((eq_of_beq hname).symm.trans htwin.id_left) (hid _ _ hhidden)

theorem findTask?_eq (h : gap.Apart s t) (id : String) : s.findTask? id = t.findTask? id := by
  rw [System.findTask?, System.findTask?, h.tasks]

theorem record?_eq (h : gap.Apart s t) (x : Submission) : s.record? x = t.record? x := by
  unfold System.record?
  rcases h.pool_cases x.pool with ⟨hp, hq⟩ | ⟨p, q, hp, hq, hpools⟩ <;> rw [hp, hq]
  show p.queue.get? _ = q.queue.get? _
  rw [hpools.queue_eq]

theorem outcome_eq (h : gap.Apart s t) (x : Submission) : s.outcome x = t.outcome x := by
  unfold System.outcome
  rcases h.pool_cases x.pool with ⟨hp, hq⟩ | ⟨p, q, hp, hq, hpools⟩ <;> rw [hp, hq]
  exact hpools.outcome_eq x.ticket

theorem isSpent_eq (h : gap.Apart s t) (x : Submission) : s.isSpent x = t.isSpent x := by
  unfold System.isSpent
  rcases h.pool_cases x.pool with ⟨hp, hq⟩ | ⟨p, q, hp, hq, hpools⟩ <;> rw [hp, hq]
  show p.queue.isSpent _ = q.queue.isSpent _
  rw [hpools.queue_eq]

theorem submissions_eq (h : gap.Apart s t) (a : Nat) : s.submissions a = t.submissions a := by
  rw [System.submissions, System.submissions, h.tasks]

theorem taskStatus_eq (h : gap.Apart s t) (task : Task α) :
    s.taskStatus task = t.taskStatus task := by
  have hstatus : s.currentStatus? task = t.currentStatus? task := by
    unfold System.currentStatus?
    cases task.submissions.head? with
    | none => rfl
    | some x =>
      show (s.record? x >>= _) = (t.record? x >>= _)
      rw [h.record?_eq]
  rw [System.taskStatus, System.taskStatus, hstatus]

theorem blockedRuns_eq (h : gap.Apart s t) (a : Nat) : s.blockedRuns a = t.blockedRuns a := by
  rw [System.blockedRuns, System.blockedRuns, List.flatMap_def, List.flatMap_def,
    h.map_pools fun hpools => hpools.blockedRuns_eq a]

theorem observePool_eq (h : gap.Apart s t) {id : String} (hid : gap.Spares id) :
    s.observePool id = t.observePool id := by
  unfold System.observePool
  rw [← h.findPool?_eq hid]
  cases hi : s.findPool? id with
  | none => rfl
  | some i =>
    obtain ⟨r, hp, hq, -⟩ := h.alike_of_findPool? hid hi
    show (s.pools[i]? >>= _) = (t.pools[i]? >>= _)
    rw [hp, hq]
    rfl

theorem observeTask_eq (h : gap.Apart s t) (id : String) : s.observeTask id = t.observeTask id := by
  unfold System.observeTask
  rw [h.findTask?_eq, h.tasks]
  cases t.findTask? id with
  | none => rfl
  | some a =>
    show (t.tasks[a]? >>= _) = (t.tasks[a]? >>= _)
    cases t.tasks[a]? with
    | none => rfl
    | some task => exact congrArg some (h.taskStatus_eq task)

theorem answer?_eq (h : gap.Apart s t) (n : Nat) : s.answer? (gap.place n) = t.answer? n := by
  unfold System.answer?
  rcases h.join_cases n with ⟨hj, hj'⟩ | ⟨j, j', hj, hj', hjoins⟩ <;> rw [hj, hj']
  exact hjoins.answer?_eq

/-- A worker is in the same phase in both, or has left one and waits in the other. -/
theorem phase?_cases (h : gap.Apart s t) (i w : Nat) :
    s.phase? i w = t.phase? i w ∨
      s.phase? i w = some .exited ∧ t.phase? i w = some (.parked false) := by
  unfold System.phase?
  rcases h.pool_cases i with ⟨hp, hq⟩ | ⟨p, q, hp, hq, hpools⟩ <;> rw [hp, hq]
  · exact Or.inl rfl
  · show p.workers[w]? = q.workers[w]? ∨ p.workers[w]? = _ ∧ q.workers[w]? = _
    cases hpools with
    | alike r _ => exact Or.inl rfl
    | dropped _ htwin =>
      rcases rel_cases (htwin.workers w) with ⟨hw, hw'⟩ | ⟨phase, phase', hw, hw', hb⟩ <;>
        rw [hw, hw']
      · exact Or.inl rfl
      · cases hb with
        | same _ => exact Or.inl rfl
        | idle => exact Or.inr ⟨rfl, rfl⟩

end Apart
end Gap
end WorkerPool
