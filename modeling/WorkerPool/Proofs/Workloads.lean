/-
# Workloads lose nothing

A burst has its submissions accepted while the pool has room, and a storm all of them.  Whatever
is accepted is run and answered, is released, and leaves the pool without a record, so that it can
be shut down (`burst_loses_nothing`, `storm_loses_nothing`).  That is for bodies that wait at no
gate and submit nothing; nobody could be sure of an answer otherwise.

Both are runs of `forEach`.  What each step keeps of the system (`Orderly`), of the tasks and of the
answers so far is kept by the whole run (`forEach_induct`).
-/
import WorkerPool.Proofs.Orderly
import WorkerPool.Workload

namespace WorkerPool

variable {α : Type}

theorem Body.isPlain_plain {kind : Kind α} (hkind : ∀ on pool task, kind ≠ .submit on pool task)
    (panics : RunSet) (payload : α) : (Body.plain kind panics payload).IsPlain :=
  ⟨rfl, hkind⟩

/-- An answer of a body that was run: its value, or that it panicked. -/
def IsServed (answer : Except Failure (Value α)) : Prop :=
  (∃ v, answer = .ok v) ∨ answer = .error .taskPanicked

/-- What a join of the task number `a` answers when the first `k` tasks were accepted. -/
def IsAnswer (k a : Nat) (answer : Except Failure (Value α)) : Prop :=
  if a < k then IsServed answer else answer = .error .notSubmitted

/-- Each client of a storm has an answer to each of its tasks, whose body was run, and the pool is
left without a trace of them. -/
structure StormReport.Lossless (report : StormReport α) (clients perClient : Nat) : Prop where
  length_results : report.results.length = clients
  served : ∀ answers ∈ report.results,
    answers.length = perClient ∧ ∀ answer ∈ answers, IsServed answer
  withinCapacity : report.withinCapacity = true
  left : report.left = 0
  shutdown : report.shutdown = none

/-- Of the `n` tasks of a burst those are accepted that the pool has room for; they are the ones
that are served, all are released, and the pool is left without a trace of them. -/
structure BurstReport.Lossless (report : BurstReport α) (n limit : Nat) : Prop where
  submits : report.submits =
    (List.range n).map fun a => if a < limit then .accepted else .failed .tooManyTasks
  queued : report.queued = min n limit
  served : List.Forall₂ (IsAnswer limit) (List.range n) report.joins
  finished : report.finished = min n limit
  withinCapacity : report.withinCapacity = true
  released : report.released = n
  left : report.left = 0
  shutdown : report.shutdown = none

namespace Workload

variable {s s' : System α} {plan : Plan}

/-! ## 1. One thing after the other -/

/-- What every step keeps, the whole run keeps. -/
theorem forEach_induct {β γ : Type} {f : System α → β → γ × System α}
    {P : List β → List γ → System α → Prop} (items : List β) (hstart : P [] [] s)
    (hstep : ∀ done b rest answers s, items = done ++ b :: rest → P done answers s →
      P (done ++ [b]) (answers ++ [(f s b).1]) (f s b).2) :
    P items (forEach f s items).1 (forEach f s items).2 := by
  have hfrom : ∀ (rest done : List β) (answers : List γ) (s : System α), items = done ++ rest →
      P done answers s → P items (answers ++ (forEach f s rest).1) (forEach f s rest).2 := by
    intro rest
    induction rest with
    | nil =>
      intro done answers s hitems h
      rw [hitems, List.append_nil, forEach, List.append_nil]
      exact h
    | cons b rest ih =>
      intro done answers s hitems h
      have hnext := ih (done ++ [b]) (answers ++ [(f s b).1]) (f s b).2 (by simp [hitems])
        (hstep done b rest answers s hitems h)
      rwa [List.append_assoc] at hnext
  exact hfrom items [] [] s rfl hstart

/-- The number that comes after so many. -/
theorem eq_length_of_range {n b : Nat} {done rest : List Nat}
    (h : List.range n = done ++ b :: rest) : b = done.length ∧ done.length < n := by
  have hlength := congrArg List.length h
  rw [List.length_range, List.length_append, List.length_cons] at hlength
  have hlt : done.length < n := by omega
  have hb := congrArg (·[done.length]?) h
  simp only [List.getElem?_range hlt, List.getElem?_append_right (Nat.le_refl _), Nat.sub_self,
    List.getElem?_cons_zero, Option.some.injEq] at hb
  exact ⟨hb.symm, hlt⟩

/-! ## 2. Joins and releases -/

/-- Nobody has anything to do, and the first pool has the plan. -/
structure Quiet (plan : Plan) (s : System α) : Prop where
  orderly : s.Orderly
  rests : s.Rests
  pool : ∃ p, s.pools[0]? = some p ∧ p.plan = plan

/-- A step that leaves a system in order and at rest leaves its first pool the plan. -/
theorem Quiet.brings (h : Quiet plan s) (hbrings : s.Brings s') (horderly : s'.Orderly)
    (hrests : s'.Rests) : Quiet plan s' := by
  obtain ⟨p, hp, hplan⟩ := h.pool
  obtain ⟨p', hp', hplan'⟩ := hbrings.plan_eq h.orderly.occurs hp
  exact ⟨horderly, hrests, p', hp', hplan'.trans hplan⟩

/-- **A join that waits for its answer** has nothing to join, or is served, and then nobody needs
the record of the submission any more. -/
theorem Quiet.joinNow_cases (h : Quiet plan s) (a : Nat) :
    s.submissions a = [] ∧ joinNow s a = (.error .notSubmitted, s) ∨
      ∃ x, (s.submissions a).head? = some x ∧ IsServed (joinNow s a).1 ∧
        Quiet plan (joinNow s a).2 ∧ (joinNow s a).2.tasks = s.tasks ∧
        (joinNow s a).2.isSpent x = true ∧
        ∀ y, s.isSpent y = true → (joinNow s a).2.isSpent y = true := by
  rcases h.orderly.joinFor_cases h.rests a with ⟨hnone, he⟩ | ⟨x, hx, he, horderly, hspent⟩
  · refine Or.inl ⟨hnone, ?_⟩
    unfold joinNow System.join
    rw [he]
  · have hrests := h.rests.joinAnswered a x none
    have hjoin : joinNow s a = (s.outcome x, s.joinAnswered a x none) := by
      unfold joinNow System.join
      rw [he]
      dsimp only
      rw [hrests.settle_eq System.inTurns_diligent]
      simp [System.answer?, System.joinAnswered, Joiner.answer?]
    have hbrings := s.brings_joinFor a none
    rw [he] at hbrings
    rw [hjoin]
    exact Or.inr ⟨x, hx, s.outcome_cases x, h.brings hbrings horderly hrests, rfl, hspent,
      fun y hy => System.isSpent_join hy x⟩

/-- **A release of a task that nobody needs is granted.** -/
theorem Quiet.release (h : Quiet plan s) {a : Nat} {t : Task α} (ht : s.tasks[a]? = some t)
    (hlive : t.fate = .live) (hspent : ∀ x ∈ t.submissions, s.isSpent x = true) :
    (s.release a).1 = none ∧ Quiet plan (s.release a).2 ∧
      (s.release a).2.tasks = s.tasks.modify a (·.retire .released) ∧
      ∀ x, s.isSpent x = true → (s.release a).2.isSpent x = true := by
  obtain ⟨hgranted, horderly, hrests, htasks, hstays⟩ :=
    h.orderly.release h.rests ht hlive hspent
  have hfree : s.IsFree a := fun j hj _ => h.orderly.answered j hj
  exact ⟨hgranted, h.brings (System.brings_release hfree) horderly hrests, htasks, hstays⟩

/-- **Who submitted a task is served**, and can release it. -/
theorem Quiet.serves (h : Quiet plan s) {a : Nat} {t : Task α} {x : Submission}
    (ht : s.tasks[a]? = some t) (hlive : t.fate = .live) (hx : t.submissions = [x]) :
    IsServed (joinNow s a).1 ∧ Quiet plan ((joinNow s a).2.release a).2 ∧
      ((joinNow s a).2.release a).2.tasks = s.tasks.modify a (·.retire .released) := by
  have hsubmissions : s.submissions a = [x] := by
    simp [System.submissions, ht, Task.isLive, hlive, hx]
  rcases h.joinNow_cases a with ⟨hnone, -⟩ | ⟨x', hx', hserved, hjoined, hsame, hspent, -⟩
  · exact absurd (hsubmissions.symm.trans hnone) (by simp)
  rw [hsubmissions] at hx'
  obtain rfl : x = x' := Option.some.inj hx'
  have ht' : (joinNow s a).2.tasks[a]? = some t := by
    rw [hsame]
    exact ht
  obtain ⟨-, hquiet, htasks, -⟩ := hjoined.release ht' hlive (by simpa [hx] using hspent)
  exact ⟨hserved, hquiet, by rw [htasks, hsame]⟩

/-- A system in order comes to rest in order. -/
theorem quiet_settle (h : s.Orderly) {p : Pool α} (hp : s.pools[0]? = some p)
    (hplan : p.plan = plan) : Quiet plan (s.settle System.inTurns) := by
  obtain ⟨p', hp', hplan'⟩ := (s.brings_settle System.inTurns).plan_eq h.occurs hp
  exact ⟨(h.settle System.inTurns_diligent).1, h.occurs.rests_settle System.inTurns_diligent,
    p', hp', hplan'.trans hplan⟩

/-- Where runs are all that differs, a task has its twin. -/
theorem twin_of_uncounted (htasks : s'.tasks.map Task.uncounted = s.tasks.map Task.uncounted)
    {a : Nat} {t : Task α} (ht : s'.tasks[a]? = some t) :
    ∃ t', s.tasks[a]? = some t' ∧ t.fate = t'.fate ∧ t.submissions = t'.submissions := by
  have hmap : s'.tasks[a]?.map Task.uncounted = s.tasks[a]?.map Task.uncounted := by
    rw [← List.getElem?_map, ← List.getElem?_map, htasks]
  rw [ht] at hmap
  obtain ⟨t', ht', he⟩ := Option.map_eq_some_iff.mp hmap.symm
  exact ⟨t', ht', (congrArg Task.fate he).symm, (congrArg Task.submissions he).symm⟩

theorem queuedCount_eq {i : Nat} {p : Pool α} (hi : s.pools[i]? = some p) :
    queuedCount s i = p.queue.size := by
  rw [queuedCount, hi]

/-! ## 3. Storms -/

/-- Nobody has anything to do, and no task is in use. -/
structure Idle (plan : Plan) (s : System α) : Prop extends Quiet plan s where
  released : ∀ (a : Nat) (t : Task α), s.tasks[a]? = some t → t.fate = .released

theorem idle_addPool (processors : Nat) (id : String) (plan : Plan) :
    Idle plan ((System.start processors : System α).addPool id plan) where
  orderly := by
    constructor
    · have hstart : (System.start processors : System α).Occurs :=
        ⟨.start processors, ⟨processors, .refl⟩, rfl, rfl⟩
      exact hstart.brings (System.brings_addPool _ id plan)
    · rfl
    · intro p hp
      rw [List.mem_singleton.mp hp]
      exact ⟨rfl, fun phase hmem => absurd hmem List.not_mem_nil⟩
    · exact fun t ht => absurd ht List.not_mem_nil
    · exact fun t ht => absurd ht List.not_mem_nil
    · exact fun j hj => absurd hj List.not_mem_nil
  rests := System.Rests.addPool (fun m => by cases m <;> rfl) id plan
  pool := ⟨_, rfl, rfl⟩
  released := fun a t ht => absurd (List.mem_of_getElem? ht) List.not_mem_nil

namespace Idle

/-- An idle pool has no record. -/
theorem vacant (h : Idle plan s) :
    ∃ p, s.pools[0]? = some p ∧ p.plan = plan ∧ p.queue.size = 0 := by
  obtain ⟨p, hp, hplan⟩ := h.pool
  refine ⟨p, hp, hplan, (h.orderly.size_eq hp).trans (List.length_eq_zero_iff.mpr ?_)⟩
  refine List.flatMap_eq_nil_iff.mpr fun t ht => if_neg ?_
  obtain ⟨a, ha⟩ := List.getElem?_of_mem ht
  simp [h.released a t ha]

/-- **What is idle is left without a trace**: no worker too many, no record, and the pool can be
shut down. -/
theorem cleared (h : Idle plan s) :
    withinCapacity s 0 = true ∧ queuedCount s 0 = 0 ∧ (s.shutdown 0).1 = none := by
  obtain ⟨p, hp, -, hsize⟩ := h.vacant
  refine ⟨?_, ?_, h.orderly.shutdown hp hsize⟩
  · have hsound := h.orderly.occurs.poolsSound 0 p hp
    simpa [withinCapacity, hp] using hsound.counted.threads_le
  · exact (queuedCount_eq hp).trans hsize

/-- A task that is new is accepted and runs, and all others stay released. -/
theorem accepts (h : Idle plan s) {body : Body α} (hbody : body.IsPlain) :
    let called := (s.addTask "" body).submit 0 s.tasks.length
    let ran := called.2.settle System.inTurns
    called.1 = .accepted ∧ Quiet plan ran ∧
      (∃ t x, ran.tasks[s.tasks.length]? = some t ∧ t.fate = .live ∧ t.submissions = [x]) ∧
      ∀ (b : Nat) (t : Task α), s.tasks.length ≠ b → ran.tasks[b]? = some t →
        t.fate = .released := by
  intro called ran
  obtain ⟨p, hp, hplan, hsize⟩ := h.vacant
  have ha : (s.addTask "" body).tasks[s.tasks.length]? = some ⟨"", body, 0, [], .live⟩ :=
    List.getElem?_concat_length
  obtain ⟨hsubmitted, _, -, hcase⟩ := (h.orderly.addTask "" hbody).submit (i := 0) hp ha rfl
  rw [hsize, hplan, if_pos plan.limit_pos] at hcase
  obtain ⟨haccepted, -, x, htasks⟩ := hcase
  obtain ⟨hran, huncounted⟩ := hsubmitted.settle System.inTurns_diligent
  have hbrings : s.Brings ran :=
    ((s.brings_addTask "" body).trans (System.brings_submit _ 0 _)).trans
      (called.2.brings_settle System.inTurns)
  refine ⟨haccepted, h.brings hbrings hran
    (hsubmitted.occurs.rests_settle System.inTurns_diligent), ?_, ?_⟩
  · have htwin : called.2.tasks[s.tasks.length]? = some ⟨"", body, 0, [x], .live⟩ := by
      rw [htasks, List.getElem?_modify_eq, ha]
      rfl
    obtain ⟨t, ht, hfate, hsubmissions⟩ := twin_of_uncounted huncounted.symm htwin
    exact ⟨t, x, ht, hfate.symm, hsubmissions.symm⟩
  · intro b t hb ht
    obtain ⟨t', ht', hfate, -⟩ := twin_of_uncounted huncounted ht
    rw [htasks, List.getElem?_modify_ne _ _ hb] at ht'
    have hlt := (List.getElem?_eq_some_iff.mp ht').1
    have hlength : (s.addTask "" body).tasks.length = s.tasks.length + 1 := List.length_append
    have hold : (s.addTask "" body).tasks[b]? = s.tasks[b]? :=
      List.getElem?_append_left (by omega)
    exact hfate.trans (h.released b t' (hold.symm.trans ht'))

/-- **A client whose turn comes is served**, and leaves nothing behind. -/
theorem oneTask (h : Idle plan s) {body : Body α} (hbody : body.IsPlain) :
    IsServed (oneTask s body).1 ∧ Idle plan (oneTask s body).2 := by
  obtain ⟨haccepted, hquiet, ⟨t, x, ht, hlive, hx⟩, hothers⟩ := h.accepts hbody
  let a := s.tasks.length
  let called := (s.addTask "" body).submit 0 a
  let ran := called.2.settle System.inTurns
  have hturn : Workload.oneTask s body =
      ((joinNow ran a).1, ((joinNow ran a).2.release a).2) := by
    have hcalled : (s.addTask "" body).submit 0 s.tasks.length = (.accepted, called.2) :=
      Prod.ext haccepted rfl
    unfold Workload.oneTask
    dsimp only
    rw [hcalled]
  obtain ⟨hserved, hquiet', htasks⟩ := hquiet.serves ht hlive hx
  rw [hturn]
  refine ⟨hserved, hquiet', fun b u hu => ?_⟩
  rw [htasks] at hu
  by_cases hb : a = b
  · subst hb
    rw [List.getElem?_modify_eq, ht] at hu
    obtain rfl := Option.some.inj hu
    simp [Task.retire, Task.isLive, hlive]
  · rw [List.getElem?_modify_ne _ _ hb] at hu
    exact hothers b u hb hu

/-- **A round of clients is served**, each in its turn. -/
theorem round (h : Idle plan s) {body : Nat → Body α} (hbody : ∀ c, (body c).IsPlain)
    (clients : List Nat) :
    let called := forEach (fun s c => Workload.oneTask s (body c)) s clients
    (called.1.length = clients.length ∧ ∀ answer ∈ called.1, IsServed answer) ∧
      Idle plan called.2 := by
  refine forEach_induct (f := fun s c => Workload.oneTask s (body c)) (s := s)
    (P := fun done answers s => (answers.length = done.length ∧
      ∀ answer ∈ answers, IsServed answer) ∧ Idle plan s)
    clients ⟨⟨rfl, by simp⟩, h⟩ ?_
  rintro done c rest answers s - ⟨⟨hlength, hserved⟩, hidle⟩
  obtain ⟨hanswer, hnext⟩ := hidle.oneTask (hbody c)
  refine ⟨⟨by simp [hlength], fun answer hmem => ?_⟩, hnext⟩
  rcases List.mem_append.mp hmem with hmem | hmem
  · exact hserved answer hmem
  · rw [List.mem_singleton.mp hmem]
    exact hanswer

end Idle

/-- **A storm loses nothing.** -/
theorem storm_loses_nothing (plan : Plan) (clients perClient : Nat) {body : Nat → Nat → Body α}
    (hbody : ∀ c i, (body c i).IsPlain) :
    (storm plan clients perClient body).Lossless clients perClient := by
  let started : System α := (System.start 1).addPool plan.name plan
  let round (s : System α) (i : Nat) : List (Except Failure (Value α)) × System α :=
    forEach (fun s c => oneTask s (body c i)) s (List.range clients)
  obtain ⟨hlength, hrounds, hidle⟩ := forEach_induct (f := round)
    (P := fun done rounds s => rounds.length = done.length ∧
      (∀ r ∈ rounds, r.length = clients ∧ ∀ answer ∈ r, IsServed answer) ∧ Idle plan s)
    (s := started) (List.range perClient)
    ⟨rfl, by simp, idle_addPool 1 plan.name plan⟩ (by
      rintro done i rest rounds s - ⟨hlength, hrounds, hidle⟩
      obtain ⟨hanswers, hnext⟩ := hidle.round (fun c => hbody c i) (List.range clients)
      rw [List.length_range] at hanswers
      refine ⟨by simp [hlength], fun r hmem => ?_, hnext⟩
      rcases List.mem_append.mp hmem with hmem | hmem
      · exact hrounds r hmem
      · rw [List.mem_singleton.mp hmem]
        exact hanswers)
  obtain ⟨hwithin, hleft, hshutdown⟩ := hidle.cleared
  refine ⟨by simp [storm], fun answers hmem => ?_, hwithin, hleft, hshutdown⟩
  -- the answers to one client are those of all rounds at one place
  obtain ⟨c, hc, rfl⟩ := List.mem_map.mp hmem
  refine ⟨?_, fun answer hanswer => ?_⟩
  · have hsome (r : List (Except Failure (Value α)))
        (hr : r ∈ (forEach round started (List.range perClient)).1) : r[c]?.isSome := by
      have hlt : c < r.length := (hrounds r hr).1.symm ▸ List.mem_range.mp hc
      rw [List.getElem?_eq_getElem hlt, Option.isSome_some]
    show ((forEach round started (List.range perClient)).1.filterMap (·[c]?)).length = perClient
    rw [List.length_filterMap_eq_countP, List.countP_eq_length.mpr hsome, hlength,
      List.length_range]
  · obtain ⟨r, hr, hget⟩ := List.mem_filterMap.mp hanswer
    exact (hrounds r hr).2 answer (List.mem_of_getElem? hget)

/-! ## 4. Bursts -/

/-- All of `n` tasks are in use, and the first `k` of them were submitted, once each. -/
structure Laden (n k : Nat) (s : System α) : Prop where
  length_tasks : s.tasks.length = n
  live : ∀ t ∈ s.tasks, t.fate = .live
  submitted : ∀ (a : Nat) (t : Task α), s.tasks[a]? = some t →
    t.submissions.length = if a < k then 1 else 0

section Laden

variable {n k : Nat}

theorem Laden.getElem? (h : Laden n k s) {a : Nat} (ha : a < n) :
    ∃ t, s.tasks[a]? = some t ∧ t.fate = .live ∧
      t.submissions.length = if a < k then 1 else 0 := by
  have ht := List.getElem?_eq_getElem (h.length_tasks.symm ▸ ha)
  exact ⟨_, ht, h.live _ (List.mem_of_getElem? ht), h.submitted a _ ht⟩

/-- Runs are not counted. -/
theorem Laden.of_uncounted (h : Laden n k s)
    (htasks : s'.tasks.map Task.uncounted = s.tasks.map Task.uncounted) : Laden n k s' where
  length_tasks := by
    have hlength := congrArg List.length htasks
    rw [List.length_map, List.length_map] at hlength
    exact hlength.trans h.length_tasks
  live := System.forall_mem_of_uncounted (fun _ => Iff.rfl) htasks h.live
  submitted := by
    intro a t ht
    obtain ⟨t', ht', -, hsubmissions⟩ := twin_of_uncounted htasks ht
    exact hsubmissions ▸ h.submitted a t' ht'

/-- There are no tasks but the `n`. -/
theorem Laden.of_min (h : Laden n (min n k) s) : Laden n k s where
  length_tasks := h.length_tasks
  live := h.live
  submitted := by
    intro a t ht
    have hlt := (List.getElem?_eq_some_iff.mp ht).1
    rw [h.length_tasks] at hlt
    exact (h.submitted a t ht).trans (if_congr (by omega) rfl rfl)

/-- One submission more. -/
theorem Laden.submit (h : Laden n k s) {x : Submission}
    (htasks : s'.tasks =
      s.tasks.modify k fun t => { t with submissions := x :: t.submissions }) :
    Laden n (k + 1) s' where
  length_tasks := by rw [htasks, List.length_modify, h.length_tasks]
  live := by
    rw [htasks]
    exact System.forall_mem_modify (P := fun t : Task α => t.fate = .live)
      (f := fun t => { t with submissions := x :: t.submissions }) (fun _ ht => ht) h.live k
  submitted := by
    intro a t ht
    rw [htasks] at ht
    by_cases ha : k = a
    · subst ha
      rw [List.getElem?_modify_eq] at ht
      obtain ⟨t', ht', rfl⟩ := Option.map_eq_some_iff.mp ht
      have hfirst := h.submitted k t' ht'
      rw [if_neg (Nat.lt_irrefl k)] at hfirst
      simp [hfirst]
    · rw [List.getElem?_modify_ne _ _ ha] at ht
      rw [h.submitted a t ht]
      exact if_congr (by omega) rfl rfl

end Laden

/-- The tasks of a burst are new. -/
theorem laden_foldl (bodies : List (Body α)) {s : System α} (h : s.Orderly) {n : Nat}
    (hladen : Laden n 0 s) (hbodies : ∀ body ∈ bodies, body.IsPlain) :
    let s' := bodies.foldl (fun s body => s.addTask "" body) s
    s'.Orderly ∧ Laden (n + bodies.length) 0 s' ∧ s'.pools = s.pools := by
  induction bodies generalizing s n with
  | nil => exact ⟨h, hladen, rfl⟩
  | cons body rest ih =>
    have hadded : Laden (n + 1) 0 (s.addTask "" body) := by
      constructor
      · rw [← hladen.length_tasks]
        exact List.length_append
      · intro t ht
        rcases List.mem_append.mp ht with ht | ht
        · exact hladen.live t ht
        · rw [List.mem_singleton.mp ht]
      · intro a t ht
        rcases List.mem_append.mp (List.mem_of_getElem? ht) with hmem | hmem
        · obtain ⟨b, hb⟩ := List.getElem?_of_mem hmem
          exact hladen.submitted b t hb
        · rw [List.mem_singleton.mp hmem]
          rfl
    have hrest := ih (h.addTask "" (hbodies body List.mem_cons_self)) hadded
      fun b hb => hbodies b (List.mem_cons_of_mem _ hb)
    rw [Nat.add_right_comm, Nat.add_assoc] at hrest
    exact hrest

/-- **The submissions of a burst** are accepted while there is room, and refused from then on. -/
theorem submits_eq (h : s.Orderly) {n : Nat} (hladen : Laden n 0 s) {p : Pool α}
    (hp : s.pools[0]? = some p) (hplan : p.plan = plan) (hsize : p.queue.size = 0) :
    let called := forEach (fun s task => s.submit 0 task) s (List.range n)
    called.1 = ((List.range n).map fun i =>
        if i < plan.limit then .accepted else .failed .tooManyTasks) ∧
      called.2.Orderly ∧ Laden n plan.limit called.2 ∧
      ∃ p, called.2.pools[0]? = some p ∧ p.plan = plan ∧ p.queue.size = min n plan.limit := by
  have hrun := forEach_induct (f := fun (s : System α) task => s.submit 0 task) (s := s)
    (P := fun done answers s => answers = (done.map fun i =>
        if i < plan.limit then .accepted else .failed .tooManyTasks) ∧
      s.Orderly ∧ Laden n (min done.length plan.limit) s ∧
      ∃ p, s.pools[0]? = some p ∧ p.plan = plan ∧ p.queue.size = min done.length plan.limit)
    (List.range n)
    ⟨rfl, h, by simpa using hladen, p, hp, hplan, by simpa using hsize⟩ ?_
  · rw [List.length_range] at hrun
    exact ⟨hrun.1, hrun.2.1, hrun.2.2.1.of_min, hrun.2.2.2⟩
  rintro done b rest answers s hitems ⟨hanswers, horderly, hladen, p, hp, hplan, hsize⟩
  obtain ⟨rfl, hlt⟩ := eq_length_of_range hitems
  obtain ⟨t, ht, hlive, -⟩ := hladen.getElem? hlt
  obtain ⟨hnext, p', hp', hcase⟩ := horderly.submit hp ht hlive
  obtain ⟨p'', hp'', hplan'⟩ := (s.brings_submit 0 done.length).plan_eq horderly.occurs hp
  obtain rfl : p' = p'' := Option.some.inj (hp'.symm.trans hp'')
  rw [hsize, hplan] at hcase
  rw [List.map_append, List.length_append, List.length_singleton, ← hanswers]
  by_cases hroom : done.length < plan.limit
  · rw [if_pos (by omega)] at hcase
    obtain ⟨hreply, hsize', x, htasks⟩ := hcase
    rw [Nat.min_eq_left (by omega)] at hladen hsize'
    rw [Nat.min_eq_left (by omega)]
    refine ⟨?_, hnext, hladen.submit htasks, p', hp', hplan'.trans hplan, hsize'⟩
    simp [hreply, hroom]
  · rw [if_neg (by omega)] at hcase
    obtain ⟨hreply, hsize', htasks⟩ := hcase
    rw [Nat.min_eq_right (by omega)] at hladen hsize'
    rw [Nat.min_eq_right (by omega)]
    refine ⟨?_, hnext, hladen.of_uncounted (by rw [htasks]), p', hp', hplan'.trans hplan, hsize'⟩
    simp [hreply, hroom]

/-- **The joins of a burst**, in whatever order, serve what was submitted, and then nobody needs a
record of it any more. -/
theorem joins_eq (h : Quiet plan s) {n k : Nat} (hladen : Laden n k s) (items : List Nat)
    (hitems : ∀ a ∈ items, a < n) :
    let called := forEach joinNow s items
    List.Forall₂ (IsAnswer k) items called.1 ∧ Quiet plan called.2 ∧ Laden n k called.2 ∧
      ∀ a ∈ items, ∀ t, called.2.tasks[a]? = some t →
        ∀ x ∈ t.submissions, called.2.isSpent x = true := by
  refine forEach_induct (f := joinNow) (s := s)
    (P := fun done answers s => List.Forall₂ (IsAnswer k) done answers ∧ Quiet plan s ∧
      Laden n k s ∧ ∀ a ∈ done, ∀ t, s.tasks[a]? = some t → ∀ x ∈ t.submissions,
        s.isSpent x = true)
    items ⟨.nil, h, hladen, by simp⟩ ?_
  rintro done b rest answers s hsplit ⟨hanswers, hquiet, hladen, hspent⟩
  obtain ⟨t, ht, hlive, hlength⟩ := hladen.getElem? (hitems b (by simp [hsplit]))
  have hsubmissions : s.submissions b = t.submissions := by
    simp [System.submissions, ht, Task.isLive, hlive]
  rcases hquiet.joinNow_cases b with ⟨hnone, he⟩ | ⟨x, hx, hserved, hnext, htasks, hjoined, hstays⟩
  · -- there is nothing to join
    rw [hsubmissions] at hnone
    have hb : ¬b < k := fun hb => by simp [hnone, hb] at hlength
    rw [he]
    refine ⟨List.rel_append hanswers (.cons (if_neg hb |>.mpr rfl) .nil), hquiet, hladen, ?_⟩
    intro a ha u hu
    rcases List.mem_append.mp ha with ha | ha
    · exact hspent a ha u hu
    · obtain rfl := List.mem_singleton.mp ha
      obtain rfl : t = u := Option.some.inj (ht.symm.trans hu)
      simp [hnone]
  · rw [hsubmissions] at hx
    have hb : b < k := by
      by_contra hb
      rw [if_neg hb, List.length_eq_zero_iff] at hlength
      exact absurd hx (by simp [hlength])
    have honly : t.submissions = [x] := by
      rw [if_pos hb] at hlength
      obtain ⟨y, hy⟩ := List.length_eq_one_iff.mp hlength
      rw [hy] at hx ⊢
      rw [Option.some.inj hx]
    refine ⟨List.rel_append hanswers (.cons (if_pos hb |>.mpr hserved) .nil), hnext,
      hladen.of_uncounted (by rw [htasks]), ?_⟩
    intro a ha u hu
    rw [htasks] at hu
    rcases List.mem_append.mp ha with ha | ha
    · exact fun y hy => hstays y (hspent a ha u hu y hy)
    · obtain rfl := List.mem_singleton.mp ha
      obtain rfl : t = u := Option.some.inj (ht.symm.trans hu)
      simpa [honly] using hjoined

/-- So many of the first `n` numbers are below `k`. -/
theorem countP_range_lt (n k : Nat) : (List.range n).countP (fun a => a < k) = min n k := by
  induction n with
  | zero => simp
  | succ n ih =>
    rw [List.range_succ, List.countP_append, ih, List.countP_singleton]
    split <;> simp_all <;> omega

/-- What was submitted has finished when nobody has anything to do. -/
theorem countP_isFinished (h : Quiet plan s) {n k : Nat} (hladen : Laden n k s) :
    (List.range n).countP (isFinished s) = min n k := by
  refine (List.countP_congr fun a ha => ?_).trans (countP_range_lt n k)
  obtain ⟨t, ht, hlive, hlength⟩ := hladen.getElem? (List.mem_range.mp ha)
  unfold isFinished
  rw [ht, Option.any_some, decide_eq_true_eq]
  by_cases hk : a < k
  · rw [if_pos hk] at hlength
    obtain ⟨x, hx⟩ := List.length_eq_one_iff.mp hlength
    have hmem : x ∈ s.submissions a := by
      simp [System.submissions, ht, Task.isLive, hlive, hx]
    obtain ⟨r, hr⟩ := h.orderly.occurs.record_of_owned hmem
    simp [System.taskStatus, System.currentStatus?, hx, hr, h.orderly.finished h.rests hr, hk]
  · rw [if_neg hk, List.length_eq_zero_iff] at hlength
    simp [System.taskStatus, System.currentStatus?, hlength, hk]

/-- **The releases of a burst** are all granted. -/
theorem releases_eq (h : Quiet plan s) {n k : Nat} (hladen : Laden n k s)
    (hspent : ∀ (a : Nat) (t : Task α), s.tasks[a]? = some t → ∀ x ∈ t.submissions,
      s.isSpent x = true) :
    let called := forEach (fun (s : System α) task => s.release task) s (List.range n)
    called.1.countP (·.isNone) = n ∧ Idle plan called.2 := by
  have hrun := forEach_induct (f := fun (s : System α) task => s.release task) (s := s)
    (P := fun done answers s => answers.countP (·.isNone) = done.length ∧ Quiet plan s ∧
      s.tasks.length = n ∧ ∀ (a : Nat) (t : Task α), s.tasks[a]? = some t →
        if a < done.length then t.fate = .released
        else t.fate = .live ∧ ∀ x ∈ t.submissions, s.isSpent x = true)
    (List.range n)
    ⟨rfl, h, hladen.length_tasks, fun a t ht =>
      ⟨hladen.live t (List.mem_of_getElem? ht), hspent a t ht⟩⟩ ?_
  · obtain ⟨hcount, hquiet, hlength, hreleased⟩ := hrun
    rw [List.length_range] at hcount hreleased
    refine ⟨hcount, hquiet, fun a t ht => ?_⟩
    have hdone := hreleased a t ht
    rwa [if_pos (hlength ▸ (List.getElem?_eq_some_iff.mp ht).1)] at hdone
  rintro done b rest answers s hitems ⟨hcount, hquiet, hlength, hreleased⟩
  obtain ⟨rfl, hlt⟩ := eq_length_of_range hitems
  have ht := List.getElem?_eq_getElem (hlength.symm ▸ hlt)
  obtain ⟨hlive, hspent⟩ := by simpa using hreleased _ _ ht
  obtain ⟨hgranted, hnext, htasks, hstays⟩ := hquiet.release ht hlive hspent
  rw [List.length_append, List.length_singleton]
  refine ⟨by simp [hcount, hgranted], hnext, by rw [htasks, List.length_modify, hlength], ?_⟩
  intro a u hu
  rw [htasks] at hu
  by_cases ha : done.length = a
  · subst ha
    rw [List.getElem?_modify_eq, ht] at hu
    obtain rfl := Option.some.inj hu
    simp [Task.retire, Task.isLive, hlive]
  · rw [List.getElem?_modify_ne _ _ ha] at hu
    have hold := hreleased a u hu
    split
    · rwa [if_pos (by omega)] at hold
    · rw [if_neg (by omega)] at hold
      exact ⟨hold.1, fun x hx => hstays x (hold.2 x hx)⟩

/-- **A burst loses nothing.** -/
theorem burst_loses_nothing (plan : Plan) {bodies : List (Body α)} (backwards : Bool)
    (hbodies : ∀ body ∈ bodies, body.IsPlain) :
    (burst plan bodies backwards).Lossless bodies.length plan.limit := by
  let started : System α := (System.start 1).addPool plan.name plan
  have hidle : Idle plan started := idle_addPool 1 plan.name plan
  obtain ⟨p, hp, hplan, hsize⟩ := hidle.vacant
  -- the tasks are submitted one after the other
  let laden := bodies.foldl (fun s body => s.addTask "" body) started
  obtain ⟨horderly, hladen, hpools⟩ := laden_foldl bodies hidle.orderly (n := 0)
    ⟨rfl, fun t ht => absurd ht List.not_mem_nil,
      fun a t ht => absurd (List.mem_of_getElem? ht) List.not_mem_nil⟩ hbodies
  rw [Nat.zero_add] at hladen
  obtain ⟨hsubmits, hsubmitted, hsome, p', hp', hplan', hqueued⟩ :=
    submits_eq horderly hladen (hpools ▸ hp) hplan hsize
  -- they run
  have hquiet := quiet_settle hsubmitted hp' hplan'
  have hran := hsome.of_uncounted (hsubmitted.settle System.inTurns_diligent).2
  -- they are joined
  have hjoins := joins_eq hquiet hran
    (if backwards then (List.range bodies.length).reverse else List.range bodies.length)
    (by cases backwards <;> simp)
  obtain ⟨hserved, hjoined, hladen', hspent⟩ := hjoins
  have hfinished := countP_isFinished hjoined hladen'
  -- and are released
  obtain ⟨hreleased, hcleared⟩ := releases_eq hjoined hladen' fun a t ht =>
    hspent a (by
      have hlt := (List.getElem?_eq_some_iff.mp ht).1
      rw [hladen'.length_tasks] at hlt
      cases backwards <;> simpa using hlt) t ht
  obtain ⟨hwithin, hleft, hshutdown⟩ := hcleared.cleared
  constructor
  · exact hsubmits
  · exact (queuedCount_eq hp').trans hqueued
  · cases backwards with
    | false => exact hserved
    | true =>
      have hreversed := List.rel_reverse hserved
      rwa [if_pos rfl, List.reverse_reverse] at hreversed
  · exact hfinished
  · exact hwithin
  · exact hreleased
  · exact hleft
  · exact hshutdown

end Workload
end WorkerPool
