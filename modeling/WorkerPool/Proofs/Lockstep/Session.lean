/-
# Two sessions in lockstep

Two sessions that are apart by a gap carry out the same command: they answer the same and are apart
by the same gap afterwards, and what they report is the same (`Sessions.execute`, `Sessions.step`),
under every schedule that does not see the gap.  The command must not name the pool that only one of
them has dropped, and no body that ends meanwhile may have to do with it.
-/
import WorkerPool.Proofs.Lockstep.Moves
import WorkerPool.Proofs.Sessions

namespace WorkerPool

/-- The pool that a command asks for by its id. -/
def Command.pool? {α : Type} : Command α → Option String
  | .describePool id => some id
  | .shutdown id => some id
  | .dropPool id => some id
  | .submit pool _ => some pool
  | .submitTimes pool _ _ => some pool
  | _ => none

namespace Gap

variable {α : Type} (gap : Gap)

/-- The first session's entry for a join that the second left waiting. -/
def entry (e : PendingJoin) : PendingJoin := { e with joiner := gap.place e.joiner }

/-- The first session is apart from the second by no more than the gap. -/
structure Sessions (S T : Session α) : Prop where
  system : gap.Apart S.system T.system
  pending : S.pending = T.pending.map gap.entry
  unsized : S.unsized = T.unsized
  passing : S.passing = T.passing

/-- Two answers, and the sessions after them. -/
structure Outcomes {β : Type} (r r' : β × Session α) : Prop where
  answer : r.1 = r'.1
  session : gap.Sessions r.2 r'.2

/-- The command does not name the pool that is dropped in one run only. -/
def Allows (c : Command α) : Prop := ∀ id, c.pool? = some id → gap.Spares id

variable {gap} {S T : Session α}

@[simp] theorem entry_joiner (e : PendingJoin) : (gap.entry e).joiner = gap.place e.joiner := rfl

theorem entry_injective : Function.Injective gap.entry := by
  rintro ⟨name, task, n⟩ ⟨name', task', n'⟩ he
  obtain ⟨hname, htask, hn⟩ := PendingJoin.mk.inj he
  rw [PendingJoin.mk.injEq]
  exact ⟨hname, htask, place_injective hn⟩

namespace Sessions

/-! ## 1. Pools and tasks -/

theorem same {β : Type} (h : gap.Sessions S T) (b : β) : gap.Outcomes (b, S) (b, T) := ⟨rfl, h⟩

theorem withSystem (h : gap.Sessions S T) {s t : System α} (hst : gap.Apart s t) :
    gap.Sessions { S with system := s } { T with system := t } :=
  { h with system := hst }

theorem onPool (h : gap.Sessions S T) {id : String} (hid : gap.Spares id)
    {f g : Nat → Answer α × Session α}
    (hf : ∀ i (r : Pool α), S.system.pools[i]? = some (r.older (gap.poolNotes i).1) →
      T.system.pools[i]? = some (r.older (gap.poolNotes i).2) →
      (∀ name, gap.hidden ≠ some (i, name)) → S.system.findPool? id = some i →
      gap.Outcomes (f i) (g i)) :
    gap.Outcomes (S.onPool id f) (T.onPool id g) := by
  unfold Session.onPool
  rw [← h.system.findPool?_eq hid]
  cases hi : S.system.findPool? id with
  | none => exact h.same _
  | some i =>
    obtain ⟨r, hp, hq, hne⟩ := h.system.alike_of_findPool? hid hi
    exact hf i r hp hq hne hi

theorem onTask (h : gap.Sessions S T) (id : String) {f g : Nat → Answer α × Session α}
    (hf : ∀ a, S.system.findTask? id = some a → gap.Outcomes (f a) (g a)) :
    gap.Outcomes (S.onTask id f) (T.onTask id g) := by
  unfold Session.onTask
  rw [← h.system.findTask?_eq]
  cases ha : S.system.findTask? id with
  | none => exact h.same _
  | some a => exact hf a ha

theorem buildPool (h : gap.Sessions S T) (id : String) (settings : Settings) :
    gap.Outcomes (S.buildPool id settings) (T.buildPool id settings) := by
  have hany : ∀ f : Pool α → Bool, (∀ {i p q}, gap.Pools i p q → f p = f q) →
      S.system.pools.any f = T.system.pools.any f := by
    intro f hf
    have hmap := congrArg (List.any · fun b => b) (h.system.map_pools hf)
    rwa [List.any_map, List.any_map] at hmap
  unfold Session.buildPool
  rw [hany _ fun hpools => by rw [hpools.id_eq], h.system.processors]
  cases T.system.pools.any fun p => p.id == id with
  | true => exact h.same _
  | false =>
    rw [if_neg Bool.false_ne_true, if_neg Bool.false_ne_true]
    cases settings.plan T.system.processors with
    | error fault => exact h.same _
    | ok plan =>
      dsimp only
      rw [hany _ fun hpools => by rw [hpools.plan_eq]]
      cases T.system.pools.any fun p => p.plan.name == plan.name with
      | true =>
        rw [if_pos rfl, if_pos rfl]
        exact ⟨rfl, { h with passing := congrArg (_ :: ·) h.passing }⟩
      | false =>
        rw [if_neg Bool.false_ne_true, if_neg Bool.false_ne_true, h.unsized]
        exact ⟨rfl, { h with system := h.system.addPool id plan, unsized := rfl }⟩

theorem tryPool (h : gap.Sessions S T) (threads : Nat) :
    gap.Outcomes (S.tryPool threads) (T.tryPool threads) := by
  unfold Session.tryPool
  rw [h.system.processors]
  cases Settings.plan { threads := some threads } T.system.processors with
  | error fault => exact h.same _
  | ok plan =>
    dsimp only
    exact ⟨rfl, { h with passing := congrArg (_ :: ·) h.passing }⟩

theorem shutdown (h : gap.Sessions S T) {i : Nat} (hi : ∀ name, gap.hidden ≠ some (i, name)) :
    gap.Outcomes (S.shutdown i) (T.shutdown i) := by
  obtain ⟨hanswer, hapart⟩ := h.system.shutdown hi
  unfold Session.shutdown
  generalize S.system.shutdown i = result at *
  generalize T.system.shutdown i = result' at *
  obtain ⟨refused, s⟩ := result
  obtain ⟨refused', t⟩ := result'
  obtain rfl : refused = refused' := hanswer
  cases refused with
  | none => exact ⟨rfl, h.withSystem hapart⟩
  | some e => exact ⟨rfl, h.withSystem hapart⟩

theorem openGate (h : gap.Sessions S T) (a : Nat) (run : Option Nat) :
    gap.Outcomes (S.openGate a run) (T.openGate a run) := by
  unfold Session.openGate
  rw [h.system.blockedRuns_eq]
  dsimp only
  split
  · exact h.same _
  · exact ⟨rfl, h.withSystem (h.system.openGate a _)⟩

theorem findOrphan?_eq (h : gap.Sessions S T) :
    Session.findOrphan? S.system = Session.findOrphan? T.system := by
  unfold Session.findOrphan?
  rw [h.system.tasks, funext h.system.blockedRuns_eq]

theorem endTask (h : gap.Sessions S T) (id : String) {f g : Nat → Answer α × Session α}
    (hf : ∀ a, gap.Outcomes (f a) (g a)) :
    gap.Outcomes (S.endTask id f) (T.endTask id g) := by
  unfold Session.endTask
  have hany : (S.pending.any fun j => j.task == id) = T.pending.any fun j => j.task == id := by
    rw [h.pending, List.any_map]
    rfl
  rw [hany]
  split
  · exact h.same _
  · exact h.onTask id fun a _ => hf a

theorem release (h : gap.Sessions S T) (a : Nat) : gap.Outcomes (S.release a) (T.release a) := by
  obtain ⟨hanswer, hapart⟩ := h.system.release a
  unfold Session.release
  generalize S.system.release a = result at *
  generalize T.system.release a = result' at *
  obtain ⟨refused, s⟩ := result
  obtain ⟨refused', t⟩ := result'
  obtain rfl : refused = refused' := hanswer
  cases refused with
  | none => exact ⟨rfl, h.withSystem hapart⟩
  | some e => exact ⟨rfl, h.withSystem hapart⟩

/-! ## 2. What settles on its way -/

section Blind

variable {schedule : Schedule α} (hdiligent : Schedule.Diligent schedule)
  (hblind : gap.Overlooks schedule)

include hdiligent hblind

/-- Submissions one after the other, with the systems settling in between. -/
theorem submitTimes {s t : System α} (h : gap.Apart s t) (hs : s.Occurs) (ht : t.Occurs) {i : Nat}
    (hi : ∀ name, gap.hidden ≠ some (i, name)) (a times count : Nat)
    (hunseen : gap.Unseen s (Session.submitTimes schedule i a times count s).2) :
    (Session.submitTimes schedule i a times count s).1 =
        (Session.submitTimes schedule i a times count t).1 ∧
      gap.Apart (Session.submitTimes schedule i a times count s).2
        (Session.submitTimes schedule i a times count t).2 := by
  induction times generalizing s t count with
  | zero => exact ⟨rfl, h⟩
  | succ times ih =>
    obtain ⟨hreply, hsubmitted⟩ := h.submit hi a
    have hsubmits := s.brings_submit i a
    have hsubmits' := t.brings_submit i a
    unfold Session.submitTimes at hunseen ⊢
    generalize s.submit i a = result at *
    generalize t.submit i a = result' at *
    obtain ⟨reply, s'⟩ := result
    obtain ⟨reply', t'⟩ := result'
    obtain rfl : reply = reply' := hreply
    cases reply with
    | accepted =>
      have hs' := hs.brings hsubmits
      have ht' := ht.brings hsubmits'
      have hsettles := s'.brings_settle schedule
      have hrest := (Session.brings_submitTimes schedule
        (s'.settle schedule) i a times (count + 1)).1
      have hafter := hunseen.right hs hsubmits
      have hsettled := hsubmitted.settle hdiligent hblind hs' ht'
        (hafter.left (hs'.brings hsettles) hrest)
      exact ih hsettled (hs'.brings hsettles) (ht'.brings (t'.brings_settle schedule)) (count + 1)
        (hafter.right hs' hsettles)
    | failed e => exact ⟨rfl, hsubmitted⟩
    | noPool => exact ⟨rfl, hsubmitted⟩
    | noTask => exact ⟨rfl, hsubmitted⟩

/-- As much time passes for a join in progress in both. -/
theorem awaitJoin {s t : System α} (h : gap.Apart s t) (hs : s.Occurs) (ht : t.Occurs) {n : Nat}
    (hp : t.answer? n = none) (patience : Nat)
    (hunseen : gap.Unseen s (Session.awaitJoin schedule s (gap.place n) patience)) :
    gap.Apart (Session.awaitJoin schedule s (gap.place n) patience)
      (Session.awaitJoin schedule t n patience) := by
  have htime : Session.timeFor s (gap.place n) patience = Session.timeFor t n patience := by
    unfold Session.timeFor
    rcases h.join_cases n with ⟨hj, hj'⟩ | ⟨j, j', hj, hj', hjoins⟩ <;> rw [hj, hj']
    have hpending : j.answer? = none := by
      rw [hjoins.answer?_eq]
      simpa [System.answer?, hj'] using hp
    dsimp only
    rw [hjoins.deadline hpending, h.clock]
    cases j'.deadline with
    | none => rfl
    | some deadline =>
      show min (deadline + gap.lead - (t.clock + gap.lead)) patience = min (deadline - t.clock) _
      rw [Nat.add_sub_add_right]
  rw [Session.awaitJoin_eq, htime] at hunseen ⊢
  rw [Session.awaitJoin_eq]
  have hpasses := s.brings_elapse (Session.timeFor t n patience)
  exact (h.elapse _).settle hdiligent hblind (hs.brings hpasses) (ht.brings (t.brings_elapse _))
    (hunseen.right hs hpasses)

theorem waitFor (h : gap.Sessions S T) (hS : S.system.Occurs) (hT : T.system.Occurs)
    (n patience : Nat)
    (hunseen : gap.Unseen S.system
      (Session.waitFor schedule S (gap.place n) patience).2.system) :
    gap.Outcomes (Session.waitFor schedule S (gap.place n) patience)
      (Session.waitFor schedule T n patience) := by
  unfold Session.waitFor at hunseen ⊢
  rw [h.system.answer?_eq] at hunseen ⊢
  cases hp : T.system.answer? n with
  | some answer => exact h.same _
  | none =>
    rw [hp] at hunseen
    have hwaited := awaitJoin hdiligent hblind h.system hS hT hp patience hunseen
    exact ⟨hwaited.answer?_eq n, h.withSystem hwaited⟩

/-- A join that is begun in both, and what follows it. -/
theorem beginJoin (h : gap.Sessions S T) (limit : Option Patience) (hS : S.system.Occurs)
    (hT : T.system.Occurs) {id : String} {next next' : Nat → Session α → Answer α × Session α}
    (hbrings : ∀ (n : Nat) (s : System α), s.Brings (next n { S with system := s }).2.system)
    (hnext : ∀ (n : Nat) (s t : System α), s.Occurs → t.Occurs → gap.Apart s t →
      gap.Unseen s (next (gap.place n) { S with system := s }).2.system →
      gap.Outcomes (next (gap.place n) { S with system := s }) (next' n { T with system := t }))
    (hunseen : gap.Unseen S.system
      (Session.beginJoin schedule S id
        (fun a => S.system.joinFor a limit) next).2.system) :
    gap.Outcomes
      (Session.beginJoin schedule S id (fun a => S.system.joinFor a limit) next)
      (Session.beginJoin schedule T id (fun a => T.system.joinFor a limit) next') := by
  unfold Session.beginJoin at hunseen ⊢
  refine h.onTask id fun a ha => ?_
  obtain ⟨hanswer, hjoined⟩ := h.system.joinFor a limit
  have hbegins := S.system.brings_joinFor a limit
  have hbegins' := T.system.brings_joinFor a limit
  rw [Session.onTask, ha] at hunseen
  dsimp only at hunseen ⊢
  generalize S.system.joinFor a limit = result at *
  generalize T.system.joinFor a limit = result' at *
  obtain ⟨begun, s⟩ := result
  obtain ⟨e | n, t⟩ := result'
  · obtain rfl : begun = .error e := hanswer
    exact ⟨rfl, h.withSystem hjoined⟩
  · obtain rfl : begun = .ok (gap.place n) := hanswer
    have hs := hS.brings hbegins
    have ht := hT.brings hbegins'
    have hsettles := s.brings_settle schedule
    have hafter := hunseen.right hS hbegins
    exact hnext n _ _ (hs.brings hsettles) (ht.brings (t.brings_settle schedule))
      (hjoined.settle hdiligent hblind hs ht (hafter.left (hs.brings hsettles) (hbrings _ _)))
      (hafter.right hs hsettles)

theorem namedJoin (h : gap.Sessions S T) (limit : Option Patience) (hS : S.system.Occurs)
    (hT : T.system.Occurs) {name id : String}
    (hunseen : gap.Unseen S.system
      (Session.namedJoin schedule S name id fun a => S.system.joinFor a limit).2.system) :
    gap.Outcomes (Session.namedJoin schedule S name id fun a => S.system.joinFor a limit)
      (Session.namedJoin schedule T name id fun a => T.system.joinFor a limit) := by
  have hany : (S.pending.any fun j => j.name == name) = T.pending.any fun j => j.name == name := by
    rw [h.pending, List.any_map]
    rfl
  unfold Session.namedJoin at hunseen ⊢
  rw [hany] at hunseen ⊢
  cases hused : T.pending.any fun j => j.name == name with
  | true => exact h.same _
  | false =>
    rw [hused, if_neg Bool.false_ne_true] at hunseen
    rw [if_neg Bool.false_ne_true, if_neg Bool.false_ne_true]
    refine h.beginJoin hdiligent hblind limit hS hT (fun n s => ?_)
      (fun n s t _ _ hst _ => ?_) hunseen
    · dsimp only
      split <;> exact .refl s
    · dsimp only
      rw [hst.answer?_eq]
      cases t.answer? n with
      | some answer => exact ⟨rfl, h.withSystem hst⟩
      | none => exact ⟨rfl, { h.withSystem hst with pending := congrArg (_ :: ·) h.pending }⟩

theorem shortJoin (h : gap.Sessions S T) (hS : S.system.Occurs) (hT : T.system.Occurs)
    {id : String} {patience : Nat}
    (hunseen : gap.Unseen S.system (Session.shortJoin schedule S id patience).2.system) :
    gap.Outcomes (Session.shortJoin schedule S id patience)
      (Session.shortJoin schedule T id patience) := by
  refine h.beginJoin hdiligent hblind (some (.ms patience)) hS hT (fun n s => ?_)
    (fun n s t hs ht hst hsilent => ?_) hunseen
  · dsimp only [Session.waitFor]
    split
    · exact .refl s
    · exact Session.brings_awaitJoin s n patience
  · obtain ⟨hanswer, hsession⟩ :=
      (h.withSystem hst).waitFor hdiligent hblind hs ht n patience hsilent
    exact ⟨congrArg (fun answer => answer.elim .pending Session.joinAnswer) hanswer, hsession⟩

theorem collect (h : gap.Sessions S T) (hS : S.system.Occurs) (hT : T.system.Occurs)
    {name : String}
    (hunseen : gap.Unseen S.system (Session.collect schedule S name).2.system) :
    gap.Outcomes (Session.collect schedule S name)
      (Session.collect schedule T name) := by
  unfold Session.collect at hunseen ⊢
  have hfind : (S.pending.find? fun j => j.name == name) =
      (T.pending.find? fun j => j.name == name).map gap.entry := by
    rw [h.pending, List.find?_map]
    rfl
  rw [hfind] at hunseen ⊢
  cases hfound : T.pending.find? fun j => j.name == name with
  | none => exact h.same _
  | some e =>
    rw [hfound] at hunseen
    have hwaits := h.waitFor hdiligent hblind hS hT e.joiner collectPatience
    simp only [Option.map_some, entry_joiner] at hunseen ⊢
    generalize Session.waitFor schedule S (gap.place e.joiner) collectPatience = r at *
    generalize Session.waitFor schedule T e.joiner collectPatience = r' at *
    obtain ⟨answer, S'⟩ := r
    obtain ⟨answer', T'⟩ := r'
    cases answer with
    | none =>
      obtain ⟨hanswer, hsession⟩ := hwaits hunseen
      obtain rfl : none = answer' := hanswer
      exact ⟨rfl, hsession⟩
    | some answer =>
      obtain ⟨hanswer, hsession⟩ := hwaits hunseen
      obtain rfl : some answer = answer' := hanswer
      refine ⟨rfl, { hsession with pending := ?_ }⟩
      show S'.pending.erase (gap.entry e) = (T'.pending.erase e).map gap.entry
      rw [List.map_erase entry_injective, hsession.pending]

/-! ## 3. Commands -/

/-- **A command does the same in both sessions.** -/
theorem execute (h : gap.Sessions S T) (hS : S.system.Occurs) (hT : T.system.Occurs)
    {c : Command α} (hc : gap.Allows c)
    (hunseen : gap.Unseen S.system (Session.execute schedule S c).2.system) :
    gap.Outcomes (Session.execute schedule S c)
      (Session.execute schedule T c) := by
  cases c with
  | buildPool id settings => exact h.buildPool id settings
  | tryPool threads => exact h.tryPool threads
  | describePool id =>
    refine h.onPool (hc id rfl) fun i r hp hq _ _ => ⟨?_, h⟩
    show S.describePool id i = T.describePool id i
    unfold Session.describePool
    rw [hp, hq, h.unsized]
    rfl
  | shutdown id => exact h.onPool (hc id rfl) fun i _ _ _ hne _ => h.shutdown hne
  | dropPool id =>
    exact h.onPool (hc id rfl) fun i _ _ _ hne _ => ⟨rfl, h.withSystem (h.system.dropPool hne)⟩
  | denyThreads on => exact ⟨rfl, h.withSystem (h.system.refuseThreads _)⟩
  | createTask id body =>
    simp only [Session.execute]
    rw [← h.system.findTask?_eq]
    cases S.system.findTask? id with
    | some a => exact h.same _
    | none => exact ⟨rfl, h.withSystem (h.system.addTask id body)⟩
  | submit pool task =>
    obtain ⟨hreply, hapart⟩ := h.system.submitById (hc pool rfl) task
    exact ⟨congrArg Session.submitAnswer hreply, h.withSystem hapart⟩
  | submitTimes pool task times =>
    simp only [Session.execute] at hunseen ⊢
    refine h.onPool (hc pool rfl) fun i _ _ _ hne hi => h.onTask task fun a ha => ?_
    simp only [Session.onPool, hi, Session.onTask, ha] at hunseen
    obtain ⟨hanswer, hapart⟩ := submitTimes hdiligent hblind h.system hS hT hne a times 0 hunseen
    exact ⟨hanswer, h.withSystem hapart⟩
  | openGate task run => exact h.onTask task fun a _ => h.openGate a run
  | openOrphan =>
    simp only [Session.execute]
    rw [h.findOrphan?_eq]
    cases Session.findOrphan? T.system with
    | none => exact h.same _
    | some blocked => exact ⟨rfl, h.withSystem (h.system.openGate _ _)⟩
  | join task name => exact h.namedJoin hdiligent hblind none hS hT hunseen
  | joinWithin task patience name =>
    simp only [Session.execute, Session.boundedJoin] at hunseen ⊢
    cases hshort : patience.short? with
    | some n =>
      rw [hshort] at hunseen
      exact h.shortJoin hdiligent hblind hS hT hunseen
    | none =>
      cases name with
      | none => exact h.same _
      | some name =>
        rw [hshort] at hunseen
        exact h.namedJoin hdiligent hblind (some patience) hS hT hunseen
  | collect name => exact h.collect hdiligent hblind hS hT hunseen
  | release id => exact h.endTask id fun a => h.release a
  | detach id =>
    exact h.endTask id fun a => ⟨rfl, h.withSystem (h.system.detach a)⟩
  | describeTask id =>
    refine h.onTask id fun a _ => ⟨?_, h⟩
    show S.describeTask a = T.describeTask a
    rw [Session.describeTask, Session.describeTask, h.system.submissions_eq]
  | unknown => exact h.same _

theorem step (h : gap.Sessions S T) (hS : S.Settled) (hT : T.Settled) {c : Command α}
    (hc : gap.Allows c)
    (hunseen : gap.Unseen S.system (Session.step schedule S c).2.system) :
    gap.Outcomes (Session.step schedule S c)
      (Session.step schedule T c) := by
  have hleads := (Session.leads_execute hdiligent hS c).1
  have hleads' := (Session.leads_execute hdiligent hT c).1
  have hs := hS.occurs.brings hleads
  have ht := hT.occurs.brings hleads'
  have hsettles :=
    (Session.execute schedule S c).2.system.brings_settle schedule
  obtain ⟨hanswer, hsession⟩ := h.execute hdiligent hblind hS.occurs hT.occurs hc
    (hunseen.left hs hsettles)
  exact ⟨hanswer, hsession.withSystem
    (hsession.system.settle hdiligent hblind hs ht (hunseen.right hS.occurs hleads))⟩

end Blind

end Sessions
end Gap

/-! ## 4. Reports -/

/-- What is new does not depend on what was there before the comparison began. -/
theorem newest_append {β : Type} (before after older : List β) :
    newest (before ++ older) (after ++ older) = newest before after := by
  rw [newest, newest, List.length_append, List.length_append, Nat.add_sub_add_right,
    List.take_append_of_le_length (Nat.sub_le _ _)]

/-- The report without the counters of the pools with an id, and without its log. -/
def Report.hiding {α : Type} (r : Report α) (id : String) : Report α :=
  { r with
    view := r.view.map fun v => { v with pools := v.pools.filter fun e => e.1 != id }
    log := none }

namespace Gap

variable {α : Type}

/-- What a report shows of what is the same in both runs. -/
def shows (gap : Gap) (r : Report α) : Report α :=
  match gap.hidden with
  | none => r
  | some (_, name) => r.hiding name

namespace Sessions

variable {gap : Gap} {S T S' T' : Session α} {schedule : Schedule α}

theorem eventsSince_eq (h : gap.Sessions S T) (h' : gap.Sessions S' T') :
    S.eventsSince S' = T.eventsSince T' := by
  rw [Session.eventsSince, Session.eventsSince, h.system.events, h'.system.events]

theorem view_tasks_eq (h : gap.Sessions S T) : S.view.tasks = T.view.tasks := by
  show (S.system.tasks.filter _).map _ = (T.system.tasks.filter _).map _
  rw [h.system.tasks]
  refine List.map_congr_left fun t _ => ?_
  rw [h.system.taskStatus_eq]

/-- The pools in use look the same, but for those that have the id of the one that is dropped in
one run only. -/
theorem view_pools_eq (h : gap.Sessions S T) {shown : String × PoolCounts → Bool}
    (hshown : ∀ i name counts, gap.hidden = some (i, name) → shown (name, counts) = false) :
    S.view.pools.filter shown = T.view.pools.filter shown := by
  let look (p : Pool α) : Option (String × PoolCounts) :=
    if shown (p.id, p.counts) && p.isActive then some (p.id, p.counts) else none
  have hview : ∀ pools : List (Pool α),
      ((pools.filter (·.isActive)).map fun p => (p.id, p.counts)).filter shown =
        (pools.map look).filterMap fun seen => seen := by
    intro pools
    induction pools with
    | nil => rfl
    | cons p rest ih =>
      cases hactive : p.isActive <;> cases hp : shown (p.id, p.counts) <;>
        simp_all [look]
  show ((S.system.pools.filter _).map _).filter shown =
    ((T.system.pools.filter _).map _).filter shown
  rw [hview, hview, h.system.map_pools fun hpools => ?_]
  cases hpools with
  | alike r _ => rfl
  | dropped hhidden htwin =>
    simp only [look, htwin.inactive, htwin.id_right, hshown _ _ _ hhidden, Bool.and_false,
      Bool.false_and, Bool.false_eq_true, if_false]

theorem poolJournal_eq (h : gap.Sessions S T) (hfull : gap.IsFull) (i : Nat) :
    ∃ notes, S.poolJournal i = notes ++ (gap.poolNotes i).1 ∧
      T.poolJournal i = notes ++ (gap.poolNotes i).2 := by
  unfold Session.poolJournal
  rcases h.system.pool_cases i with ⟨hp, hq⟩ | ⟨p, q, hp, hq, hpools⟩
  · obtain ⟨hnotes, -⟩ := h.system.fresh i (List.getElem?_eq_none_iff.mp hp)
    rw [hp, hq, hnotes]
    exact ⟨[], rfl, rfl⟩
  · rw [hp, hq]
    cases hpools with
    | alike r _ => exact ⟨r.journal, rfl, rfl⟩
    | dropped hhidden _ => exact absurd (hfull.symm.trans hhidden) (by simp)

/-- Both note the same, if no pool is dropped in one run only. -/
theorem logSince_eq (h : gap.Sessions S T) (h' : gap.Sessions S' T') (hfull : gap.IsFull) :
    S.logSince S' = T.logSince T' := by
  have htasks : newest S.system.journal S'.system.journal =
      newest T.system.journal T'.system.journal := by
    obtain ⟨notes, hS, hT⟩ := h.system.journal
    obtain ⟨notes', hS', hT'⟩ := h'.system.journal
    rw [hS, hT, hS', hT', newest_append, newest_append]
  unfold Session.logSince
  dsimp only
  rw [htasks, h.passing, h'.passing]
  -- what is left is what the pools have noted
  congr 3
  rw [List.flatMap_def, List.flatMap_def]
  congr 1
  refine List.ext_getElem? fun i => ?_
  rw [List.getElem?_map, List.getElem?_map, List.getElem?_zipIdx, List.getElem?_zipIdx]
  rcases h'.system.pool_cases i with ⟨hp, hq⟩ | ⟨p, q, hp, hq, hpools⟩ <;> rw [hp, hq]
  · rfl
  · obtain ⟨notes, hS, hT⟩ := h.poolJournal_eq hfull i
    simp only [Option.map_some, Nat.zero_add, hS, hT]
    cases hpools with
    | alike r _ =>
      show some ((newest _ (r.journal ++ _)).map _) = some ((newest _ (r.journal ++ _)).map _)
      rw [newest_append, newest_append]
      rfl
    | dropped hhidden _ => exact absurd (hfull.symm.trans hhidden) (by simp)

theorem report_eq (h : gap.Sessions S T) (h' : gap.Sessions S' T') (brief log : Bool)
    (answer : Answer α) :
    gap.shows (Session.report brief log answer S S') =
      gap.shows (Session.report brief log answer T T') := by
  unfold shows
  cases hhidden : gap.hidden with
  | none =>
    have hview : S'.view = T'.view := by
      have hpools : S'.view.pools.filter (fun _ => true) = T'.view.pools.filter fun _ => true :=
        h'.view_pools_eq fun i name _ hi => absurd (hhidden.symm.trans hi) (by simp)
      simp only [List.filter_true] at hpools
      exact congrArg₂ View.mk hpools h'.view_tasks_eq
    simp only [Session.report, hview, h.eventsSince_eq h', h.logSince_eq h' hhidden]
  | some place =>
    obtain ⟨i, name⟩ := place
    have hpools : (S'.view.pools.filter fun e => e.1 != name) =
        T'.view.pools.filter fun e => e.1 != name :=
      h'.view_pools_eq fun i' name' _ hi => by
        obtain ⟨-, rfl⟩ := Prod.mk.inj (Option.some.inj (hhidden.symm.trans hi))
        simp
    simp only [Session.report, Report.hiding, h.eventsSince_eq h']
    cases brief with
    | true => rfl
    | false =>
      simp only [Bool.false_eq_true, if_false, Option.map_some, hpools, h'.view_tasks_eq]

/-- **Two sessions report the same on the same commands.** -/
theorem reports_eq (h : gap.Sessions S T) (hdiligent : Schedule.Diligent schedule)
    (hblind : gap.Overlooks schedule) (hS : S.Settled) (hT : T.Settled)
    {commands : List (Command α)} (hallows : ∀ c ∈ commands, gap.Allows c)
    (hunseen : gap.Unseen S.system (S.after schedule commands).system)
    (quiet log : Bool) :
    (S.reports schedule quiet log commands).map gap.shows =
      (T.reports schedule quiet log commands).map gap.shows := by
  induction commands generalizing S T with
  | nil => rfl
  | cons c rest ih =>
    have hsteps := hS.brings_step hdiligent c
    have hS' := hS.step hdiligent c
    have hT' := hT.step hdiligent c
    have hrest := hS'.brings_after hdiligent rest
    obtain ⟨hanswer, hstep⟩ := h.step hdiligent hblind hS hT (hallows c List.mem_cons_self)
      (hunseen.left (hS.occurs.brings hsteps) hrest)
    rw [Session.reports_cons, Session.reports_cons, List.map_cons, List.map_cons, hanswer,
      h.report_eq hstep,
      ih hstep hS' hT' (fun c' hc' => hallows c' (List.mem_cons_of_mem _ hc'))
        (hunseen.right hS.occurs hsteps)]

end Sessions
end Gap
end WorkerPool
