/-
# Who marked a record joined

A record carries a mark that it was joined, and says nothing of who left it.  A join without a
deadline leaves it when its wait begins, one with a deadline when it finds the record finished, and
one that runs out of time never.  `Ledger.Marked` says what the mark stands for: behind each there
is a join that has returned, or one that is bound to, and behind each join that has returned there
is a mark.  When no join of a task is in progress, the marks of its records are therefore the joins
that have returned (`Reachable.isSpent_iff`).
-/
import WorkerPool.Proofs.Joins

namespace WorkerPool

open Function (update)

/-! ## 1. The invariant -/

namespace Joiner

variable {α : Type} {j : Joiner α}

/-- The join was answered, and not because its time ran out. -/
def Returned (j : Joiner α) : Prop :=
  ∃ answer, j.answer? = some answer ∧ answer ≠ .error .timeout

/-- The join has returned, or cannot but return: it is in progress without a deadline, or its
record `r` has finished. -/
def Vouches (j : Joiner α) (r : Record Job) : Prop :=
  j.Returned ∨ j.answer? = none ∧ (j.deadline = none ∨ r.status = .finished)

theorem Vouches.mono {r r' : Record Job} (h : j.Vouches r)
    (hs : r.status = .finished → r'.status = .finished) : j.Vouches r' :=
  h.imp_right fun ⟨hp, hdone⟩ => ⟨hp, hdone.imp_right hs⟩

end Joiner

namespace Ledger

variable {α : Type} {g g' : Ledger α}

/-- Marks and joins agree. -/
structure Marked (g : Ledger α) : Prop where
  vouched : ∀ x r, g.record x = some r → r.joined = true →
    ∃ n j, g.joiner n = some j ∧ j.submission = x ∧ j.Vouches r
  kept : ∀ n j r, g.joiner n = some j → j.Returned → g.record j.submission = some r →
    r.joined = true

theorem Marked.start (processors : Nat) :
    (Program.start processors : Program α).ledger.Marked := by
  constructor <;> simp [Program.start, Program.ledger, System.start, System.record?]

/-! ## 2. Every tick keeps it -/

/-- What the invariant reads. -/
theorem Marked.congr (h : g.Marked) (hrecord : g'.record = g.record)
    (hjoiner : g'.joiner = g.joiner) : g'.Marked := by
  constructor
  · rw [hrecord, hjoiner]
    exact h.vouched
  · rw [hrecord, hjoiner]
    exact h.kept

/-- One record goes on, or goes: its mark stays as it is. -/
theorem Marked.setRecord (h : g.Marked) {x : Submission} {r? : Option (Record Job)}
    (hr : ∀ r', r? = some r' → ∃ r, g.record x = some r ∧ r'.joined = r.joined ∧
      (r.status = .finished → r'.status = .finished)) :
    { g with record := update g.record x r? }.Marked := by
  have hback {y : Submission} {r' : Record Job} (hy : update g.record x r? y = some r') :
      ∃ r, g.record y = some r ∧ r'.joined = r.joined ∧
        (r.status = .finished → r'.status = .finished) := by
    rw [Function.update_apply] at hy
    split at hy
    · next hyx => exact hyx ▸ hr r' hy
    · exact ⟨r', hy, rfl, id⟩
  constructor
  · intro y r' hy hjoined
    obtain ⟨r, hr, hsame, hs⟩ := hback hy
    obtain ⟨n, j, hj, hx, hvouches⟩ := h.vouched y r hr (hsame ▸ hjoined)
    exact ⟨n, j, hj, hx, hvouches.mono hs⟩
  · intro n j r' hj hreturned hy
    obtain ⟨r, hr, hsame, -⟩ := hback hy
    exact hsame.trans (h.kept n j r hj hreturned hr)

/-- Joins may be told to look again. -/
theorem Marked.mapJoins (h : g.Marked) {f : Joiner α → Joiner α}
    (hf : ∀ j, f j = j ∨ f j = j.wake) :
    { g with joiner := fun n => (g.joiner n).map f }.Marked := by
  have hsame (j : Joiner α) : (f j).submission = j.submission ∧ (f j).deadline = j.deadline ∧
      (f j).answer? = j.answer? := by
    rcases hf j with he | he <;> rw [he] <;> simp
  constructor
  · intro x r hr hjoined
    obtain ⟨n, j, hj, hx, hvouches⟩ := h.vouched x r hr hjoined
    obtain ⟨hsubmission, hdeadline, hanswer⟩ := hsame j
    refine ⟨n, f j, Option.map_eq_some_iff.mpr ⟨j, hj, rfl⟩, hsubmission.trans hx, ?_⟩
    rwa [Joiner.Vouches, Joiner.Returned, hanswer, hdeadline]
  · intro n j' r hj' hreturned hr
    obtain ⟨j, hj, rfl⟩ := Option.map_eq_some_iff.mp hj'
    obtain ⟨hsubmission, -, hanswer⟩ := hsame j
    rw [Joiner.Returned, hanswer] at hreturned
    exact h.kept n j r hj hreturned (hsubmission ▸ hr)

/-- The join that marks a record is the one that vouches for the mark. -/
theorem Marked.mark (h : g.Marked) {n : Nat} {j : Joiner α} (hj : g.joiner n = some j)
    (hp : j.answer? = none) (hdone : j.deadline = none ∨ g.IsFinished j.submission) :
    { g with
      record := update g.record j.submission
        ((g.record j.submission).map fun r : Record Job => { r with joined := true }) }.Marked := by
  constructor
  · intro y r' hy hjoined
    replace hy : update g.record j.submission ((g.record j.submission).map
      fun r : Record Job => { r with joined := true }) y = some r' := hy
    rw [Function.update_apply] at hy
    split at hy
    · next hyx =>
      obtain ⟨r, hr, rfl⟩ := Option.map_eq_some_iff.mp hy
      refine ⟨n, j, hj, hyx.symm, Or.inr ⟨hp, hdone.imp_right ?_⟩⟩
      rintro ⟨r₀, hr₀, hs⟩
      obtain rfl := Option.some.inj (hr.symm.trans hr₀)
      exact hs
    · exact h.vouched y r' hy hjoined
  · intro m j' r' hj' hreturned hy
    replace hy : update g.record j.submission
      ((g.record j.submission).map fun r : Record Job => { r with joined := true }) j'.submission =
        some r' := hy
    rw [Function.update_apply] at hy
    split at hy
    · obtain ⟨r, -, rfl⟩ := Option.map_eq_some_iff.mp hy
      rfl
    · exact h.kept m j' r' hj' hreturned hy

/-- A new record is not marked, and no join is of its submission. -/
theorem Marked.accept (h : g.Marked) (ho : g.Owned) (hjoins : g.Joined) {x : Submission} {a : Nat}
    {held : Holding} (hnext : g.next x.pool = some x.ticket.number) :
    (g.accept x a held).Marked := by
  constructor
  · intro y r' hy hjoined
    replace hy : update g.record x _ y = some r' := hy
    rw [Function.update_apply] at hy
    split at hy
    · obtain rfl := Option.some.inj hy
      exact absurd hjoined (by simp)
    · exact h.vouched y r' hy hjoined
  · intro n j r' hj hreturned hy
    replace hy : update g.record x _ j.submission = some r' := hy
    have hne : j.submission ≠ x := fun he =>
      ho.place_ne_next hnext (hjoins n j hj).mem (congrArg Submission.place he)
    rw [Function.update_of_ne hne] at hy
    exact h.kept n j r' hj hreturned hy

/-- A join that begins has not returned. -/
theorem Marked.call (h : g.Marked) {n : Nat} {j : Joiner α} (hn : g.joiner n = none)
    (hp : j.answer? = none) : { g with joiner := update g.joiner n (some j) }.Marked := by
  constructor
  · intro x r hr hjoined
    obtain ⟨m, j', hj', hx, hvouches⟩ := h.vouched x r hr hjoined
    have hne : m ≠ n := by
      rintro rfl
      exact absurd (hj'.symm.trans hn) (by simp)
    exact ⟨m, j', (Function.update_of_ne hne _ _).trans hj', hx, hvouches⟩
  · intro m j' r hj' hreturned hr
    replace hj' : update g.joiner n (some j) m = some j' := hj'
    rw [Function.update_apply] at hj'
    split at hj'
    · obtain rfl := Option.some.inj hj'
      obtain ⟨answer, ha, -⟩ := hreturned
      exact absurd (hp.symm.trans ha) (by simp)
    · exact h.kept m j' r hj' hreturned hr

/-- A join that looks at its record returns only when it has marked it; and if it is the one that
vouches for the mark, it returns or waits without a deadline. -/
theorem Marked.look (h : g.Marked) {n : Nat} {j : Joiner α} {state : JoinState α}
    (hj : g.joiner n = some j) (hp : j.answer? = none) (hs : g.Sees j state) :
    { g with joiner := update g.joiner n (some { j with state }) }.Marked := by
  constructor
  · intro x r hr hjoined
    obtain ⟨m, j', hj', hx, hvouches⟩ := h.vouched x r hr hjoined
    by_cases hmn : m = n
    · subst hmn
      obtain rfl := Option.some.inj (hj.symm.trans hj')
      refine ⟨m, _, Function.update_self .., hx, ?_⟩
      have hdone : j.deadline = none ∨ r.status = .finished := by
        rcases hvouches with ⟨answer, ha, -⟩ | ⟨-, hdone⟩
        · exact absurd (hp.symm.trans ha) (by simp)
        · exact hdone
      have hrecord : g.record j.submission = some r := hx ▸ hr
      cases hs with
      | gone hnone => exact absurd (hnone.symm.trans hrecord) (by simp)
      | finished hr' hs' hm =>
        refine Or.inl ⟨_, rfl, ?_⟩
        unfold outcome
        split <;> simp
      | timeout hr' hs' hd =>
        obtain rfl := Option.some.inj (hrecord.symm.trans hr')
        have hnone : j.deadline = none := hdone.resolve_right hs'
        exact absurd hd (by simp [Joiner.isDue, hnone])
      | waits hr' hs' hd =>
        obtain rfl := Option.some.inj (hrecord.symm.trans hr')
        exact Or.inr ⟨rfl, Or.inl (hdone.resolve_right hs')⟩
    · exact ⟨m, j', (Function.update_of_ne hmn _ _).trans hj', hx, hvouches⟩
  · intro m j' r hj' hreturned hr
    replace hj' : update g.joiner n (some { j with state }) m = some j' := hj'
    rw [Function.update_apply] at hj'
    split at hj'
    · obtain rfl := Option.some.inj hj'
      obtain ⟨answer, ha, hne⟩ := hreturned
      replace hr : g.record j.submission = some r := hr
      cases hs with
      | gone hnone => exact absurd (hnone.symm.trans hr) (by simp)
      | finished hr' hs' hm => exact Option.some.inj (hr.symm.trans hr') ▸ hm
      | timeout hr' hs' hd => exact absurd (Option.some.inj ha).symm hne
      | waits hr' hs' hd => exact absurd ha (by simp [Joiner.answer?])
    · exact h.kept m j' r hj' hreturned hr

theorem Marked.tick (h : g.Marked) (ho : g.Owned) (hjoins : g.Joined) (ht : Tick g g') :
    g'.Marked := by
  cases ht with
  | elapse ms => exact (h.mapJoins fun j => by split <;> simp).congr rfl rfl
  | accept hnext hrecord hh hlive => exact h.accept ho hjoins hnext
  | mark x hj hp hx hdone =>
    subst hx
    exact h.mark hj hp hdone
  | @claim x w r job hr hs hj hw =>
    refine (h.setRecord (x := x) fun r' hr' => ⟨r, hr, ?_⟩).congr rfl rfl
    obtain rfl := Option.some.inj hr'
    exact ⟨rfl, fun hf => absurd (hs.symm.trans hf) (by simp)⟩
  | @finish x w job r hx hr =>
    have hrecord : { g with
        record := update g.record x
          (if r.detached then none else some { r with status := .finished }) }.Marked := by
      refine h.setRecord fun r' hr' => ⟨r, hr, ?_⟩
      split at hr'
      · exact absurd hr' (by simp)
      · obtain rfl := Option.some.inj hr'
        exact ⟨rfl, fun _ => rfl⟩
    exact (hrecord.mapJoins (f := fun j => if j.submission = x then j.wake else j)
      fun j => by split <;> simp).congr rfl rfl
  | call deadline hh hlive hx hn => exact h.call hn rfl
  | look hj hp hs => exact h.look hj hp hs
  | takeOut hl hfate hr hs => exact (h.setRecord fun r' hr' => absurd hr' (by simp)).congr rfl rfl
  | @leave l hl hfate =>
    refine (h.setRecord (x := l.submission) fun r' hr' => ?_).congr rfl rfl
    obtain ⟨r, hr, hr'⟩ := Option.bind_eq_some_iff.mp hr'
    split at hr'
    · exact absurd hr' (by simp)
    · obtain rfl := Option.some.inj hr'
      exact ⟨r, hr, rfl, id⟩
  | _ => exact h.congr rfl rfl

end Ledger

/-! ## 3. Records that nobody needs -/

namespace Program

variable {α : Type} {p q : Program α} {a : Nat} {x : Submission}

theorem Reachable.marked (h : p.Reachable) : p.ledger.Marked := by
  refine (h.of_ticks
    (P := fun g => (g.Owned ∧ g.Chronicled) ∧ g.Joined ∧ g.Marked)
    ⟨⟨.start 0, .start 0⟩, .start 0, .start 0⟩ ?_).2.2
  intro g g' ⟨⟨ho, hc⟩, hj, hm⟩ ht
  have hc' := hc.tick ho ht
  exact ⟨⟨ho.tick ht, hc'⟩, hj.tick ho hc hc' ht, hm.tick ho hj ht⟩

/-- What a task in use owns is there. -/
theorem Reachable.record_of_mem (h : p.Reachable) (hx : x ∈ p.system.submissions a) :
    x ∈ p.ledger.submissions a ∧ ∃ r, p.system.record? x = some r := by
  rw [submissions_eq] at hx
  split at hx
  · next hlive =>
    obtain ⟨r, hr, -⟩ := h.owned.held a hlive x hx
    exact ⟨hx, r, hr⟩
  · exact absurd hx List.not_mem_nil

/-- The pool answers by the two flags of the record. -/
theorem isSpent_of_record {s : System α} {r : Record Job} (hr : s.record? x = some r) :
    s.isSpent x = true ↔ r.joined = true ∧ r.status = .finished := by
  obtain ⟨pool, hi, hget⟩ := Option.bind_eq_some_iff.mp hr
  simp [System.isSpent, Queue.isSpent, hi, hget]

/-- A join of `x` has returned. -/
def HasReturned (p : Program α) (x : Submission) : Prop :=
  ∃ j ∈ p.system.joiners, j.submission = x ∧ j.Returned

/-- A join that has returned has finished with its record. -/
theorem Reachable.finished_of_returned (h : p.Reachable) {n : Nat} {j : Joiner α}
    (hj : p.system.joiners[n]? = some j) (hreturned : j.Returned) {r : Record Job}
    (hr : p.system.record? j.submission = some r) : r.joined = true ∧ r.status = .finished := by
  refine ⟨h.marked.kept n j r hj hreturned hr, ?_⟩
  obtain ⟨answer, ha, hne⟩ := hreturned
  rcases (h.joined n j hj).answered answer ha with ⟨w, run, e, hlife, -⟩ | ⟨he, -⟩
  · exact (Ledger.statusOf_of_record hr).symm.trans hlife.status
  · exact absurd he hne

/-- **A record of a task is spent exactly when a join of it has returned**, if no join of the task
is in progress. -/
theorem Reachable.isSpent_iff (h : p.Reachable) (hfree : p.IsFree a)
    (hx : x ∈ p.system.submissions a) : p.system.isSpent x = true ↔ p.HasReturned x := by
  obtain ⟨hmem, r, hr⟩ := h.record_of_mem hx
  rw [isSpent_of_record hr]
  constructor
  · rintro ⟨hjoined, -⟩
    obtain ⟨n, j, hj, hjx, hvouches⟩ := h.marked.vouched x r hr hjoined
    have hjmem : j ∈ p.system.joiners := List.mem_of_getElem? hj
    refine ⟨j, hjmem, hjx, hvouches.resolve_right fun hwait => ?_⟩
    -- it would be a join of the task in progress
    have htask : j.task = a := h.owned.owner_unique (hjx ▸ (h.joined n j hj).mem) hmem
    exact absurd (hfree j hjmem htask) (by simp [hwait.1])
  · rintro ⟨j, hj, rfl, hreturned⟩
    obtain ⟨n, hn⟩ := List.getElem?_of_mem hj
    exact h.finished_of_returned hn hreturned hr

/-- A record that is spent was joined by somebody. -/
theorem Reachable.joiner_of_isSpent (h : p.Reachable) (hx : x ∈ p.system.submissions a)
    (hspent : p.system.isSpent x = true) : ∃ j ∈ p.system.joiners, j.submission = x := by
  obtain ⟨-, r, hr⟩ := h.record_of_mem hx
  obtain ⟨n, j, hj, hjx, -⟩ := h.marked.vouched x r hr ((isSpent_of_record hr).mp hspent).1
  exact ⟨j, List.mem_of_getElem? hj, hjx⟩

end Program
end WorkerPool
