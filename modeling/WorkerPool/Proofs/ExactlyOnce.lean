/-
# Every accepted submission runs exactly once

What `Ledger.Chronicled` says of a program, in terms of its history, its records and the run
numbers of its tasks.  The body of an accepted submission begins at most once, and has begun once
when its record is finished; a refused submission leaves no trace.  The bodies of a task began
as its runs 1, 2, ..., r, each for one submission.  The number r falls short of the number of claims
only by the claims whose workers have yet to begin.
-/
import Mathlib.Data.List.Perm.Basic
import WorkerPool.Proofs.Chronicle

namespace WorkerPool

/-! ## 1. Counting what has happened -/

namespace Happening

variable {α : Type}

def isClaimed : Happening α → Bool
  | claimed .. => true
  | _ => false

def isBegun : Happening α → Bool
  | begun .. => true
  | _ => false

/-- The submission whose body has begun, if that is what happened to task `a`. -/
def begunOf? (a : Nat) : Happening α → Option Submission
  | begun x b _ => if b = a then some x else none
  | _ => none

theorem runOf?_eq_some {a n : Nat} {e : Happening α} :
    e.runOf? a = some n ↔ ∃ x, e = .begun x a n := by
  cases e <;> simp [runOf?]

theorem begunOf?_eq_some {a : Nat} {x : Submission} {e : Happening α} :
    e.begunOf? a = some x ↔ ∃ n, e = .begun x a n := by
  cases e <;> simp [begunOf?]
  exact ⟨fun ⟨hb, hx⟩ => ⟨hx, hb⟩, fun ⟨hx, hb⟩ => ⟨hb, hx⟩⟩

theorem isSome_runOf? (a : Nat) (e : Happening α) :
    (e.runOf? a).isSome = (e.begunOf? a).isSome := by
  cases e <;> simp [runOf?, begunOf?]
  split <;> rfl

end Happening

/-- Two entries that give the same result are one, if no result comes twice. -/
theorem eq_of_nodup_filterMap {β γ : Type} {f : β → Option γ} {l : List β}
    (hl : (l.filterMap f).Nodup) {b b' : β} {c : γ} (hb : b ∈ l) (hb' : b' ∈ l) (hc : f b = some c)
    (hc' : f b' = some c) : b = b' := by
  induction l with
  | nil => exact absurd hb List.not_mem_nil
  | cons d l ih =>
    have hrest := hl.sublist ((List.sublist_cons_self d l).filterMap f)
    -- an entry further down that gives what `d` gives would give it twice
    have hfirst {e : β} (hd : f d = some c) (he : f e = some c) : e ∉ l := by
      intro hmem
      rw [List.filterMap_cons_some hd] at hl
      exact (List.nodup_cons.mp hl).1 (List.mem_filterMap.mpr ⟨e, hmem, he⟩)
    rcases List.mem_cons.mp hb with hbd | hbl
    · rcases List.mem_cons.mp hb' with hbd' | hbl'
      · rw [hbd, hbd']
      · exact absurd hbl' (hfirst (hbd ▸ hc) hc')
    · rcases List.mem_cons.mp hb' with hbd' | hbl'
      · exact absurd hbl (hfirst (hbd' ▸ hc') hc)
      · exact ih hrest hbl hbl'

/-! ## 2. What the history of a program says -/

namespace Program

variable {α : Type} {p q : Program α}

/-- The runs of a task that have begun, newest first. -/
def runsOf (p : Program α) (a : Nat) : List Nat := p.history.filterMap (·.runOf? a)

/-- Whether a worker has claimed the record of a submission. -/
def hasClaimed (p : Program α) (x : Submission) : Bool := (p.story x).any (·.isClaimed)

/-- Whether a worker stands between the claim of a submission of task `a` and its body. -/
def isEntering (p : Program α) (a : Nat) (x : Submission) : Bool :=
  p.system.pools[x.pool]?.any (·.workers.contains (.executing x.ticket ⟨a⟩ .entering))

/-- What holds of the bodies of a program at every moment. -/
structure OnceEach (p : Program α) : Prop where
  /-- No internal check has failed: no result was written twice, and no claim and no finish met a
  record that it did not expect. -/
  checks : ∀ pool ∈ p.system.pools, pool.faults = []
  /-- Only to accepted submissions anything has happened. -/
  accepted : ∀ e ∈ p.history, ∃ t ∈ p.system.tasks, e.submission ∈ t.submissions
  /-- The record, the result and the worker of an accepted submission are where its story says. -/
  lives : ∀ (a : Nat) (t : Task α), p.system.tasks[a]? = some t → ∀ x ∈ t.submissions,
    ∃ life, p.ledger.Lives x a life
  /-- A body begins at most once, and has begun when the record is finished. -/
  begun_le_one : ∀ x, (p.story x).countP (·.isBegun) ≤ 1
  begun_of_finished : ∀ x r, p.system.record? x = some r → r.status = .finished →
    (p.story x).countP (·.isBegun) = 1
  /-- The bodies of a task were its runs 1, 2, 3, ..., each for one submission. -/
  runs : ∀ (a : Nat) (t : Task α), p.system.tasks[a]? = some t →
    p.runsOf a = (List.range' 1 t.runs).reverse
  run_unique : ∀ (a : Nat) (t : Task α), p.system.tasks[a]? = some t → ∀ n, 1 ≤ n → n ≤ t.runs →
    ∃! x, .begun x a n ∈ p.history
  /-- Each claimed submission has had its run, or its worker stands just before the body. -/
  claims : ∀ (a : Nat) (t : Task α), p.system.tasks[a]? = some t →
    t.submissions.countP p.hasClaimed = t.runs + t.submissions.countP (p.isEntering a)

theorem story_eq (p : Program α) (x : Submission) : p.ledger.story x = p.story x := rfl

theorem mem_story {x : Submission} {e : Happening α} :
    e ∈ p.story x ↔ e ∈ p.history ∧ e.submission = x := by
  simp [story]

theorem Reachable.begun_le_one (h : p.Reachable) (x : Submission) :
    (p.story x).countP (·.isBegun) ≤ 1 := by
  by_cases hx : ∃ a, x ∈ p.ledger.submissions a
  · obtain ⟨a, hx⟩ := hx
    obtain ⟨life, hlife⟩ := h.chronicled.lives a x hx
    rw [← story_eq, hlife.story]
    cases life <;> simp [Life.story, Happening.isBegun]
  · -- nothing happens to a submission that was not accepted
    have hnil : p.story x = [] := by
      refine List.filter_eq_nil_iff.mpr fun e he hex => hx ?_
      obtain ⟨a, ha⟩ := h.chronicled.told e he
      exact ⟨a, of_decide_eq_true hex ▸ ha⟩
    simp [hnil]

theorem Reachable.begun_of_finished (h : p.Reachable) {x : Submission} {r : Record Job}
    (hr : p.system.record? x = some r) (hs : r.status = .finished) :
    (p.story x).countP (·.isBegun) = 1 := by
  obtain ⟨a, -, -, hx, -⟩ := h.owned.linked x r hr
  have hstatus : p.ledger.statusOf x = .finished := (Ledger.statusOf_of_record hr).trans hs
  obtain ⟨w, run, e, hlife⟩ := h.chronicled.finished hx hstatus
  rw [← story_eq, hlife.story]
  simp [Life.story, Happening.isBegun]

theorem Reachable.runs (h : p.Reachable) {a : Nat} {t : Task α}
    (ht : p.system.tasks[a]? = some t) : p.runsOf a = (List.range' 1 t.runs).reverse :=
  h.chronicled.runs a t.runs (ledger_runs ht)

theorem Reachable.run_unique (h : p.Reachable) {a : Nat} {t : Task α}
    (ht : p.system.tasks[a]? = some t) {n : Nat} (h1 : 1 ≤ n) (hn : n ≤ t.runs) :
    ∃! x, .begun x a n ∈ p.history := by
  have hruns : p.history.filterMap (·.runOf? a) = (List.range' 1 t.runs).reverse := h.runs ht
  have hmem : n ∈ p.history.filterMap (·.runOf? a) := by
    rw [hruns, List.mem_reverse, List.mem_range'_1]
    omega
  have hnodup : (p.history.filterMap (·.runOf? a)).Nodup := by
    rw [hruns, List.nodup_reverse]
    exact List.nodup_range'
  obtain ⟨e, he, hrun⟩ := List.mem_filterMap.mp hmem
  obtain ⟨x, rfl⟩ := Happening.runOf?_eq_some.mp hrun
  refine ⟨x, he, fun y hy => ?_⟩
  have hsame := eq_of_nodup_filterMap hnodup hy he (Happening.runOf?_eq_some.mpr ⟨y, rfl⟩) hrun
  exact (Happening.begun.inj hsame).1

/-- Whether the body of a submission has begun. -/
def hasBegun (p : Program α) (x : Submission) : Bool := (p.story x).any (·.isBegun)

theorem isEntering_iff {a : Nat} {x : Submission} :
    p.isEntering a x = true ↔
      ∃ w, p.ledger.running (x.pool, w) = some (x.ticket, ⟨a⟩, .entering) := by
  simp only [isEntering, Option.any_eq_true, List.contains_iff_mem, running_eq_some,
    System.phase?_eq_some]
  constructor
  · rintro ⟨pool, hi, hmem⟩
    obtain ⟨w, hw⟩ := List.getElem?_of_mem hmem
    exact ⟨w, pool, hi, hw⟩
  · rintro ⟨w, pool, hi, hw⟩
    exact ⟨pool, hi, List.mem_of_getElem? hw⟩

/-- A claimed submission has begun or its worker is about to begin it. -/
theorem Reachable.hasClaimed_eq (h : p.Reachable) {a : Nat} {x : Submission}
    (hx : x ∈ p.ledger.submissions a) :
    p.hasClaimed x = (p.hasBegun x || p.isEntering a x) ∧
      (p.hasBegun x && p.isEntering a x) = false := by
  obtain ⟨life, hlife⟩ := h.chronicled.lives a x hx
  have hentering : p.isEntering a x = true → ∃ w, life.IsAt w .entering := by
    intro he
    obtain ⟨w, hw⟩ := isEntering_iff.mp he
    exact ⟨w, hlife.isAt (executes h.poolsSound (running_eq_some.mp hw))⟩
  unfold hasClaimed hasBegun
  rw [← story_eq, hlife.story]
  cases life with
  | claimed w =>
    obtain ⟨w', stage, hat, hw⟩ := hlife.body rfl
    obtain ⟨rfl, rfl⟩ := hat
    have he : p.isEntering a x = true := isEntering_iff.mpr ⟨w', hw⟩
    simp [Life.story, Happening.isClaimed, Happening.isBegun, he]
  | _ =>
    have he : p.isEntering a x = false := by
      by_contra he
      obtain ⟨w, hat⟩ := hentering (by simpa using he)
      simp [Life.IsAt] at hat
    simp [Life.story, Happening.isClaimed, Happening.isBegun, he]

/-- As many submissions of a task have begun as it has had runs. -/
theorem Reachable.countP_hasBegun (h : p.Reachable) {a : Nat} {t : Task α}
    (ht : p.system.tasks[a]? = some t) : t.submissions.countP p.hasBegun = t.runs := by
  have hsubs : p.ledger.submissions a = t.submissions := submissions_ledger ht
  have hmem (x : Submission) : x ∈ t.submissions.filter p.hasBegun ↔
      x ∈ p.history.filterMap (·.begunOf? a) := by
    simp only [List.mem_filter, List.mem_filterMap, Happening.begunOf?_eq_some, hasBegun,
      List.any_eq_true]
    constructor
    · rintro ⟨hx, e, hstory, hbegun⟩
      obtain ⟨he, hex⟩ := mem_story.mp hstory
      cases e with
      | begun y b n =>
        obtain rfl : y = x := hex
        obtain rfl := h.owned.owner_unique (h.chronicled.mem_of_begun he) (hsubs ▸ hx)
        exact ⟨_, he, n, rfl⟩
      | _ => exact absurd hbegun (by simp [Happening.isBegun])
    · rintro ⟨_, he, n, rfl⟩
      exact ⟨hsubs ▸ h.chronicled.mem_of_begun he, .begun x a n, mem_story.mpr ⟨he, rfl⟩, rfl⟩
  have hnodup : (p.history.filterMap (·.begunOf? a)).Nodup := by
    refine List.nodup_iff_count_le_one.mpr fun x => ?_
    have hle := h.begun_le_one x
    rw [story, List.countP_filter] at hle
    rw [List.count_filterMap]
    refine Nat.le_trans (List.countP_mono_left fun e _ he => ?_) hle
    obtain ⟨n, rfl⟩ := Happening.begunOf?_eq_some.mp (eq_of_beq he)
    simp [Happening.isBegun, Happening.submission]
  have hsubmitted : t.submissions.Nodup := hsubs ▸ h.owned.submissions_nodup a
  have hperm : (t.submissions.filter p.hasBegun).Perm (p.history.filterMap (·.begunOf? a)) :=
    (List.perm_ext_iff_of_nodup (hsubmitted.filter _) hnodup).mpr hmem
  calc t.submissions.countP p.hasBegun
      = (t.submissions.filter p.hasBegun).length := List.countP_eq_length_filter
    _ = (p.history.filterMap (·.begunOf? a)).length := hperm.length_eq
    _ = p.history.countP fun e => (e.begunOf? a).isSome := List.length_filterMap_eq_countP
    _ = p.history.countP fun e => (e.runOf? a).isSome := by simp only [Happening.isSome_runOf?]
    _ = (p.runsOf a).length := List.length_filterMap_eq_countP.symm
    _ = t.runs := by rw [h.runs ht]; simp

theorem Reachable.onceEach (h : p.Reachable) : p.OnceEach where
  checks := by
    intro pool hpool
    obtain ⟨i, hi⟩ := List.getElem?_of_mem hpool
    rw [← ledger_faults hi]
    exact h.chronicled.sane i
  accepted := by
    intro e he
    obtain ⟨a, ha⟩ := h.chronicled.told e he
    cases ht : p.system.tasks[a]? with
    | none => simp [Ledger.submissions, ledger, ht] at ha
    | some t => exact ⟨t, List.mem_of_getElem? ht, submissions_ledger ht ▸ ha⟩
  lives := fun a t ht x hx => h.chronicled.lives a x (submissions_ledger ht ▸ hx)
  begun_le_one := h.begun_le_one
  begun_of_finished := fun _ _ hr hs => h.begun_of_finished hr hs
  runs := fun _ _ ht => h.runs ht
  run_unique := fun _ _ ht _ h1 hn => h.run_unique ht h1 hn
  claims := by
    intro a t ht
    rw [← h.countP_hasBegun ht]
    exact countP_eq_add fun x hx => h.hasClaimed_eq (submissions_ledger ht ▸ hx)

/-- What was known of a submission stays known, and its record only goes forward. -/
theorem Leads.forward (h : p.Reachable) (hq : Leads p q) {x : Submission} {r : Record Job}
    (hr : p.system.record? x = some r) :
    (∀ r', q.system.record? x = some r' → r.status.rank ≤ r'.status.rank) ∧
      ∀ v, p.ledger.result x.place = some v → q.ledger.result x.place = some v := by
  have hreach := h.leads hq
  obtain ⟨a, -, -, hx, -⟩ := h.owned.linked x r hr
  have hx' : x ∈ q.ledger.submissions a := Ledger.mem_submissions_ticks (hq.ticks h) hx
  obtain ⟨life, hlife⟩ := h.chronicled.lives a x hx
  obtain ⟨life', hlife'⟩ := hreach.chronicled.lives a x hx'
  have hsuffix : p.story x <:+ q.story x := hq.history_suffix.filter _
  rw [← story_eq, ← story_eq, hlife.story, hlife'.story] at hsuffix
  obtain ⟨hrank, hresult⟩ := Life.forward hsuffix
  have hstatus {p : Program α} {life : Life α} {r : Record Job} (hl : p.ledger.Lives x a life)
      (hr : p.system.record? x = some r) : r.status = life.status :=
    (Ledger.statusOf_of_record hr).symm.trans hl.status
  refine ⟨fun r' hr' => ?_, fun v hv => ?_⟩
  · rw [hstatus hlife hr, hstatus hlife' hr']
    exact hrank
  · exact hlife'.result.trans (hresult v (hlife.result.symm.trans hv))

/-- **Every accepted submission runs exactly once.**  At every moment of every run the program is
as `OnceEach` says; a submission that is refused changes nothing of it; and later on the story of a
submission only grows, its record only goes forward, and its result, once there, stays. -/
theorem every_submission_runs_once (h : p.Reachable) :
    p.OnceEach ∧
      (∀ i a, (p.system.submit i a).1 ≠ .accepted → (p.act (.submit i a)).ledger = p.ledger) ∧
      ∀ q, Leads p q → ∀ x, p.story x <:+ q.story x ∧
        ∀ r, p.system.record? x = some r →
          (∀ r', q.system.record? x = some r' → r.status.rank ≤ r'.status.rank) ∧
          ∀ v, p.ledger.result x.place = some v → q.ledger.result x.place = some v :=
  ⟨h.onceEach, fun _ _ hrefused => ledger_submit_refused hrefused, fun _ hq _ =>
    ⟨hq.history_suffix.filter _, fun _ hr => hq.forward h hr⟩⟩

/-- Two submissions of one task.  The second is claimed first, as the first run, which ends with its
number; the first submission has begun as the second run. -/
theorem counting_runs_once :
    let p := counting.run [.submit 0 0, .submit 0 0, .move (.worker 0 0), .move (.worker 0 0),
      .move (.worker 0 0), .move (.worker 0 0), .move (.worker 0 0)]
    let first : Submission := ⟨0, 0, 0⟩
    let second : Submission := ⟨0, 1, 1⟩
    p.OnceEach ∧
      p.story second = [.finished second 0, .ended second (.returned (.int 1)),
        .begun second 0 1, .claimed second 0] ∧
      p.story first = [.begun first 0 2, .claimed first 0] :=
  ⟨(every_submission_runs_once (counting_reachable (by decide))).1, by decide, by decide⟩

end Program
end WorkerPool
