/-
# A record belongs to one task

Two structures have to agree: the list of submissions of a task, and the records of the pools.
`Ledger.Owned` says how.  A submission is on one list, once.  While its task is in use, its record
is there and not detached.  When the task goes, its submissions are on their way back
(`leaving`) with their records still there, and one by one these are taken out or left to
their pools; from then on a record that is still there is detached and has not finished.

It is kept by every tick, so it holds of every program that is reached.
-/
import Mathlib.Data.List.Nodup
import WorkerPool.Proofs.Ticks

namespace WorkerPool
namespace Ledger

open Function (update)

variable {α : Type} {g : Ledger α}

/-! ## 1. Lists of submissions -/

/-- The submissions that were accepted from a task, newest first. -/
def submissions (g : Ledger α) (a : Nat) : List Submission :=
  match g.holding a with
  | some h => h.submissions
  | none => []

/-- What has become of a task. -/
def fate? (g : Ledger α) (a : Nat) : Option Fate := (g.holding a).map (·.fate)

theorem submissions_of_holding {a : Nat} {h : Holding} (hh : g.holding a = some h) :
    g.submissions a = h.submissions := by
  simp [submissions, hh]

theorem fate?_of_holding {a : Nat} {h : Holding} (hh : g.holding a = some h) :
    g.fate? a = some h.fate := by
  simp [fate?, hh]

theorem submissions_update {g' : Ledger α} {a : Nat} {h : Holding}
    (hh : g'.holding = update g.holding a (some h)) (b : Nat) :
    g'.submissions b = if b = a then h.submissions else g.submissions b := by
  unfold submissions
  rw [hh, Function.update_apply]
  by_cases hb : b = a <;> simp only [hb, if_true, if_false]

theorem fate?_update {g' : Ledger α} {a : Nat} {h : Holding}
    (hh : g'.holding = update g.holding a (some h)) (b : Nat) :
    g'.fate? b = if b = a then some h.fate else g.fate? b := by
  unfold fate?
  rw [hh, Function.update_apply]
  by_cases hb : b = a <;> simp only [hb, if_true, if_false, Option.map_some]

theorem submissions_addTask {a : Nat} (ha : g.holding a = none) (b : Nat) :
    (g.addTask a).submissions b = g.submissions b := by
  have hh' : (g.addTask a).holding = update g.holding a (some ⟨.live, []⟩) := rfl
  rw [submissions_update hh']
  split
  · next hb => simp [submissions, hb, ha]
  · rfl

theorem fate?_addTask (g : Ledger α) (a b : Nat) :
    (g.addTask a).fate? b = if b = a then some .live else g.fate? b := by
  have hh' : (g.addTask a).holding = update g.holding a (some ⟨.live, []⟩) := rfl
  rw [fate?_update hh']

theorem submissions_accept {x : Submission} {a : Nat} {held : Holding}
    (hh : g.holding a = some held) (b : Nat) :
    (g.accept x a held).submissions b =
      if b = a then x :: g.submissions a else g.submissions b := by
  have hh' : (g.accept x a held).holding = update g.holding a (some _) := rfl
  rw [submissions_update hh', submissions_of_holding hh]

theorem mem_submissions_accept {x : Submission} {a : Nat} {held : Holding}
    (hh : g.holding a = some held) {b : Nat} {y : Submission} :
    y ∈ (g.accept x a held).submissions b ↔ y ∈ g.submissions b ∨ b = a ∧ y = x := by
  rw [submissions_accept hh]
  by_cases hb : b = a
  · simp [hb, or_comm]
  · simp [hb]

theorem fate?_accept {x : Submission} {a : Nat} {held : Holding} (hh : g.holding a = some held)
    (b : Nat) : (g.accept x a held).fate? b = g.fate? b := by
  have hh' : (g.accept x a held).holding = update g.holding a (some _) := rfl
  rw [fate?_update hh']
  split
  · next hb => rw [hb, fate?_of_holding hh]
  · rfl

theorem fate?_retire (g : Ledger α) (a : Nat) (held : Holding) (fate : Fate) (b : Nat) :
    (g.retire a held fate).fate? b = if b = a then some fate else g.fate? b := by
  have hh' : (g.retire a held fate).holding = update g.holding a (some _) := rfl
  rw [fate?_update hh']

theorem submissions_retire {a : Nat} {held : Holding} (hh : g.holding a = some held) (fate : Fate)
    (b : Nat) : (g.retire a held fate).submissions b = g.submissions b := by
  have hh' : (g.retire a held fate).holding = update g.holding a (some _) := rfl
  rw [submissions_update hh']
  split
  · next hb => rw [hb, submissions_of_holding hh]
  · rfl

/-! ## 2. The invariant -/

/-- Tasks and pools agree on who owns a record. -/
structure Owned (g : Ledger α) : Prop where
  number_lt : ∀ a, ∀ x ∈ g.submissions a, ∃ n, g.next x.pool = some n ∧ x.ticket.number < n
  unique : ∀ a b, ∀ x ∈ g.submissions a, ∀ y ∈ g.submissions b, x.place = y.place → a = b ∧ x = y
  newest_first : ∀ a, (g.submissions a).Pairwise fun x y =>
    x.pool = y.pool → y.ticket.number < x.ticket.number
  /-- A task in use holds its records. -/
  held : ∀ a, g.fate? a = some .live → ∀ x ∈ g.submissions a,
    ∃ r, g.record x = some r ∧ r.detached = false
  /-- A record on its way back is still there, finished if it was released. -/
  leaving : ∀ l ∈ g.leaving, l.fate ≠ .live ∧ g.fate? l.task = some l.fate ∧
    l.submission ∈ g.submissions l.task ∧
    ∃ r, g.record l.submission = some r ∧ r.detached = false ∧
      (l.fate = .released → r.status = .finished)
  leaving_nodup : g.leaving.Nodup
  /-- A record has an owner, or was left to its pool before it finished. -/
  linked : ∀ x r, g.record x = some r → ∃ a fate, g.fate? a = some fate ∧ x ∈ g.submissions a ∧
    (∀ job, r.job = some job → job.task = a) ∧
    (r.detached = false → fate = .live ∨ ⟨a, x, fate⟩ ∈ g.leaving) ∧
    (r.detached = true → fate = .detached ∧ ⟨a, x, fate⟩ ∉ g.leaving ∧ r.status ≠ .finished)
  /-- A body runs for a submission of its task. -/
  running : ∀ i w k job stage, g.running (i, w) = some (k, job, stage) →
    ⟨i, k⟩ ∈ g.submissions job.task

theorem Owned.start (processors : Nat) : (Program.start processors : Program α).ledger.Owned := by
  constructor <;> simp [Program.start, Program.ledger, System.start, submissions, fate?,
    System.record?, System.phase?]

/-- What the invariant reads. -/
theorem Owned.congr {g' : Ledger α} (h : g.Owned) (hrecord : g'.record = g.record)
    (hrunning : g'.running = g.running) (hnext : g'.next = g.next)
    (hholding : g'.holding = g.holding) (hleaving : g'.leaving = g.leaving) : g'.Owned := by
  obtain ⟨record, _, running, next, _, holding, _, _, _, leaving, _⟩ := g'
  subst hrecord hrunning hnext hholding hleaving
  exact ⟨h.number_lt, h.unique, h.newest_first, h.held, h.leaving, h.leaving_nodup, h.linked,
    h.running⟩

theorem Owned.owner_unique (h : g.Owned) {a b : Nat} {x : Submission} (ha : x ∈ g.submissions a)
    (hb : x ∈ g.submissions b) : a = b := (h.unique a b x ha x hb rfl).1

theorem Owned.submissions_nodup (h : g.Owned) (a : Nat) : (g.submissions a).Nodup := by
  refine (h.newest_first a).imp fun {x y} hlt he => ?_
  subst he
  exact Nat.lt_irrefl _ (hlt rfl)

/-- The next number of a pool is one that no list has yet. -/
theorem Owned.number_lt_next (h : g.Owned) {a : Nat} {x y : Submission}
    (hnext : g.next x.pool = some x.ticket.number) (hy : y ∈ g.submissions a)
    (hpool : y.pool = x.pool) : y.ticket.number < x.ticket.number := by
  obtain ⟨n, hn, hlt⟩ := h.number_lt a y hy
  rw [hpool, hnext] at hn
  exact Option.some.inj hn ▸ hlt

theorem Owned.place_ne_next (h : g.Owned) {a : Nat} {x y : Submission}
    (hnext : g.next x.pool = some x.ticket.number) (hy : y ∈ g.submissions a) :
    y.place ≠ x.place := by
  intro hplace
  have hpool : y.pool = x.pool := congrArg Prod.fst hplace
  have hnumber : y.ticket.number = x.ticket.number := congrArg Prod.snd hplace
  exact absurd hnumber (Nat.ne_of_lt (h.number_lt_next hnext hy hpool))

/-- Bodies change, and each still runs for a submission of its task. -/
theorem Owned.setRunning (h : g.Owned) {running : Nat × Nat → Option (Ticket × Job × Stage)}
    (hrun : ∀ i w k job stage, running (i, w) = some (k, job, stage) →
      ⟨i, k⟩ ∈ g.submissions job.task) : { g with running }.Owned :=
  ⟨h.number_lt, h.unique, h.newest_first, h.held, h.leaving, h.leaving_nodup, h.linked, hrun⟩

/-- A record goes on; it never comes back from being finished. -/
theorem Owned.setRecord (h : g.Owned) {x : Submission} {r r' : Record Job}
    (hr : g.record x = some r) (hdetached : r'.detached = r.detached)
    (hjob : ∀ job, r'.job = some job → r.job = some job)
    (hfinished : r.status = .finished → r'.status = .finished)
    (hkept : r.detached = true → r'.status ≠ .finished) :
    { g with record := update g.record x (some r') }.Owned where
  number_lt := h.number_lt
  unique := h.unique
  newest_first := h.newest_first
  held := by
    intro a ha y hy
    obtain ⟨ry, hry, hd⟩ := h.held a ha y hy
    by_cases hyx : y = x
    · subst hyx
      obtain rfl := Option.some.inj (hry.symm.trans hr)
      exact ⟨r', Function.update_self .., hdetached.trans hd⟩
    · exact ⟨ry, (Function.update_of_ne hyx _ _).trans hry, hd⟩
  leaving := by
    intro l hl
    obtain ⟨hfate, htask, hmem, rl, hrl, hd, hs⟩ := h.leaving l hl
    refine ⟨hfate, htask, hmem, ?_⟩
    by_cases hlx : l.submission = x
    · subst hlx
      obtain rfl := Option.some.inj (hrl.symm.trans hr)
      exact ⟨r', Function.update_self .., hdetached.trans hd, fun hf => hfinished (hs hf)⟩
    · exact ⟨rl, (Function.update_of_ne hlx _ _).trans hrl, hd, hs⟩
  leaving_nodup := h.leaving_nodup
  linked := by
    intro y ry hry
    replace hry : update g.record x (some r') y = some ry := hry
    rw [Function.update_apply] at hry
    split at hry
    · next hyx =>
      subst hyx
      obtain rfl := Option.some.inj hry
      obtain ⟨a, fate, ha, hmem, hj, hown, hleft⟩ := h.linked y r hr
      refine ⟨a, fate, ha, hmem, fun job hjob' => hj job (hjob job hjob'), ?_, ?_⟩
      · exact fun hd => hown (hdetached ▸ hd)
      · intro hd
        obtain ⟨hfate, hnot, -⟩ := hleft (hdetached ▸ hd)
        exact ⟨hfate, hnot, hkept (hdetached ▸ hd)⟩
    · exact h.linked y ry hry
  running := h.running

/-- A detached record goes when it finishes. -/
theorem Owned.dropRecord (h : g.Owned) {x : Submission} {r : Record Job} (hr : g.record x = some r)
    (hd : r.detached = true) : { g with record := update g.record x none }.Owned where
  number_lt := h.number_lt
  unique := h.unique
  newest_first := h.newest_first
  held := by
    intro a ha y hy
    obtain ⟨ry, hry, hdy⟩ := h.held a ha y hy
    refine ⟨ry, (Function.update_of_ne ?_ _ _).trans hry, hdy⟩
    rintro rfl
    obtain rfl := Option.some.inj (hry.symm.trans hr)
    exact absurd (hd.symm.trans hdy) (by simp)
  leaving := by
    intro l hl
    obtain ⟨hfate, htask, hmem, rl, hrl, hdl, hs⟩ := h.leaving l hl
    refine ⟨hfate, htask, hmem, rl, (Function.update_of_ne ?_ _ _).trans hrl, hdl, hs⟩
    rintro rfl
    obtain rfl := Option.some.inj (hrl.symm.trans hr)
    exact absurd (hd.symm.trans hdl) (by simp)
  leaving_nodup := h.leaving_nodup
  linked := by
    intro y ry hry
    replace hry : update g.record x none y = some ry := hry
    rw [Function.update_apply] at hry
    split at hry
    · exact absurd hry (by simp)
    · exact h.linked y ry hry
  running := h.running

/-- A record left to its pool has not finished. -/
theorem Owned.unfinished (h : g.Owned) {x : Submission} {r : Record Job} (hr : g.record x = some r)
    (hd : r.detached = true) : r.status ≠ .finished := by
  obtain ⟨a, fate, -, -, -, -, hleft⟩ := h.linked x r hr
  exact (hleft hd).2.2

/-! ## 3. Every tick keeps it -/

theorem Owned.addTask (h : g.Owned) {a : Nat} (ha : g.holding a = none) : (g.addTask a).Owned := by
  have hsubs := submissions_addTask ha
  have hfate := g.fate?_addTask a
  have hold {b : Nat} {fate : Fate} (hb : g.fate? b = some fate) :
      (g.addTask a).fate? b = some fate := by
    have hne : b ≠ a := by
      rintro rfl
      simp [fate?, ha] at hb
    rw [hfate, if_neg hne, hb]
  refine ⟨?_, ?_, ?_, ?_, ?_, h.leaving_nodup, ?_, ?_⟩
  · intro b x hx
    exact h.number_lt b x (hsubs b ▸ hx)
  · intro b c x hx y hy
    exact h.unique b c x (hsubs b ▸ hx) y (hsubs c ▸ hy)
  · intro b
    rw [hsubs]
    exact h.newest_first b
  · intro b hb x hx
    rw [hsubs] at hx
    rw [hfate] at hb
    split at hb
    · next hba => simp [submissions, hba, ha] at hx
    · exact h.held b hb x hx
  · intro l hl
    obtain ⟨hne, htask, hmem, hr⟩ := h.leaving l hl
    exact ⟨hne, hold htask, (hsubs _).symm ▸ hmem, hr⟩
  · intro x r hr
    obtain ⟨b, fate, hb, hx, hrest⟩ := h.linked x r hr
    exact ⟨b, fate, hold hb, (hsubs b).symm ▸ hx, hrest⟩
  · intro i w k job stage hw
    rw [hsubs]
    exact h.running i w k job stage hw

/-- One body changes, and still runs for a submission of its task. -/
theorem Owned.setBody (h : g.Owned) {x : Submission} {job : Job} (hx : x ∈ g.submissions job.task)
    (w : Nat) (stage : Stage) :
    { g with running := update g.running (x.pool, w) (some (x.ticket, job, stage)) }.Owned := by
  refine h.setRunning fun i w' k job' stage' hw => ?_
  rw [Function.update_apply] at hw
  split at hw
  · next he =>
    obtain ⟨rfl, rfl⟩ := Prod.mk.inj he
    obtain ⟨rfl, rfl, rfl⟩ : x.ticket = k ∧ job = job' ∧ stage = stage' := by simpa using hw
    exact hx
  · exact h.running i w' k job' stage' hw

/-- An accepted submission is new on every list. -/
theorem Owned.accept (h : g.Owned) {x : Submission} {a : Nat} {held : Holding}
    (hnext : g.next x.pool = some x.ticket.number) (hh : g.holding a = some held)
    (hlive : held.fate = .live) : (g.accept x a held).Owned := by
  have hfate := fate?_accept (x := x) hh
  have hold {b : Nat} {y : Submission} (hy : y ∈ g.submissions b) :
      y ∈ (g.accept x a held).submissions b := (mem_submissions_accept hh).mpr (Or.inl hy)
  have hne {b : Nat} {y : Submission} (hy : y ∈ g.submissions b) : y.place ≠ x.place :=
    h.place_ne_next hnext hy
  have hrecord {b : Nat} {y : Submission} (hy : y ∈ g.submissions b) :
      (g.accept x a held).record y = g.record y :=
    Function.update_of_ne (fun he : y = x => hne hy (he ▸ rfl)) _ _
  refine ⟨?_, ?_, ?_, ?_, ?_, h.leaving_nodup, ?_, ?_⟩
  · intro b y hy
    rcases (mem_submissions_accept hh).mp hy with hy | ⟨-, rfl⟩
    · obtain ⟨n, hn, hlt⟩ := h.number_lt b y hy
      by_cases hpool : y.pool = x.pool
      · refine ⟨x.ticket.number + 1, ?_, Nat.lt_succ_of_lt (h.number_lt_next hnext hy hpool)⟩
        rw [hpool]
        exact Function.update_self ..
      · exact ⟨n, (Function.update_of_ne hpool _ _).trans hn, hlt⟩
    · exact ⟨y.ticket.number + 1, Function.update_self .., Nat.lt_succ_self _⟩
  · intro b c y hy z hz hplace
    rcases (mem_submissions_accept hh).mp hy with hy | ⟨hb, hyx⟩ <;>
      rcases (mem_submissions_accept hh).mp hz with hz | ⟨hc, hzx⟩
    · exact h.unique b c y hy z hz hplace
    · exact absurd (hzx ▸ hplace) (hne hy)
    · exact absurd (hyx ▸ hplace.symm) (hne hz)
    · exact ⟨hb.trans hc.symm, hyx.trans hzx.symm⟩
  · intro b
    rw [submissions_accept hh]
    split
    · exact List.pairwise_cons.mpr
        ⟨fun y hy hpool => h.number_lt_next hnext hy hpool.symm, h.newest_first a⟩
    · exact h.newest_first b
  · intro b hb y hy
    rcases (mem_submissions_accept hh).mp hy with hy | ⟨-, rfl⟩
    · rw [hrecord hy]
      exact h.held b (hfate b ▸ hb) y hy
    · exact ⟨_, Function.update_self .., rfl⟩
  · intro l hl
    obtain ⟨hl', htask, hlmem, hr⟩ := h.leaving l hl
    refine ⟨hl', (hfate _).trans htask, hold hlmem, ?_⟩
    rw [hrecord hlmem]
    exact hr
  · intro y r hr
    replace hr : update g.record x _ y = some r := hr
    rw [Function.update_apply] at hr
    split at hr
    · next hy =>
      subst hy
      obtain rfl := Option.some.inj hr
      refine ⟨a, .live, ?_, ?_, ?_, fun _ => Or.inl rfl, fun hd => absurd hd (by simp)⟩
      · rw [hfate, fate?_of_holding hh, hlive]
      · exact (mem_submissions_accept hh).mpr (Or.inr ⟨rfl, rfl⟩)
      · intro job hjob
        rw [← Option.some.inj hjob]
    · obtain ⟨b, fate, hb, hymem, hrest⟩ := h.linked y r hr
      exact ⟨b, fate, (hfate b).trans hb, hold hymem, hrest⟩
  · intro i w k job stage hw
    exact hold (h.running i w k job stage hw)

/-- A task that goes has its records on their way back. -/
theorem Owned.retire (h : g.Owned) {a : Nat} {held : Holding} {fate : Fate}
    (hh : g.holding a = some held) (hlive : held.fate = .live) (hfate : fate ≠ .live)
    (hspent : fate = .released → ∀ x ∈ held.submissions, ∀ r, g.record x = some r →
      r.joined = true ∧ r.status = .finished) : (g.retire a held fate).Owned := by
  have hsubs := submissions_retire hh fate
  have hfate' := g.fate?_retire a held fate
  have hafate : g.fate? a = some .live := (fate?_of_holding hh).trans (congrArg some hlive)
  have hleaving (l : Leaving) : l ∈ (g.retire a held fate).leaving ↔
      l ∈ g.leaving ∨ l.task = a ∧ l.fate = fate ∧ l.submission ∈ g.submissions a := by
    rw [submissions_of_holding hh]
    obtain ⟨b, x, fate'⟩ := l
    simp only [Ledger.retire, List.mem_append, List.mem_map, List.mem_reverse, Leaving.mk.injEq]
    constructor
    · rintro (hl | ⟨x', hx', rfl, rfl, rfl⟩)
      · exact Or.inl hl
      · exact Or.inr ⟨rfl, rfl, hx'⟩
    · rintro (hl | ⟨rfl, rfl, hx⟩)
      · exact Or.inl hl
      · exact Or.inr ⟨x, hx, rfl, rfl, rfl⟩
  -- none of the task's submissions was on its way back before
  have hstay {l : Leaving} (hl : l ∈ g.leaving) : l.task ≠ a := by
    rintro rfl
    obtain ⟨hne, htask, -⟩ := h.leaving l hl
    exact hne (Option.some.inj (htask.symm.trans hafate))
  refine ⟨?_, ?_, ?_, ?_, ?_, ?_, ?_, ?_⟩
  · intro b x hx
    exact h.number_lt b x (hsubs b ▸ hx)
  · intro b c x hx y hy
    exact h.unique b c x (hsubs b ▸ hx) y (hsubs c ▸ hy)
  · intro b
    rw [hsubs]
    exact h.newest_first b
  · intro b hb x hx
    rw [hfate'] at hb
    split at hb
    · exact absurd (Option.some.inj hb) hfate
    · exact h.held b hb x (hsubs b ▸ hx)
  · intro l hl
    rw [hfate', hsubs]
    rcases (hleaving l).mp hl with hl | ⟨rfl, rfl, hx⟩
    · rw [if_neg (hstay hl)]
      exact h.leaving l hl
    · obtain ⟨r, hr, hd⟩ := h.held l.task hafate l.submission hx
      rw [submissions_of_holding hh] at hx ⊢
      exact ⟨hfate, if_pos rfl, hx, r, hr, hd, fun hrel => (hspent hrel _ hx r hr).2⟩
  · have hnodup : held.submissions.Nodup := submissions_of_holding hh ▸ h.submissions_nodup a
    refine List.nodup_append.mpr ⟨h.leaving_nodup, ?_, ?_⟩
    · exact (List.nodup_reverse.mpr hnodup).map fun x y he => (Leaving.mk.inj he).2.1
    · intro l hl l' hl' he
      obtain ⟨x, -, rfl⟩ := List.mem_map.mp hl'
      exact hstay hl (by rw [he])
  · intro x r hr
    obtain ⟨b, fate', hb, hx, hjob, hown, hleft⟩ := h.linked x r hr
    by_cases hba : b = a
    · subst hba
      obtain rfl := Option.some.inj (hb.symm.trans hafate)
      refine ⟨b, fate, by rw [hfate', if_pos rfl], by rwa [hsubs], hjob, fun _ => ?_, fun hd => ?_⟩
      · exact Or.inr ((hleaving _).mpr (Or.inr ⟨rfl, rfl, hx⟩))
      · exact absurd (hleft hd).1 (by simp)
    · refine ⟨b, fate', by rw [hfate', if_neg hba]; exact hb, by rwa [hsubs], hjob, fun hd => ?_,
        fun hd => ?_⟩
      · exact (hown hd).imp_right fun hl => (hleaving _).mpr (Or.inl hl)
      · obtain ⟨hf, hnot, hs⟩ := hleft hd
        refine ⟨hf, fun hl => ?_, hs⟩
        rcases (hleaving _).mp hl with hl | ⟨he, -⟩
        · exact hnot hl
        · exact hba he
  · intro i w k job stage hw
    rw [hsubs]
    exact h.running i w k job stage hw

/-- A record arrives: it is gone, or is left to its pool before it has finished. -/
theorem Owned.arrive (h : g.Owned) {l : Leaving} (hl : l ∈ g.leaving) {r' : Option (Record Job)}
    (hr' : ∀ r, r' = some r → l.fate = .detached ∧ r.detached = true ∧ r.status ≠ .finished ∧
      ∃ old, g.record l.submission = some old ∧ r.job = old.job) :
    { g with
      record := update g.record l.submission r'
      leaving := g.leaving.erase l }.Owned := by
  obtain ⟨hfate, htask, hmem, -⟩ := h.leaving l hl
  have hrest (l' : Leaving) : l' ∈ g.leaving.erase l ↔ l' ≠ l ∧ l' ∈ g.leaving :=
    h.leaving_nodup.mem_erase_iff
  refine ⟨h.number_lt, h.unique, h.newest_first, ?_, ?_, h.leaving_nodup.erase l, ?_, h.running⟩
  · intro a ha x hx
    obtain ⟨r, hr, hd⟩ := h.held a ha x hx
    refine ⟨r, (Function.update_of_ne ?_ _ _).trans hr, hd⟩
    rintro rfl
    obtain rfl := h.owner_unique hx hmem
    exact hfate (Option.some.inj (htask.symm.trans ha))
  · intro l' hl'
    obtain ⟨hne, hl'⟩ := (hrest l').mp hl'
    obtain ⟨hfate', htask', hmem', r, hr, hd⟩ := h.leaving l' hl'
    refine ⟨hfate', htask', hmem', r, (Function.update_of_ne ?_ _ _).trans hr, hd⟩
    intro hx
    rw [hx] at hmem'
    have ht := h.owner_unique hmem' hmem
    rw [ht] at htask'
    have hf : l'.fate = l.fate := Option.some.inj (htask'.symm.trans htask)
    apply hne
    cases l; cases l'
    simp_all
  · intro x r hr
    replace hr : update g.record l.submission r' x = some r := hr
    rw [Function.update_apply] at hr
    split at hr
    · next hx =>
      subst hx
      obtain ⟨hdet, hd, hs, old, hold, hjob⟩ := hr' r hr
      refine ⟨l.task, l.fate, htask, hmem, ?_, fun hd' => ?_, fun _ => ⟨hdet, ?_, hs⟩⟩
      · intro job hj
        obtain ⟨a, -, -, hx, hjobs, -⟩ := h.linked _ old hold
        rw [hjobs job (hjob ▸ hj)]
        exact h.owner_unique hx hmem
      · exact absurd (hd'.symm.trans hd) (by simp)
      · exact fun hl' => ((hrest _).mp hl').1 rfl
    · next hx =>
      obtain ⟨a, fate, ha, hxa, hjob, hown, hleft⟩ := h.linked x r hr
      refine ⟨a, fate, ha, hxa, hjob, fun hd => ?_, fun hd => ?_⟩
      · refine (hown hd).imp_right fun hl' => (hrest _).mpr ⟨?_, hl'⟩
        rintro rfl
        exact hx rfl
      · obtain ⟨hf, hnot, hs⟩ := hleft hd
        exact ⟨hf, fun hl' => hnot ((hrest _).mp hl').2, hs⟩

/-- Nothing else is ever given back. -/
theorem Owned.no_misfit (h : g.Owned) {l : Leaving} (hl : l ∈ g.leaving)
    (hfate : l.fate ≠ .detached)
    (hr : l.fate = .released → ∀ r, g.record l.submission = some r → r.status ≠ .finished) :
    False := by
  obtain ⟨hlive, -, -, r, hr', -, hs⟩ := h.leaving l hl
  cases hf : l.fate with
  | live => exact hlive hf
  | released => exact hr hf r hr' (hs hf)
  | detached => exact hfate hf

theorem Owned.tick {g' : Ledger α} (h : g.Owned) (ht : Tick g g') : g'.Owned := by
  cases ht with
  | addPool hi =>
    refine ⟨fun a x hx => ?_, h.unique, h.newest_first, h.held, h.leaving, h.leaving_nodup,
      h.linked, h.running⟩
    obtain ⟨n, hn, hlt⟩ := h.number_lt a x hx
    refine ⟨n, (Function.update_of_ne ?_ _ _).trans hn, hlt⟩
    rintro rfl
    exact absurd (hn.symm.trans hi) (by simp)
  | addTask ha => exact h.addTask ha
  | elapse ms => exact h.congr rfl rfl rfl rfl rfl
  | accept hnext hrecord hh hlive => exact h.accept hnext hh hlive
  | mark x =>
    cases hr : g.record x with
    | none =>
      rw [Option.map_none, ← hr, Function.update_eq_self]
      exact h
    | some r => exact h.setRecord hr rfl (fun _ => id) id (h.unfinished hr)
  | @claim x w r job hr hs hj hw =>
    obtain ⟨a, -, -, hx, hjob, -⟩ := h.linked x r hr
    rw [← hjob job hj] at hx
    have hclaimed : { g with
        record := update g.record x (some { r with status := .running, job := none }) }.Owned :=
      h.setRecord hr rfl (by simp) (fun hf => absurd (hs.symm.trans hf) (by simp)) (by simp)
    exact (hclaimed.setBody hx w .entering).congr rfl rfl rfl rfl rfl
  | @beginBody x w n job stage hx hn hs =>
    exact (h.setBody (h.running _ _ _ _ _ hx.running) w stage).congr rfl rfl rfl rfl rfl
  | openGate task run =>
    refine h.setRunning fun i w k job stage hw => ?_
    obtain ⟨⟨k', job', stage'⟩, hold, he⟩ := Option.map_eq_some_iff.mp hw
    obtain ⟨rfl, rfl, -⟩ : k' = k ∧ job' = job ∧ _ := by simpa [openRun] using he
    exact h.running i w k' job' stage' hold
  | @endBody x w run job e result faults hx hroom =>
    exact (h.setBody (h.running _ _ _ _ _ hx.running) w .over).congr rfl rfl rfl rfl rfl
  | @finish x w job r hx hr =>
    have hrecord : { g with
        record := update g.record x
          (if r.detached then none else some { r with status := .finished }) }.Owned := by
      cases hd : r.detached with
      | true => exact h.dropRecord hr hd
      | false => exact h.setRecord hr hd.symm (fun _ => id) (fun _ => rfl) (by simp [hd])
    refine (hrecord.setRunning fun i w' k job' stage' hw => ?_).congr rfl rfl rfl rfl rfl
    replace hw : update g.running (x.pool, w) none (i, w') = some (k, job', stage') := hw
    rw [Function.update_apply] at hw
    split at hw
    · exact absurd hw (by simp)
    · exact h.running i w' k job' stage' hw
  | call deadline hh hlive hx hn => exact h.congr rfl rfl rfl rfl rfl
  | look hj hp hs => exact h.congr rfl rfl rfl rfl rfl
  | retire hh hlive hfate hfree hspent => exact h.retire hh hlive hfate hspent
  | takeOut hl hfate hr hs => exact h.arrive hl (by simp)
  | @leave l hl hfate =>
    refine h.arrive hl fun r hr => ?_
    obtain ⟨old, hold, hr⟩ := Option.bind_eq_some_iff.mp hr
    split at hr
    · exact absurd hr (by simp)
    · next hs =>
      obtain rfl := Option.some.inj hr
      exact ⟨hfate, rfl, hs, old, hold, rfl⟩
  | misfit hl hfate hr => exact (h.no_misfit hl hfate hr).elim

end Ledger

namespace Program

variable {α : Type} {p : Program α}

theorem Reachable.owned (h : p.Reachable) : p.ledger.Owned :=
  h.of_ticks (.start 0) fun _ _ => Ledger.Owned.tick

theorem submissions_ledger {a : Nat} {t : Task α} (ht : p.system.tasks[a]? = some t) :
    p.ledger.submissions a = t.submissions :=
  Ledger.submissions_of_holding (ledger_holding ht)

theorem fate?_ledger {a : Nat} {t : Task α} (ht : p.system.tasks[a]? = some t) :
    p.ledger.fate? a = some t.fate :=
  Ledger.fate?_of_holding (ledger_holding ht)

/-- What a task in use owns. -/
theorem submissions_eq (p : Program α) (a : Nat) :
    p.system.submissions a =
      if p.ledger.fate? a = some .live then p.ledger.submissions a else [] := by
  unfold System.submissions
  cases ht : p.system.tasks[a]? with
  | none => simp [Ledger.fate?, ledger, ht]
  | some t => simp [fate?_ledger ht, submissions_ledger ht, Task.isLive]

end Program

end WorkerPool
