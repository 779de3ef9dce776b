/-
# A diary is true

Four invariants of a `Diary`, each kept by every `Entry`:

* `Numbered`: the numbers 0, 1, 2, ... are given once each, and a number either waits or was
  claimed, and not both;
* `Handled`: a claimed submission is in the hands of the worker that claimed it until that worker
  notes the finish, once;
* `Resolved`: a body that has ended either left a result or is noted to have panicked, by the same
  worker and once;
* `Staffed`: the workers that are noted to have left are those that are gone, and an end is noted
  once.

They hold of every pool that a program reaches (`Reachable.bookkeeping`).
-/
import WorkerPool.Proofs.Diary

namespace WorkerPool
namespace Diary

open Function (update)

variable {g g' : Diary} {w v n m : Nat}

/-! ## 1. Numbers -/

/-- Every number is noted when it is given, and waits until it is claimed. -/
structure Numbered (g : Diary) : Prop where
  taken_eq : g.taken = (List.range g.next).reverse
  numbers : (g.claims.map Prod.snd ++ g.waiting).Perm (List.range g.next)

theorem Numbered.nodup (h : g.Numbered) : (g.claims.map Prod.snd ++ g.waiting).Nodup :=
  h.numbers.nodup_iff.mpr List.nodup_range

theorem Numbered.claims_nodup (h : g.Numbered) : (g.claims.map Prod.snd).Nodup :=
  (List.nodup_append.mp h.nodup).1

/-- A submission is claimed by one worker. -/
theorem Numbered.claimer_eq (h : g.Numbered) (hw : (w, n) ∈ g.claims) (hv : (v, n) ∈ g.claims) :
    w = v :=
  congrArg Prod.fst (List.inj_on_of_nodup_map h.claims_nodup hw hv rfl)

/-- A submission that waits was not claimed. -/
theorem Numbered.not_claimed (h : g.Numbered) (hn : n ∈ g.waiting) : (w, n) ∉ g.claims :=
  fun hw => (List.nodup_append.mp h.nodup).2.2 n (List.mem_map_of_mem hw) n hn rfl

theorem Numbered.entry (h : g.Numbered) (he : Entry g g') : g'.Numbered := by
  cases he with
  | take =>
    refine ⟨?_, ?_⟩
    · show g.next :: g.taken = (List.range (g.next + 1)).reverse
      rw [List.range_succ, List.reverse_append, h.taken_eq]
      rfl
    · show (g.claims.map Prod.snd ++ g.next :: g.waiting).Perm (List.range (g.next + 1))
      rw [List.range_succ]
      exact (List.perm_middle.trans (h.numbers.cons _)).trans (List.perm_append_singleton _ _).symm
  | @claim w n rest hw hn =>
    refine ⟨h.taken_eq, ?_⟩
    have hnumbers := h.numbers
    rw [hn] at hnumbers
    exact List.perm_middle.symm.trans hnumbers
  | _ => exact ⟨h.taken_eq, h.numbers⟩

/-! ## 2. Claims and finishes -/

/-- What was claimed is finished, or in hand. -/
structure Handled (g : Diary) : Prop where
  claimed_iff : ∀ w n, (w, n) ∈ g.claims ↔
    (∃ unlinked, (w, n, unlinked) ∈ g.finishes) ∨ ∃ done, g.post w = some (.busy n done)
  unfinished : ∀ w n done, g.post w = some (.busy n done) →
    ∀ v unlinked, (v, n, unlinked) ∉ g.finishes
  finishes_nodup : (g.finishes.map fun f => f.2.1).Nodup

theorem Handled.claimed (h : g.Handled) {done : Bool} (hw : g.post w = some (.busy n done)) :
    (w, n) ∈ g.claims :=
  (h.claimed_iff w n).mpr (Or.inr ⟨done, hw⟩)

/-- A worker that takes another post and has the same submission as before, if any. -/
theorem Handled.move (h : g.Handled) {post : Post} (hclaims : g'.claims = g.claims)
    (hfinishes : g'.finishes = g.finishes) (hupdate : g'.post = update g.post w (some post))
    (hpost : ∀ n, (∃ done, post = .busy n done) ↔ ∃ done, g.post w = some (.busy n done)) :
    g'.Handled := by
  have hiff (v n : Nat) : (∃ done, g'.post v = some (.busy n done)) ↔
      ∃ done, g.post v = some (.busy n done) := by
    rw [hupdate, Function.update_apply]
    split
    · next hv =>
      rw [hv, ← hpost n]
      simp only [Option.some.injEq]
    · exact Iff.rfl
  refine ⟨fun v n => ?_, fun v n done hv => ?_, hfinishes ▸ h.finishes_nodup⟩
  · rw [hiff, hclaims, hfinishes]
    exact h.claimed_iff v n
  · rw [hfinishes]
    obtain ⟨done', hv'⟩ := (hiff v n).mp ⟨done, hv⟩
    exact h.unfinished v n done' hv'

theorem Handled.entry (h : g.Handled) (hg : g.Numbered) (he : Entry g g') : g'.Handled := by
  cases he with
  | hire hw =>
    refine h.move rfl rfl rfl fun n => ?_
    rw [hw]
    simp
  | take => exact ⟨h.claimed_iff, h.unfinished, h.finishes_nodup⟩
  | @claim w n rest hw hn =>
    have hwaits : n ∈ g.waiting := hn ▸ List.mem_cons_self
    have hfresh : ∀ v unlinked, (v, n, unlinked) ∉ g.finishes := fun v unlinked hmem =>
      hg.not_claimed hwaits ((h.claimed_iff v n).mpr (Or.inl ⟨unlinked, hmem⟩))
    refine ⟨fun v m => ?_, fun v m done hv => ?_, h.finishes_nodup⟩
    · show (v, m) ∈ (w, n) :: g.claims ↔ _ ∨ ∃ done, update g.post w (some (.busy n false)) v = _
      rw [List.mem_cons, h.claimed_iff, Function.update_apply]
      by_cases hvw : v = w
      · subst hvw
        rw [hw, if_pos rfl]
        simp only [Prod.mk.injEq, true_and, Option.some.injEq, reduceCtorEq, exists_false, or_false,
          Post.busy.injEq, exists_and_left, exists_eq', and_true]
        rw [or_comm, eq_comm]
      · rw [if_neg hvw]
        simp [hvw]
    · replace hv : update g.post w (some (.busy n false)) v = some (.busy m done) := hv
      rw [Function.update_apply] at hv
      split at hv
      · obtain ⟨rfl, -⟩ : n = m ∧ false = done := by simpa using hv
        exact hfresh
      · exact h.unfinished v m done hv
  | @panic w n hw =>
    refine h.move rfl rfl rfl fun m => ?_
    rw [hw]
    simp
  | @give w n hw =>
    refine h.move rfl rfl rfl fun m => ?_
    rw [hw]
    simp
  | @finish w n unlinked hw =>
    have hclaimed := h.claimed hw
    refine ⟨fun v m => ?_, fun v m done hv => ?_, ?_⟩
    · show _ ↔ (∃ u, (v, m, u) ∈ (w, n, unlinked) :: g.finishes) ∨
        ∃ done, update g.post w (some .free) v = _
      rw [h.claimed_iff, Function.update_apply]
      by_cases hvw : v = w
      · subst hvw
        rw [hw, if_pos rfl]
        constructor
        · rintro (⟨u, hu⟩ | ⟨done, hd⟩)
          · exact Or.inl ⟨u, List.mem_cons_of_mem _ hu⟩
          · obtain ⟨rfl, -⟩ : n = m ∧ true = done := by simpa using hd
            exact Or.inl ⟨unlinked, List.mem_cons_self⟩
        · rintro (⟨u, hu⟩ | ⟨done, hd⟩)
          · rcases List.mem_cons.mp hu with hu | hu
            · obtain rfl : m = n := by simpa using congrArg (·.2.1) hu
              exact Or.inr ⟨true, rfl⟩
            · exact Or.inl ⟨u, hu⟩
          · exact absurd hd (by simp)
      · rw [if_neg hvw]
        simp [hvw]
    · replace hv : update g.post w (some .free) v = some (.busy m done) := hv
      rw [Function.update_apply] at hv
      split at hv
      · exact absurd hv (by simp)
      · next hvw =>
        intro v' u hmem
        rcases List.mem_cons.mp hmem with hu | hu
        · -- the two workers would have claimed the same submission
          obtain rfl : m = n := by simpa using congrArg (·.2.1) hu
          exact hvw (hg.claimer_eq (h.claimed hv) hclaimed)
        · exact h.unfinished v m done hv v' u hu
    · refine List.nodup_cons.mpr ⟨fun hmem => ?_, h.finishes_nodup⟩
      obtain ⟨⟨v, m, u⟩, hu, rfl⟩ := List.mem_map.mp hmem
      exact h.unfinished w _ true hw v u hu
  | @leave w threads hw ht =>
    refine h.move rfl rfl rfl fun m => ?_
    rw [hw]
    simp
  | close hopen => exact ⟨h.claimed_iff, h.unfinished, h.finishes_nodup⟩

/-! ## 3. Panics -/

/-- The body of a submission has ended. -/
def Done (g : Diary) (n : Nat) : Prop :=
  (∃ w unlinked, (w, n, unlinked) ∈ g.finishes) ∨ ∃ w, g.post w = some (.busy n true)

/-- A body that has ended left a result or panicked. -/
structure Resolved (g : Diary) : Prop where
  panic_done : ∀ w n, (w, n) ∈ g.panics → (w, n) ∈ g.claims ∧ g.Done n
  given_done : ∀ n, g.given n = true → g.Done n
  panicked_iff : ∀ n, g.Done n → ((∃ w, (w, n) ∈ g.panics) ↔ g.given n = false)
  panics_nodup : (g.panics.map Prod.snd).Nodup

/-- A body in progress has not ended. -/
theorem Handled.not_done (h : g.Handled) (hg : g.Numbered) (hw : g.post w = some (.busy n false)) :
    ¬g.Done n := by
  rintro (⟨v, u, hu⟩ | ⟨v, hv⟩)
  · exact h.unfinished w n false hw v u hu
  · obtain rfl := hg.claimer_eq (h.claimed hw) (h.claimed hv)
    exact absurd (hw.symm.trans hv) (by simp)

/-- Nothing that the invariant reads has changed. -/
theorem Resolved.congr (h : g.Resolved) (hpanics : g'.panics = g.panics)
    (hclaims : g.claims ⊆ g'.claims) (hgiven : g'.given = g.given)
    (hdone : ∀ n, g'.Done n ↔ g.Done n) : g'.Resolved where
  panic_done := by
    intro w n hmem
    obtain ⟨hclaimed, hn⟩ := h.panic_done w n (hpanics ▸ hmem)
    exact ⟨hclaims hclaimed, (hdone n).mpr hn⟩
  given_done := fun n hn => (hdone n).mpr (h.given_done n (hgiven ▸ hn))
  panicked_iff := by
    intro n hn
    rw [hpanics, hgiven]
    exact h.panicked_iff n ((hdone n).mp hn)
  panics_nodup := hpanics ▸ h.panics_nodup

/-- A worker takes another post, and no body of its ends by that. -/
theorem done_update {post : Post} (hfinishes : g'.finishes = g.finishes)
    (hpost : g'.post = update g.post w (some post))
    (hold : ∀ n, g.post w ≠ some (.busy n true)) (hnew : ∀ n, post ≠ .busy n true) (n : Nat) :
    g'.Done n ↔ g.Done n := by
  unfold Done
  rw [hfinishes, hpost]
  refine or_congr Iff.rfl (exists_congr fun v => ?_)
  rw [Function.update_apply]
  split
  · next hv =>
    rw [hv]
    exact iff_of_false (by simpa using hnew n) (hold n)
  · exact Iff.rfl

/-- The body of a worker ends. -/
theorem done_end (hfinishes : g'.finishes = g.finishes)
    (hpost : g'.post = update g.post w (some (.busy n true)))
    (hw : g.post w = some (.busy n false)) (m : Nat) : g'.Done m ↔ g.Done m ∨ m = n := by
  unfold Done
  rw [hfinishes, hpost, or_assoc]
  refine or_congr Iff.rfl ⟨fun ⟨v, hv⟩ => ?_, ?_⟩
  · rw [Function.update_apply] at hv
    split at hv
    · exact Or.inr (by simpa using hv.symm)
    · exact Or.inl ⟨v, hv⟩
  · rintro (⟨v, hv⟩ | rfl)
    · refine ⟨v, ?_⟩
      rw [Function.update_apply, if_neg ?_]
      · exact hv
      · rintro rfl
        exact absurd (hw.symm.trans hv) (by simp)
    · exact ⟨w, Function.update_self _ _ _⟩

theorem Resolved.entry (h : g.Resolved) (hg : g.Numbered) (hh : g.Handled) (he : Entry g g') :
    g'.Resolved := by
  cases he with
  | hire hw =>
    exact h.congr rfl (List.Subset.refl _) rfl
      (done_update rfl rfl (fun n => by simp [hw]) fun n => by simp)
  | take => exact h.congr rfl (List.Subset.refl _) rfl fun n => Iff.rfl
  | claim hw hn =>
    exact h.congr rfl (List.subset_cons_self _ _) rfl
      (done_update rfl rfl (fun n => by simp [hw]) fun n => by simp)
  | @panic w n hw =>
    have hopen := hh.not_done hg hw
    have hdone : ∀ m, Done { g with
        panics := (w, n) :: g.panics
        post := update g.post w (some (.busy n true)) } m ↔ g.Done m ∨ m = n :=
      done_end rfl rfl hw
    refine ⟨fun v m hmem => ?_, fun m hm => (hdone m).mpr (Or.inl (h.given_done m hm)),
      fun m hm => ?_, ?_⟩
    · rcases List.mem_cons.mp hmem with hv | hv
      · obtain ⟨rfl, rfl⟩ := Prod.mk.inj hv
        exact ⟨hh.claimed hw, (hdone _).mpr (Or.inr rfl)⟩
      · obtain ⟨hclaimed, hm⟩ := h.panic_done v m hv
        exact ⟨hclaimed, (hdone m).mpr (Or.inl hm)⟩
    · rcases (hdone m).mp hm with hbefore | rfl
      · have hne : m ≠ n := by
          rintro rfl
          exact hopen hbefore
        rw [← h.panicked_iff m hbefore]
        simp [hne]
      · refine iff_of_true ⟨w, List.mem_cons_self⟩ ?_
        by_contra hgiven
        exact hopen (h.given_done _ (by simpa using hgiven))
    · refine List.nodup_cons.mpr ⟨fun hmem => ?_, h.panics_nodup⟩
      obtain ⟨⟨v, m⟩, hv, rfl⟩ := List.mem_map.mp hmem
      exact hopen (h.panic_done v _ hv).2
  | @give w n hw =>
    have hopen := hh.not_done hg hw
    have hdone : ∀ m, Done { g with
        given := update g.given n true
        post := update g.post w (some (.busy n true)) } m ↔ g.Done m ∨ m = n :=
      done_end rfl rfl hw
    refine ⟨fun v m hmem => ?_, fun m hm => ?_, fun m hm => ?_, h.panics_nodup⟩
    · obtain ⟨hclaimed, hm⟩ := h.panic_done v m hmem
      exact ⟨hclaimed, (hdone m).mpr (Or.inl hm)⟩
    · replace hm : update g.given n true m = true := hm
      rw [Function.update_apply] at hm
      split at hm
      · next hmn => exact (hdone m).mpr (Or.inr hmn)
      · exact (hdone m).mpr (Or.inl (h.given_done m hm))
    · show _ ↔ update g.given n true m = false
      rw [Function.update_apply]
      rcases (hdone m).mp hm with hbefore | rfl
      · have hne : m ≠ n := by
          rintro rfl
          exact hopen hbefore
        rw [if_neg hne]
        exact h.panicked_iff m hbefore
      · rw [if_pos rfl]
        exact iff_of_false (fun ⟨v, hv⟩ => hopen (h.panic_done v _ hv).2) (by simp)
  | @finish w n unlinked hw =>
    refine h.congr rfl (List.Subset.refl _) rfl fun m => ?_
    constructor
    · rintro (⟨v, u, hu⟩ | ⟨v, hv⟩)
      · rcases List.mem_cons.mp hu with hu | hu
        · obtain rfl : m = n := by simpa using congrArg (·.2.1) hu
          exact Or.inr ⟨w, hw⟩
        · exact Or.inl ⟨v, u, hu⟩
      · replace hv : update g.post w (some .free) v = some (.busy m true) := hv
        rw [Function.update_apply] at hv
        split at hv
        · exact absurd hv (by simp)
        · exact Or.inr ⟨v, hv⟩
    · rintro (⟨v, u, hu⟩ | ⟨v, hv⟩)
      · exact Or.inl ⟨v, u, List.mem_cons_of_mem _ hu⟩
      · by_cases hvw : v = w
        · subst hvw
          obtain rfl : m = n := by simpa using hv.symm.trans hw
          exact Or.inl ⟨v, unlinked, List.mem_cons_self⟩
        · refine Or.inr ⟨v, ?_⟩
          show update g.post w (some .free) v = _
          rw [Function.update_of_ne hvw]
          exact hv
  | leave hw ht =>
    exact h.congr rfl (List.Subset.refl _) rfl
      (done_update rfl rfl (fun n => by simp [hw]) fun n => by simp)
  | close hopen => exact h.congr rfl (List.Subset.refl _) rfl fun n => Iff.rfl

/-! ## 4. Workers, and the end -/

/-- The workers that left are noted once each, and so is the end. -/
structure Staffed (g : Diary) : Prop where
  exits_nodup : g.exits.Nodup
  mem_exits : ∀ w, w ∈ g.exits ↔ g.post w = some .gone
  post_lt : ∀ w, g.post w ≠ none → w < g.hired
  hired_eq : g.hired = g.threads + g.exits.length
  closings_eq : g.closings = if g.ended then 1 else 0

/-- A worker that takes another post and does not leave. -/
theorem Staffed.move (h : g.Staffed) {old post : Post} (hw : g.post w = some old)
    (hupdate : g'.post = update g.post w (some post)) (hexits : g'.exits = g.exits)
    (hhired : g'.hired = g.hired) (hthreads : g'.threads = g.threads)
    (hclosings : g'.closings = g.closings) (hended : g'.ended = g.ended) (hold : old ≠ .gone)
    (hnew : post ≠ .gone) : g'.Staffed where
  exits_nodup := hexits ▸ h.exits_nodup
  mem_exits := by
    intro v
    rw [hexits, h.mem_exits, hupdate, Function.update_apply]
    split
    · next hv =>
      rw [hv, hw]
      simp [hold, hnew]
    · exact Iff.rfl
  post_lt := by
    intro v hv
    rw [hhired]
    refine h.post_lt v fun hnone => hv ?_
    rw [hupdate, Function.update_apply, if_neg ?_]
    · exact hnone
    · rintro rfl
      exact absurd (hw.symm.trans hnone) (by simp)
  hired_eq := by rw [hhired, hthreads, hexits, h.hired_eq]
  closings_eq := by rw [hclosings, hended, h.closings_eq]

theorem Staffed.entry (h : g.Staffed) (he : Entry g g') : g'.Staffed := by
  cases he with
  | hire hw =>
    refine ⟨h.exits_nodup, fun v => ?_, fun v hv => ?_, ?_, h.closings_eq⟩
    · show v ∈ g.exits ↔ update g.post g.hired (some .free) v = _
      rw [h.mem_exits, Function.update_apply]
      split
      · next hv =>
        rw [hv, hw]
        simp
      · exact Iff.rfl
    · show v < g.hired + 1
      by_cases hvw : v = g.hired
      · omega
      · have hold : g.post v ≠ none := by
          intro hnone
          refine hv ?_
          show update g.post g.hired (some .free) v = none
          rw [Function.update_of_ne hvw]
          exact hnone
        exact Nat.lt_succ_of_lt (h.post_lt v hold)
    · show g.hired + 1 = g.threads + 1 + g.exits.length
      have hhired := h.hired_eq
      omega
  | take => exact ⟨h.exits_nodup, h.mem_exits, h.post_lt, h.hired_eq, h.closings_eq⟩
  | claim hw hn => exact h.move hw rfl rfl rfl rfl rfl rfl nofun nofun
  | panic hw => exact h.move hw rfl rfl rfl rfl rfl rfl nofun nofun
  | give hw => exact h.move hw rfl rfl rfl rfl rfl rfl nofun nofun
  | finish unlinked hw => exact h.move hw rfl rfl rfl rfl rfl rfl nofun nofun
  | @leave w threads hw ht =>
    have hstays : w ∉ g.exits := fun hmem =>
      absurd (hw.symm.trans ((h.mem_exits w).mp hmem)) (by simp)
    refine ⟨List.nodup_cons.mpr ⟨hstays, h.exits_nodup⟩, fun v => ?_, fun v hv => ?_, ?_,
      h.closings_eq⟩
    · show v ∈ w :: g.exits ↔ update g.post w (some .gone) v = _
      rw [List.mem_cons, h.mem_exits, Function.update_apply]
      split
      · next hv => simp [hv]
      · next hv => simp [hv]
    · refine h.post_lt v fun hnone => hv ?_
      show update g.post w (some .gone) v = none
      rw [Function.update_apply, if_neg ?_]
      · exact hnone
      · rintro rfl
        exact absurd (hw.symm.trans hnone) (by simp)
    · show g.hired = threads + (w :: g.exits).length
      rw [h.hired_eq, ht, List.length_cons]
      omega
  | close hopen =>
    refine ⟨h.exits_nodup, h.mem_exits, h.post_lt, h.hired_eq, ?_⟩
    show g.closings + 1 = if true then 1 else 0
    rw [h.closings_eq, hopen]
    rfl

/-- The invariants together. -/
structure Sound (g : Diary) : Prop where
  numbered : g.Numbered
  handled : g.Handled
  resolved : g.Resolved
  staffed : g.Staffed

theorem Sound.entry (h : g.Sound) (he : Entry g g') : g'.Sound where
  numbered := h.numbered.entry he
  handled := h.handled.entry h.numbered he
  resolved := h.resolved.entry h.numbered h.handled he
  staffed := h.staffed.entry he

theorem Sound.entries (h : g.Sound) (he : Entries g g') : g'.Sound := by
  induction he with
  | refl => exact h
  | tail _ he ih => exact ih.entry he

end Diary

/-! ## 5. Pools -/

namespace Pool

variable {α : Type}

/-- Nothing is written down of a new pool. -/
theorem sound_diary_create (id : String) (plan : Plan) : (create id plan : Pool α).diary.Sound where
  numbered := ⟨rfl, .refl _⟩
  handled := ⟨fun w n => by simp [diary, create], fun w n done hw => by simp [diary, create] at hw,
    List.nodup_nil⟩
  resolved := by
    refine ⟨fun w n hmem => absurd hmem List.not_mem_nil, fun n hn => ?_, fun n hn => ?_,
      List.nodup_nil⟩
    · exact absurd hn (by simp [diary, create])
    · exact absurd hn (by simp [Diary.Done, diary, create])
  staffed := by
    refine ⟨List.nodup_nil, fun w => ?_, fun w hw => ?_, rfl, rfl⟩
    · simp [diary, create]
    · exact absurd hw (by simp [diary, create])

end Pool

namespace Program

variable {α : Type} {p : Program α}

/-- **The diary of every pool is true.** -/
theorem Reachable.bookkeeping (h : p.Reachable) {i : Nat} {pool : Pool α}
    (hi : p.system.pools[i]? = some pool) : pool.diary.Sound :=
  h.pool_induct (P := fun pool => pool.diary.Sound) hi Pool.sound_diary_create
    fun _ _ hsound hq hs => hq.entries (hs.entries hsound)

end Program
end WorkerPool
