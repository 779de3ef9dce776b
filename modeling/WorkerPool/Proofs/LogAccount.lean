/-
# What the log of a script tells

The notes of a pool are an account of it (`Session.Account`): of its workers, of its submissions and
of what became of each of them.  The numbers in the notes are those of the submissions that were
accepted (`Reachable.numbers`), and what is noted of a panic is what the body did
(`Reachable.panicked_iff`).
-/
import WorkerPool.Proofs.Admission
import WorkerPool.Proofs.Draining
import WorkerPool.Proofs.ExactlyOnce
import WorkerPool.Proofs.Unlinking

namespace WorkerPool

namespace Program

variable {α : Type} {p : Program α} {i : Nat} {pool : Pool α}

/-! ## 1. What is noted of a panic -/

/-- A ticket with the number of a submission is the one of that submission, if it has a record. -/
theorem Reachable.ticket_eq (h : p.Reachable) (hi : p.system.pools[i]? = some pool) {a : Nat}
    {x : Submission} (hx : x ∈ p.ledger.submissions a) (hpool : x.pool = i) {k : Ticket}
    {status : Status} (hk : pool.queue.status? k = some status)
    (hnumber : k.number = x.ticket.number) : k = x.ticket := by
  obtain ⟨r, hr, -⟩ := Queue.status?_eq_some.mp hk
  have hrecord : p.ledger.record ⟨i, k⟩ = some r := (ledger_record hi k).trans hr
  obtain ⟨b, -, -, hy, -⟩ := h.owned.linked _ r hrecord
  have hsame := (h.owned.unique b a _ hy x hx (Prod.ext hpool.symm hnumber)).2
  exact congrArg Submission.ticket hsame

/-- A worker that has the number of a submission runs its record. -/
theorem Reachable.running_of_busy (h : p.Reachable) (hi : p.system.pools[i]? = some pool) {a : Nat}
    {x : Submission} (hx : x ∈ p.ledger.submissions a) (hpool : x.pool = i) {w : Nat} {done : Bool}
    (hw : pool.diary.post w = some (.busy x.ticket.number done)) :
    pool.queue.status? x.ticket = some .running := by
  obtain ⟨phase, hphase, hpost⟩ := Option.map_eq_some_iff.mp hw
  cases phase with
  | executing k job stage =>
    obtain ⟨hnumber, -⟩ : k.number = x.ticket.number ∧ _ := by simpa [Phase.post] using hpost
    have hk := (h.poolsSound i pool hi).staffed.executing w k (Pool.ticketOf?_of_phase hphase)
    exact h.ticket_eq hi hx hpool hk hnumber ▸ hk
  | _ => exact absurd hpost (by simp [Phase.post])

/-- The worker that has a submission in hand has it in the diary. -/
theorem post_of_running (hi : p.system.pools[i]? = some pool) {w : Nat} {k : Ticket} {job : Job}
    {stage : Stage} (hw : p.ledger.running (i, w) = some (k, job, stage)) :
    pool.diary.post w = some (.busy k.number (stage = .over)) := by
  obtain ⟨pool', hi', hphase⟩ := System.phase?_eq_some.mp (running_eq_some.mp hw)
  obtain rfl := Option.some.inj (hi'.symm.trans hi)
  exact Pool.post_diary hphase

/-- Whether the body of a submission has ended shows in the diary. -/
theorem Reachable.done_iff (h : p.Reachable) {a : Nat} {x : Submission}
    (hi : p.system.pools[x.pool]? = some pool) (hx : x ∈ p.ledger.submissions a) {life : Life α}
    (hlife : p.ledger.Lives x a life) :
    pool.diary.Done x.ticket.number ↔
      ∃ w run e, life = .ended w run e ∨ life = .finished w run e := by
  have hbook := h.bookkeeping hi
  have hp := h.poolsSound x.pool pool hi
  have hstatus : Record.lastStatus (pool.queue.get? x.ticket) = life.status := by
    rw [← ledger_record hi x.ticket]
    exact hlife.status
  have hinHand {w : Nat} {stage : Stage}
      (hw : p.ledger.running (x.pool, w) = some (x.ticket, ⟨a⟩, stage)) (hstage : stage ≠ .over) :
      ¬pool.diary.Done x.ticket.number := by
    have hpost := post_of_running hi hw
    rw [decide_eq_false hstage] at hpost
    exact hbook.handled.not_done hbook.numbered hpost
  cases life with
  | waiting =>
    refine iff_of_false (fun hdone => ?_) (by simp)
    have hqueued : pool.queue.status? x.ticket = some .queued := by
      cases hr : pool.queue.get? x.ticket with
      | none => simp [hr, Record.lastStatus, Life.status] at hstatus
      | some r =>
        rw [hr] at hstatus
        exact Queue.status?_eq_some.mpr ⟨r, hr, hstatus⟩
    have hwaits : x.ticket.number ∈ pool.diary.waiting :=
      List.mem_map_of_mem ((hp.queue.waiting_iff x.ticket).mpr hqueued)
    obtain ⟨w, hw⟩ : ∃ w, (w, x.ticket.number) ∈ pool.diary.claims := by
      rcases hdone with ⟨w, u, hmem⟩ | ⟨w, hw⟩
      · exact ⟨w, (hbook.handled.claimed_iff w _).mpr (Or.inl ⟨u, hmem⟩)⟩
      · exact ⟨w, hbook.handled.claimed hw⟩
    exact hbook.numbered.not_claimed hwaits hw
  | claimed w =>
    obtain ⟨v, stage, ⟨-, rfl⟩, hw⟩ := hlife.body rfl
    exact iff_of_false (hinHand hw (by simp)) (by simp)
  | begun w run =>
    obtain ⟨v, stage, ⟨-, hstage⟩, hw⟩ := hlife.body rfl
    exact iff_of_false (hinHand hw (by rcases hstage with rfl | rfl <;> simp)) (by simp)
  | ended w run e =>
    obtain ⟨v, stage, ⟨-, rfl⟩, hw⟩ := hlife.body rfl
    exact iff_of_true (Or.inr ⟨v, post_of_running hi hw⟩) ⟨w, run, e, Or.inl rfl⟩
  | finished w run e =>
    refine iff_of_true ?_ ⟨w, run, e, Or.inr rfl⟩
    have hover (status : Status) (hne : status ≠ .finished) :
        pool.queue.status? x.ticket ≠ some status := by
      intro hk
      obtain ⟨r, hr, rfl⟩ := Queue.status?_eq_some.mp hk
      rw [hr] at hstatus
      exact hne hstatus
    obtain ⟨m, hm, hlt⟩ := h.owned.number_lt a x hx
    obtain rfl : pool.queue.next = m := Option.some.inj ((ledger_next hi).symm.trans hm)
    have hmem := hbook.numbered.numbers.mem_iff.mpr (List.mem_range.mpr hlt)
    rcases List.mem_append.mp hmem with hmem | hmem
    · obtain ⟨⟨v, n⟩, hv, rfl⟩ := List.mem_map.mp hmem
      rcases (hbook.handled.claimed_iff v _).mp hv with ⟨u, hu⟩ | ⟨done, hw⟩
      · exact Or.inl ⟨v, u, hu⟩
      · exact absurd (h.running_of_busy hi hx rfl hw) (hover _ (by simp))
    · obtain ⟨k, hk, hnumber⟩ := List.mem_map.mp hmem
      have hqueued := (hp.queue.waiting_iff k).mp hk
      exact absurd (h.ticket_eq hi hx rfl hqueued hnumber ▸ hqueued) (hover _ (by simp))

/-- **A panic is noted just when the body panicked.** -/
theorem Reachable.panicked_iff (h : p.Reachable) {a : Nat} {x : Submission}
    (hi : p.system.pools[x.pool]? = some pool) (hx : x ∈ p.ledger.submissions a) :
    (∃ w, (w, x.ticket.number) ∈ pool.diary.panics) ↔ .ended x .panicked ∈ p.history := by
  obtain ⟨life, hlife⟩ := h.chronicled.lives a x hx
  have hbook := h.bookkeeping hi
  have hdone := h.done_iff hi hx hlife
  have hstory : p.story x = life.story x a := hlife.story
  have hended : .ended x .panicked ∈ p.history ↔ .ended x .panicked ∈ life.story x a :=
    hstory ▸ ⟨fun hmem => mem_story.mpr ⟨hmem, rfl⟩, fun hmem => (mem_story.mp hmem).1⟩
  have hgiven : pool.diary.given x.ticket.number = life.result?.isSome := by
    rw [← hlife.result, Submission.place, ledger_result hi]
    exact Std.ExtTreeMap.isSome_getElem?_eq_contains.symm
  rw [hended]
  by_cases hd : pool.diary.Done x.ticket.number
  · rw [hbook.resolved.panicked_iff _ hd, hgiven]
    obtain ⟨w, run, e, rfl | rfl⟩ := hdone.mp hd <;> cases e <;>
      simp [Life.result?, Ending.result?, Life.story]
  · refine iff_of_false ?_ fun hmem => hd ?_
    · rintro ⟨w, hw⟩
      exact hd (hbook.resolved.panic_done w _ hw).2
    · cases life with
      | ended w run e => exact hdone.mpr ⟨w, run, e, Or.inl rfl⟩
      | finished w run e => exact hdone.mpr ⟨w, run, e, Or.inr rfl⟩
      | _ => simp [Life.story] at hmem

end Program

/-! ## 2. Claims and finishes, counted -/

namespace Pool

variable {α : Type} {p : Pool α}

/-- What was claimed is finished, or some worker has it in hand. -/
theorem Sound.claims_perm (h : p.Sound) (hbook : p.diary.Sound) :
    (p.diary.claims.map Prod.snd).Perm
      (p.diary.finishes.map (fun f => f.2.1) ++ p.inHand.map (·.number)) := by
  have hbusy {k : Ticket} (hk : k ∈ p.inHand) :
      ∃ w done, p.diary.post w = some (.busy k.number done) ∧ p.ticketOf? w = some k := by
    obtain ⟨w, hw⟩ := mem_inHand.mp hk
    obtain ⟨phase, hphase, hticket⟩ := Option.bind_eq_some_iff.mp hw
    cases phase with
    | executing k' job stage =>
      obtain rfl : k' = k := by simpa [Phase.ticket?] using hticket
      exact ⟨w, _, post_diary hphase, hw⟩
    | _ => simp [Phase.ticket?] at hticket
  have hnodup : (p.diary.finishes.map (fun f => f.2.1) ++ p.inHand.map (·.number)).Nodup := by
    refine List.nodup_append.mpr ⟨hbook.handled.finishes_nodup, ?_, ?_⟩
    · refine h.staffed.inHand_nodup.map_on fun k hk k' hk' hnumber => ?_
      obtain ⟨w, done, hw, hwk⟩ := hbusy hk
      obtain ⟨v, done', hv, hvk⟩ := hbusy hk'
      have hclaimed := hbook.handled.claimed hv
      rw [← hnumber] at hclaimed
      obtain rfl := hbook.numbered.claimer_eq (hbook.handled.claimed hw) hclaimed
      exact Option.some.inj (hwk.symm.trans hvk)
    · rintro n hn m hm rfl
      obtain ⟨⟨w, n', u⟩, hmem, rfl⟩ := List.mem_map.mp hn
      obtain ⟨k, hk, hnumber⟩ := List.mem_map.mp hm
      obtain ⟨v, done, hv, -⟩ := hbusy hk
      rw [hnumber] at hv
      exact hbook.handled.unfinished v _ done hv w u hmem
  refine (List.perm_ext_iff_of_nodup hbook.numbered.claims_nodup hnodup).mpr fun n => ?_
  rw [List.mem_append, List.mem_map, List.mem_map, List.mem_map]
  constructor
  · rintro ⟨⟨w, n⟩, hw, rfl⟩
    rcases (hbook.handled.claimed_iff w n).mp hw with ⟨u, hu⟩ | ⟨done, hw⟩
    · exact Or.inl ⟨_, hu, rfl⟩
    · obtain ⟨phase, hphase, hpost⟩ := Option.map_eq_some_iff.mp hw
      cases phase with
      | executing k job stage =>
        obtain ⟨hnumber, -⟩ : k.number = n ∧ _ := by simpa [Phase.post] using hpost
        exact Or.inr ⟨k, mem_inHand.mpr ⟨w, ticketOf?_of_phase hphase⟩, hnumber⟩
      | _ => exact absurd hpost (by simp [Phase.post])
  · rintro (⟨⟨w, n, u⟩, hmem, rfl⟩ | ⟨k, hk, rfl⟩)
    · exact ⟨(w, n), (hbook.handled.claimed_iff w n).mpr (Or.inl ⟨u, hmem⟩), rfl⟩
    · obtain ⟨w, done, hw, -⟩ := hbusy hk
      exact ⟨(w, k.number), hbook.handled.claimed hw, rfl⟩

/-- In a pool where nobody is under way, who has a record in hand waits at a gate. -/
theorem length_inHand (hrests : ∀ phase ∈ p.workers, phase.isUnderWay = false) :
    p.inHand.length = p.heldUp := by
  rw [inHand, List.length_filterMap_eq_countP, heldUp]
  refine List.countP_congr fun phase hmem => ?_
  have hphase := hrests phase hmem
  rcases phase with _ | _ | ⟨k, job, _ | _ | _ | _⟩ | _ <;>
    simp_all [Phase.isUnderWay, Phase.ticket?, Phase.blockedRun?]

end Pool

/-! ## 3. The account -/

namespace Session

variable {α : Type} {S : Session α} {schedule : Schedule α}

/-- The notes under the name of a pool. -/
def notesOf (S : Session α) (name : String) : List PoolNote :=
  S.notes.filterMap fun note => if note.1 = name then some note.2 else none

/-- What `notes` of the pool at place `i` tell after some commands. -/
structure Account (processors : Nat) (schedule : Schedule α) (commands : List (Command α))
    (i : Nat) (pool : Pool α) (notes : List PoolNote) : Prop where
  /-- The workers that were started, in turn. -/
  started : notes.reverse.filterMap PoolNote.started? =
    (List.range pool.workers.length).map fun w => (w, w + 1)
  exited_nodup : (notes.filterMap PoolNote.exited?).Nodup
  exited_started : ∀ w ∈ notes.filterMap PoolNote.exited?, w < pool.workers.length
  /-- Those that have not left are the threads of the pool. -/
  threads : (notes.filterMap PoolNote.started?).length =
    (notes.filterMap PoolNote.exited?).length + pool.threads
  living : pool.threads = pool.workers.countP Phase.isIn
  /-- The numbers of the accepted submissions. -/
  submitted : (notes.filterMap PoolNote.submitted?).reverse =
    List.range (((start processors).after schedule commands).system.submissionsTo i).length
  claimed_nodup : ((notes.filterMap PoolNote.claimed?).map Prod.snd).Nodup
  finished_nodup : ((notes.filterMap PoolNote.finished?).map fun f => f.2.1).Nodup
  finished_claimed : ∀ w n u, (w, n, u) ∈ notes.filterMap PoolNote.finished? →
    (w, n) ∈ notes.filterMap PoolNote.claimed?
  panicked_nodup : ((notes.filterMap PoolNote.panicked?).map Prod.snd).Nodup
  panicked_claimed : ∀ w n, (w, n) ∈ notes.filterMap PoolNote.panicked? →
    (w, n) ∈ notes.filterMap PoolNote.claimed?
  /-- The panics are those of the bodies, in any history that leads here. -/
  panicked_iff : ∀ q : Program α, q.Reachable →
    q.system = ((start processors).after schedule commands).system → ∀ x ∈ q.system.submissionsTo i,
      (∃ w, (w, x.ticket.number) ∈ notes.filterMap PoolNote.panicked?) ↔
        .ended x .panicked ∈ q.history
  /-- What was claimed and is not finished waits at a gate. -/
  blocked : (notes.filterMap PoolNote.claimed?).length =
    (notes.filterMap PoolNote.finished?).length + pool.heldUp
  /-- What was submitted and not claimed waits for a worker. -/
  queued : (notes.filterMap PoolNote.submitted?).length =
    (notes.filterMap PoolNote.claimed?).length + pool.queue.queued.length
  /-- The record went with its finish if the task had been detached before. -/
  unlinked_iff : ∀ w n u, (w, n, u) ∈ notes.filterMap PoolNote.finished? →
    (u = true ↔ ∃ before, before <+: commands ∧
      ((start processors).after schedule before).system.Loses i n ∧
      ∀ w' u', (w', n, u') ∉
        ((start processors).after schedule before).system.finishesAt i)

/-- The notes of a pool that scripts use. -/
theorem account (processors : Nat) (hschedule : Schedule.Diligent schedule)
    (commands : List (Command α)) {i : Nat} {pool : Pool α}
    (hi : ((start processors).after schedule commands).system.pools[i]? = some pool) :
    Account processors schedule commands i pool pool.journal := by
  have hsettled : ((start processors : Session α).after schedule commands).Settled :=
    (Settled.start processors).after hschedule commands
  obtain ⟨p, hp, -, hsystem⟩ := hsettled.occurs
  have hi' : p.system.pools[i]? = some pool := hsystem ▸ hi
  have hsound := hp.poolsSound i pool hi'
  have hbook := hp.bookkeeping hi'
  have htallied := hsound.tallied (hp.enlisted hi')
  have hcrew : pool.journal.reverse.filterMap PoolNote.started? =
      (List.range pool.workers.length).map fun w => (w, w + 1) := htallied.crew_eq
  have htaken : pool.journal.filterMap PoolNote.submitted? = (List.range pool.queue.next).reverse :=
    hbook.numbered.taken_eq
  have hnext : (((start processors : Session α).after schedule commands).system.submissionsTo
      i).length = pool.queue.next := by
    have hlength := (hp.numbers hi').length_eq
    rw [List.length_map, List.length_range, hsystem] at hlength
    exact hlength
  exact
    { started := hcrew
      exited_nodup := hbook.staffed.exits_nodup
      exited_started := fun w hw => by
        refine hbook.staffed.post_lt w ?_
        rw [(hbook.staffed.mem_exits w).mp hw]
        simp
      threads := by
        have hlength := congrArg List.length hcrew
        rw [List.filterMap_reverse, List.length_reverse, List.length_map,
          List.length_range] at hlength
        rw [hlength, Nat.add_comm]
        exact hbook.staffed.hired_eq
      living := htallied.threads_eq
      submitted := by rw [htaken, List.reverse_reverse, hnext]
      claimed_nodup := hbook.numbered.claims_nodup
      finished_nodup := hbook.handled.finishes_nodup
      finished_claimed := fun w n u hmem =>
        (hbook.handled.claimed_iff w n).mpr (Or.inl ⟨u, hmem⟩)
      panicked_nodup := hbook.resolved.panics_nodup
      panicked_claimed := fun w n hmem => (hbook.resolved.panic_done w n hmem).1
      panicked_iff := by
        intro q hq hqs x hx
        obtain ⟨rfl, a, hx⟩ := Program.mem_submissionsTo_iff.mp hx
        exact hq.panicked_iff (hqs ▸ hi) hx
      blocked := by
        have hlength := (hsound.claims_perm hbook).length_eq
        rw [List.length_map, List.length_append, List.length_map, List.length_map,
          Pool.length_inHand fun phase hphase =>
            hsettled.rests.isUnderWay_eq_false (List.mem_of_getElem? hi) hphase] at hlength
        exact hlength
      queued := by
        have hlength := hbook.numbered.numbers.length_eq
        rw [List.length_append, List.length_map, List.length_range] at hlength
        rw [htaken, List.length_reverse, List.length_range, hsound.length_queued]
        have hwaiting : pool.diary.waiting.length = pool.queue.waiting.length :=
          List.length_map Ticket.number
        exact hlength.symm.trans (by rw [hwaiting]; rfl)
      unlinked_iff := fun w n u hmem => by
        refine Session.unlinked_iff (w := w) hschedule commands ?_
        rw [System.finishesAt_of_pool hi]
        exact hmem }

/-- Notes of an end say nothing of all that. -/
theorem Account.append {processors : Nat} {commands : List (Command α)} {i : Nat} {pool : Pool α}
    {notes ends : List PoolNote} (h : Account processors schedule commands i pool notes)
    (hends : ∀ n ∈ ends, n.isClosing = true) :
    Account processors schedule commands i pool (notes ++ ends) := by
  have hkept {β : Type} (f : PoolNote → Option β) (hdown : f .shutDown = none)
      (hclosed : ∀ pending, f (.closed pending) = none) :
      (notes ++ ends).filterMap f = notes.filterMap f := by
    have hnone : ends.filterMap f = [] := by
      refine List.filterMap_eq_nil_iff.mpr fun n hn => ?_
      have hclosing := hends n hn
      cases n with
      | shutDown => exact hdown
      | closed pending => exact hclosed pending
      | _ => exact absurd hclosing (by simp [PoolNote.isClosing])
    rw [List.filterMap_append, hnone, List.append_nil]
  have hstarted := hkept PoolNote.started? rfl fun _ => rfl
  have hexited := hkept PoolNote.exited? rfl fun _ => rfl
  have hsubmitted := hkept PoolNote.submitted? rfl fun _ => rfl
  have hclaimed := hkept PoolNote.claimed? rfl fun _ => rfl
  have hfinished := hkept PoolNote.finished? rfl fun _ => rfl
  have hpanicked := hkept PoolNote.panicked? rfl fun _ => rfl
  constructor
  · rw [List.filterMap_reverse, hstarted, ← List.filterMap_reverse]
    exact h.started
  · exact hexited ▸ h.exited_nodup
  · exact hexited ▸ h.exited_started
  · rw [hstarted, hexited]
    exact h.threads
  · exact h.living
  · exact hsubmitted ▸ h.submitted
  · exact hclaimed ▸ h.claimed_nodup
  · exact hfinished ▸ h.finished_nodup
  · rw [hfinished, hclaimed]
    exact h.finished_claimed
  · exact hpanicked ▸ h.panicked_nodup
  · rw [hpanicked, hclaimed]
    exact h.panicked_claimed
  · exact hpanicked ▸ h.panicked_iff
  · rw [hclaimed, hfinished]
    exact h.blocked
  · rw [hsubmitted, hclaimed]
    exact h.queued
  · exact hfinished ▸ h.unlinked_iff

/-- What is under one key of a list whose keys differ. -/
theorem flatMap_key {β γ : Type} (key : β → String) (f : β → List γ) {l : List β} {b : β}
    (hnodup : (l.map key).Nodup) (hb : b ∈ l) :
    (l.flatMap fun c => if key c = key b then f c else []) = f b := by
  obtain ⟨before, after, rfl⟩ := List.append_of_mem hb
  rw [List.map_append, List.map_cons, List.nodup_append, List.nodup_cons] at hnodup
  obtain ⟨-, ⟨hafter, -⟩, hbefore⟩ := hnodup
  have hnone {l : List β} (hl : ∀ c ∈ l, key c ≠ key b) :
      (l.flatMap fun c => if key c = key b then f c else []) = [] :=
    List.flatMap_eq_nil_iff.mpr fun c hc => if_neg (hl c hc)
  rw [List.flatMap_append, List.flatMap_cons, if_pos rfl, hnone, hnone, List.append_nil,
    List.nil_append]
  · exact fun c hc he => hafter (he ▸ List.mem_map_of_mem hc)
  · exact fun c hc => hbefore _ (List.mem_map_of_mem hc) _ List.mem_cons_self

/-- The ends that are noted under a name of pools which a command built and ended at once. -/
def passingEnds (S : Session α) (name : String) : List PoolNote :=
  (S.passing.filter fun p => p.plan.name = name).flatMap (·.journal)

/-- Under the name of a pool in the list are its own notes and the ends of others. -/
theorem Named.notesOf_eq (h : S.Named) {pool : Pool α} (hpool : pool ∈ S.system.pools) :
    S.notesOf pool.plan.name = pool.journal ++ S.passingEnds pool.plan.name := by
  have hone (p : Pool α) : (p.journal.map fun n => (p.plan.name, n)).filterMap
        (fun note => if note.1 = pool.plan.name then some note.2 else none) =
      if p.plan.name = pool.plan.name then p.journal else [] := by
    rw [List.filterMap_map]
    split
    · next hname => simp [hname]
    · next hname => simp [hname]
  have hpools := flatMap_key (fun p : Pool α => p.plan.name) (·.journal) h.nodup hpool
  have hpassing : (S.passing.flatMap fun p =>
      if p.plan.name = pool.plan.name then p.journal else []) =
        S.passingEnds pool.plan.name := by
    unfold passingEnds
    induction S.passing with
    | nil => rfl
    | cons p rest ih =>
      rw [List.flatMap_cons, ih, List.filter_cons]
      split <;> simp_all
  rw [notesOf, notes, List.filterMap_flatMap, ← hpassing]
  simp only [hone, List.flatMap_append]
  rw [hpools]

/-- **The log of a script is a faithful account.**  The logs of the reports on the first commands
show every note until then once.  The pools have different names, and the notes under the name of
one are an account of it; its end is among them at most once, and besides it only the ends of
pools that had this name and that a command built and ended at once. -/
theorem log_is_faithful (processors : Nat) (hschedule : Schedule.Diligent schedule) (quiet : Bool)
    (commands rest : List (Command α)) :
    let S := (start processors).after schedule commands
    let reports := (Script.runBy processors schedule ⟨commands ++ rest, quiet, true⟩).take
      commands.length
    (reports.flatMap fun r => r.log.getD []).Perm
        (S.notes.map (fun note => note.2.render note.1) ++
          S.system.journal.map TaskNote.render) ∧
      (S.system.pools.map (·.plan.name)).Nodup ∧
      ∀ (i : Nat) (pool : Pool α), S.system.pools[i]? = some pool →
        Account processors schedule commands i pool (S.notesOf pool.plan.name) ∧
        pool.journal.countP PoolNote.isClosing ≤ 1 ∧
        S.notesOf pool.plan.name = pool.journal ++ S.passingEnds pool.plan.name ∧
        ∀ n ∈ S.passingEnds pool.plan.name, n = .closed 0 ∨ n = .shutDown := by
  intro S reports
  have hnamed : S.Named := (Settled.start processors).named_after hschedule (.start _) commands
  refine ⟨?_, hnamed.nodup, fun i pool hi => ?_⟩
  · have hlines := (Settled.start processors).reports_lines hschedule quiet commands rest
    rwa [lines_start, List.append_nil] at hlines
  have hends : ∀ n ∈ S.passingEnds pool.plan.name, n = .closed 0 ∨ n = .shutDown := by
    intro n hn
    obtain ⟨p, hp, hn⟩ := List.mem_flatMap.mp hn
    rcases hnamed.passing p (List.mem_filter.mp hp).1 with he | he <;> rw [he] at hn
    · exact Or.inl (List.mem_singleton.mp hn)
    · exact Or.inr (List.mem_singleton.mp hn)
  have hnotes := hnamed.notesOf_eq (List.mem_of_getElem? hi)
  obtain ⟨p, hp, -, hsystem⟩ := ((Settled.start processors).after hschedule commands).occurs
  have hclosings := (hp.bookkeeping (hsystem ▸ hi)).staffed.closings_eq
  refine ⟨hnotes ▸ (account processors hschedule commands hi).append fun n hn => ?_, ?_, hnotes,
    hends⟩
  · rcases hends n hn with rfl | rfl <;> rfl
  · show pool.diary.closings ≤ 1
    rw [hclosings]
    split <;> simp

/-- A body that waits at its gate panics after its task was detached. -/
def forsaken : List (Command Nat) :=
  [.buildPool "a" { threads := some 1, limit := none, name := some "x" },
    .createTask "t" ⟨.const 7, .always, .always, 3⟩, .submit "a" "t", .detach "t", .openOrphan]

theorem forsaken_is_accounted :
    ∃ pool, ((start 1).after System.bodiesFirst forsaken).system.pools[0]? = some pool ∧
      pool.plan.name = "x" ∧
      Account 1 System.bodiesFirst forsaken 0 pool
        (((start 1).after System.bodiesFirst forsaken).notesOf "x") ∧
      ((start 1).after System.bodiesFirst forsaken).notesOf "x" =
        [.finished 0 0 true, .panicked 0 0, .claimed 0 0, .submitted 0, .spawnedWorker 0 1] := by
  obtain ⟨-, -, hpools⟩ :=
    log_is_faithful (α := Nat) 1 System.bodiesFirst_diligent false forsaken []
  obtain ⟨pool, hi, hname⟩ : ∃ pool,
      ((start 1).after System.bodiesFirst forsaken).system.pools[0]? = some pool ∧
        pool.plan.name = "x" :=
    Option.map_eq_some_iff (f := fun pool : Pool Nat => pool.plan.name).mp (by decide)
  obtain ⟨haccount, -⟩ := hpools 0 pool hi
  rw [hname] at haccount
  exact ⟨pool, hi, hname, haccount, by decide⟩

/-- Two pools are asked for under one name, and the first is dropped. -/
def namesakes : List (Command Nat) :=
  [.buildPool "a" { threads := some 1, limit := none, name := some "x" },
    .buildPool "b" { threads := some 1, limit := none, name := some "x" }, .dropPool "a"]

/-- The name is logged twice as that of a pool that closed. -/
theorem namesakes_close_twice :
    ((Script.runBy 1 System.bodiesFirst ⟨namesakes, false, true⟩).flatMap
      fun r => r.log.getD []).count "DEBUG pool closed pool=x pending=0" = 2 := by
  have hlines := ((Settled.start 1).reports_lines System.bodiesFirst_diligent false namesakes
    []).count_eq "DEBUG pool closed pool=x pending=0"
  rw [lines_start, List.append_nil] at hlines
  refine Eq.trans ?_ (hlines.trans (by decide))
  rfl

end Session
end WorkerPool
