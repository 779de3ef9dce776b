/-
# A record queue does what its history tells

A queue keeps its records in cells that it uses again, and the waiting tickets in a list of
their own.  `QueueHistory` knows of neither: it tells from the steps that were tried what has become
of each record, and what the next step will be answered with.  `Tells` says that the two agree.
Every step keeps it (`Tells.step`), so a trial of a queue and its history cannot be told apart by
any answer.

A record that is gone stays gone, and a step that still names it changes nothing, whatever
has been put into its cell since.
-/
import WorkerPool.Proofs.QueueSound
import WorkerPool.Queue.History

namespace WorkerPool

/-! ## 1. One event more -/

namespace QueueHistory

variable {L : Type} {h : QueueHistory L} {e : QueueEvent L} {n : Nat}

theorem labels_cons (e : QueueEvent L) (h : QueueHistory L) :
    labels (e :: h) = h.labels ++ e.pushed?.toList := by
  cases he : e.pushed? <;> simp [labels, he]

theorem pushes_cons_of_none (he : e.pushed? = none) : pushes (e :: h) = h.pushes := by
  simp [pushes, labels_cons, he]

theorem claimed_cons (e : QueueEvent L) (h : QueueHistory L) (n : Nat) :
    claimed (e :: h) n = (e.claims n || h.claimed n) := List.any_cons

theorem finished_cons (e : QueueEvent L) (h : QueueHistory L) (n : Nat) :
    finished (e :: h) n = (e.finishes n || h.finished n) := List.any_cons

theorem joined_cons (e : QueueEvent L) (h : QueueHistory L) (n : Nat) :
    joined (e :: h) n = (e.joins n || h.joined n) := List.any_cons

theorem detached_cons (e : QueueEvent L) (h : QueueHistory L) (n : Nat) :
    detached (e :: h) n = (e.detaches n || h.detached n) := List.any_cons

theorem removed_cons (e : QueueEvent L) (h : QueueHistory L) (n : Nat) :
    removed (e :: h) n = (e.removes n && h.finished n || h.removed n) := rfl

theorem finished_of_removed (hr : h.removed n = true) : h.finished n = true := by
  induction h with
  | nil => exact absurd hr (by simp [removed])
  | cons e h ih =>
    rw [finished_cons, Bool.or_eq_true]
    rcases (Bool.or_eq_true _ _).mp hr with hr | hr
    · exact Or.inr ((Bool.and_eq_true _ _).mp hr).2
    · exact Or.inr (ih hr)

theorem finished_of_gone (hg : h.gone n = true) : h.finished n = true :=
  ((Bool.and_eq_true _ _).mp hg).1

/-- A record that waits or runs has not been removed. -/
theorem removed_of_unfinished (hf : h.finished n = false) : h.removed n = false := by
  cases hr : h.removed n with
  | false => rfl
  | true => exact absurd (finished_of_removed hr) (by simp [hf])

theorem gone_of_unfinished (hf : h.finished n = false) : h.gone n = false := by
  simp [gone, hf]

/-- What is gone stays gone. -/
theorem gone_cons (e : QueueEvent L) (hg : h.gone n = true) : gone (e :: h) n = true := by
  simp only [gone, finished_cons, detached_cons, removed_cons, Bool.and_eq_true,
    Bool.or_eq_true] at hg ⊢
  exact ⟨Or.inr hg.1, hg.2.imp Or.inr Or.inr⟩

theorem gone_follow (limit : Nat) (steps : List (QueueStep L)) (hg : h.gone n = true) :
    (h.follow limit steps).gone n = true := by
  induction steps generalizing h with
  | nil => exact hg
  | cons s rest ih =>
    unfold follow
    split
    · exact ih hg
    · exact ih (gone_cons _ hg)

theorem follow_append (limit : Nat) (h : QueueHistory L) (steps more : List (QueueStep L)) :
    h.follow limit (steps ++ more) = (h.follow limit steps).follow limit more := by
  induction steps generalizing h with
  | nil => rfl
  | cons s rest ih =>
    simp only [List.cons_append, follow]
    split <;> exact ih _

theorem record?_eq_none : h.record? n = none ↔ h.gone n = true := by
  simp [record?]

/-- A record that is there has the fields that the history tells. -/
theorem record?_eq_some {r : Record L} (hr : h.record? n = some r) :
    h.gone n = false ∧ r = ⟨n, h.status n, h.joined n, h.detached n,
      if h.status n = .queued then h.labels[n]? else none⟩ := by
  unfold record? at hr
  split at hr
  · exact absurd hr (by simp)
  · next hg => exact ⟨by simpa using hg, (Option.some.inj hr).symm⟩

theorem status_eq_queued : h.status n = .queued ↔ h.finished n = false ∧ h.claimed n = false := by
  unfold status
  cases h.finished n <;> cases h.claimed n <;> simp

theorem status_eq_running : h.status n = .running ↔ h.finished n = false ∧ h.claimed n = true := by
  unfold status
  cases h.finished n <;> cases h.claimed n <;> simp

theorem status_eq_finished : h.status n = .finished ↔ h.finished n = true := by
  unfold status
  cases h.finished n <;> cases h.claimed n <;> simp

/-- A record is there whenever it has not finished. -/
theorem record?_of_unfinished (hf : h.finished n = false) : ∃ r, h.record? n = some r ∧
    r.status = h.status n := by
  simp [record?, gone_of_unfinished hf]

/-- Only a claim or a finish changes how far a record has come. -/
theorem status_cons (hclaims : e.claims n = false) (hfinishes : e.finishes n = false) :
    status (e :: h) n = h.status n := by
  simp only [status, finished_cons, claimed_cons, hfinishes, hclaims, Bool.false_or]

/-- An event that is about another record is about no field of this one. -/
theorem fields_of_ne (hkey : e.key? ≠ some n) : e.claims n = false ∧ e.finishes n = false ∧
    e.joins n = false ∧ e.detaches n = false ∧ e.removes n = false := by
  obtain ⟨s, reply⟩ := e
  refine ⟨?_, ?_, ?_, ?_, ?_⟩ <;> cases s <;> cases reply <;>
    simp_all [QueueEvent.key?, QueueStep.key?, QueueEvent.claims, QueueEvent.finishes,
      QueueEvent.joins, QueueEvent.detaches, QueueEvent.removes]

/-- Only what is about a record changes it. -/
theorem record?_cons (hn : n < h.pushes) (hclaims : e.claims n = false)
    (hfinishes : e.finishes n = false) (hjoins : e.joins n = false)
    (hdetaches : e.detaches n = false)
    (hremoves : e.removes n = true → h.finished n = true → h.gone n = true) :
    record? (e :: h) n = h.record? n := by
  have hlabel : (labels (e :: h))[n]? = h.labels[n]? := by
    rw [labels_cons, List.getElem?_append_left hn]
  have hgone : gone (e :: h) n = h.gone n := by
    by_cases hg : h.gone n = true
    · rw [gone_cons e hg, hg]
    · have hfinished : (e.removes n && h.finished n) = false := by
        rw [Bool.and_eq_false_iff, ← Bool.not_eq_true, ← Bool.not_eq_true]
        exact Classical.or_iff_not_imp_left.mpr fun hr hf => hg (hremoves (by simpa using hr) hf)
      simp only [gone, finished_cons, detached_cons, removed_cons, hfinishes, hdetaches,
        Bool.false_or, hfinished]
  simp only [record?, hgone, status_cons hclaims hfinishes, hlabel, joined_cons, detached_cons,
    hjoins, hdetaches, Bool.false_or]

theorem record?_cons_of_ne (hn : n < h.pushes) (hkey : e.key? ≠ some n) :
    record? (e :: h) n = h.record? n := by
  obtain ⟨hclaims, hfinishes, hjoins, hdetaches, hremoves⟩ := fields_of_ne hkey
  exact record?_cons hn hclaims hfinishes hjoins hdetaches (by simp [hremoves])

/-! ## 2. What an event does to its record -/

theorem record?_claim (label : L) (hs : h.status n = .queued) :
    record? (⟨.claim, .claimed n label⟩ :: h) n =
      (h.record? n).map fun r => { r with status := .running, job := none } := by
  obtain ⟨hf, -⟩ := status_eq_queued.mp hs
  have hremoved := removed_of_unfinished hf
  simp [record?, gone, status, claimed_cons, finished_cons, joined_cons, detached_cons,
    removed_cons, hf, hremoved, QueueEvent.claims, QueueEvent.finishes, QueueEvent.joins,
    QueueEvent.detaches, QueueEvent.removes]

theorem record?_finish (unlinked : Bool) (hs : h.status n = .running) :
    record? (⟨.finish n, .finished unlinked⟩ :: h) n =
      if h.detached n then none
      else (h.record? n).map fun r => { r with status := .finished } := by
  obtain ⟨hf, hc⟩ := status_eq_running.mp hs
  have hremoved := removed_of_unfinished hf
  simp [record?, gone, status, finished_cons, joined_cons, detached_cons, removed_cons, hf, hc,
    hremoved, QueueEvent.finishes, QueueEvent.joins, QueueEvent.detaches, QueueEvent.removes]

theorem record?_join (reply : QueueReply L) :
    record? (⟨.join n, reply⟩ :: h) n =
      (h.record? n).map fun r => { r with joined := true } := by
  have hlabels : labels (⟨.join n, reply⟩ :: h) = h.labels := by
    simp [labels_cons, QueueEvent.pushed?]
  have hgone : gone (⟨.join n, reply⟩ :: h) n = h.gone n := by
    simp [gone, finished_cons, detached_cons, removed_cons, QueueEvent.finishes,
      QueueEvent.detaches, QueueEvent.removes]
  have hstatus : status (⟨.join n, reply⟩ :: h) n = h.status n := status_cons rfl rfl
  by_cases hg : h.gone n = true <;>
    simp [record?, hg, hgone, hstatus, hlabels, joined_cons, detached_cons, QueueEvent.joins,
      QueueEvent.detaches]

theorem record?_detach (reply : QueueReply L) :
    record? (⟨.detach n, reply⟩ :: h) n =
      (h.record? n).bind fun r =>
        if r.status = .finished then none else some { r with detached := true } := by
  have hlabels : labels (⟨.detach n, reply⟩ :: h) = h.labels := by
    simp [labels_cons, QueueEvent.pushed?]
  have hgone : gone (⟨.detach n, reply⟩ :: h) n = h.finished n := by
    simp [gone, finished_cons, detached_cons, QueueEvent.finishes, QueueEvent.detaches]
  have hstatus : status (⟨.detach n, reply⟩ :: h) n = h.status n := status_cons rfl rfl
  by_cases hf : h.finished n = true
  · -- a finished record goes, if it has not gone before
    have hs := status_eq_finished.mpr hf
    by_cases hg : h.gone n = true <;> simp [record?, hg, hgone, hf, hs]
  · have hs : h.status n ≠ .finished := fun hs => hf (status_eq_finished.mp hs)
    have hg := gone_of_unfinished (by simpa using hf)
    simp [record?, hg, hgone, hf, hs, hstatus, hlabels, joined_cons, detached_cons,
      QueueEvent.joins, QueueEvent.detaches]

theorem record?_remove (reply : QueueReply L) (hs : h.status n = .finished) :
    record? (⟨.remove n, reply⟩ :: h) n = none := by
  have hf := status_eq_finished.mp hs
  simp [record?, gone, finished_cons, removed_cons, hf, QueueEvent.removes]

end QueueHistory

/-! ## 3. A trial and its history -/

namespace QueueTrial

variable {S : Type → Type} [Slab S] {L : Type} {t : QueueTrial S L} {h : QueueHistory L}
  {limit : Nat}

/-- The trial after a list of steps. -/
def after (t : QueueTrial S L) : List (QueueStep L) → QueueTrial S L
  | [] => t
  | s :: rest =>
    match t.step s with
    | .error _ => t.after rest
    | .ok (_, t') => t'.after rest

/-- The queue has the records that the history tells of. -/
structure Tells (limit : Nat) (t : QueueTrial S L) (h : QueueHistory L) : Prop where
  sound : t.queue.Sound
  limit_eq : t.queue.limit = limit
  next_eq : t.queue.next = h.pushes
  /-- The submission number of a record is the number of its push. -/
  numbers : t.tickets.map (·.number) = List.range h.pushes
  record : ∀ k ∈ t.tickets, t.queue.get? k = h.record? k.number
  ticketed : ∀ k r, t.queue.get? k = some r → k ∈ t.tickets
  /-- Nothing was tried on a record before its push. -/
  known : ∀ e ∈ h, ∀ n, e.key? = some n → n < h.pushes

theorem Tells.start (limit : Nat) : Tells limit (start limit : QueueTrial S L) [] where
  sound := .empty limit
  limit_eq := rfl
  next_eq := rfl
  numbers := rfl
  record := by simp [QueueTrial.start]
  ticketed := by simp [QueueTrial.start]
  known := by simp

theorem Tells.number_lt (ht : Tells limit t h) {k : Ticket} (hk : k ∈ t.tickets) :
    k.number < h.pushes := by
  have hmem : k.number ∈ t.tickets.map (·.number) := List.mem_map_of_mem hk
  rw [ht.numbers] at hmem
  exact List.mem_range.mp hmem

/-- The ticket of a record is in the place of its number. -/
theorem Tells.getElem? (ht : Tells limit t h) {n : Nat} {k : Ticket}
    (hk : t.tickets[n]? = some k) : k.number = n := by
  have hget : (t.tickets.map (·.number))[n]? = some k.number := by
    rw [List.getElem?_map, hk]
    rfl
  rw [ht.numbers] at hget
  obtain ⟨hlt, he⟩ := List.getElem?_eq_some_iff.mp hget
  rw [List.getElem_range] at he
  exact he.symm

theorem Tells.ticket_unique (ht : Tells limit t h) {k k' : Ticket} (hk : k ∈ t.tickets)
    (hk' : k' ∈ t.tickets) (hn : k.number = k'.number) : k = k' := by
  obtain ⟨n, hn'⟩ := List.getElem?_of_mem hk
  obtain ⟨m, hm⟩ := List.getElem?_of_mem hk'
  obtain rfl : n = m := (ht.getElem? hn').symm.trans (hn.trans (ht.getElem? hm))
  exact Option.some.inj (hn'.symm.trans hm)

/-- Every record that was pushed has its ticket. -/
theorem Tells.exists_ticket (ht : Tells limit t h) {n : Nat} (hn : n < h.pushes) :
    ∃ k ∈ t.tickets, k.number = n := by
  have hmem : n ∈ t.tickets.map (·.number) := ht.numbers ▸ List.mem_range.mpr hn
  simpa using List.mem_map.mp hmem

/-- A key names a push that succeeded, or there was no such push. -/
theorem Tells.key_cases (ht : Tells limit t h) (n : Nat) :
    t.tickets[n]? = none ∧ ¬ n < h.pushes ∨
      ∃ k ∈ t.tickets, t.tickets[n]? = some k ∧ k.number = n ∧ n < h.pushes := by
  cases hk : t.tickets[n]? with
  | none =>
    refine Or.inl ⟨rfl, fun hn => ?_⟩
    obtain ⟨k, hmem, rfl⟩ := ht.exists_ticket hn
    obtain ⟨m, hm⟩ := List.getElem?_of_mem hmem
    rw [ht.getElem? hm, hm] at hk
    exact absurd hk (by simp)
  | some k =>
    have hmem := List.mem_of_getElem? hk
    exact Or.inr ⟨k, hmem, rfl, ht.getElem? hk, ht.getElem? hk ▸ ht.number_lt hmem⟩

/-- An event about no record. -/
theorem Tells.skip (ht : Tells limit t h) {e : QueueEvent L} (hpush : e.pushed? = none)
    (hkey : e.key? = none) : Tells limit t (e :: h) := by
  have hpushes := QueueHistory.pushes_cons_of_none (h := h) hpush
  refine ⟨ht.sound, ht.limit_eq, hpushes ▸ ht.next_eq, hpushes ▸ ht.numbers, ?_, ht.ticketed, ?_⟩
  · intro k hk
    rw [QueueHistory.record?_cons_of_ne (ht.number_lt hk) (by simp [hkey])]
    exact ht.record k hk
  · intro e' he' n hn
    rw [hpushes]
    rcases List.mem_cons.mp he' with rfl | he'
    · exact absurd (hkey.symm.trans hn) (by simp)
    · exact ht.known e' he' n hn

/-- An event about one record, which changes no other. -/
theorem Tells.change (ht : Tells limit t h) {e : QueueEvent L} (hpush : e.pushed? = none)
    {k : Ticket} (hk : k ∈ t.tickets) (hkey : e.key? = some k.number) {q : Queue S L}
    (hq : q.Sound) (hlimit : q.limit = t.queue.limit) (hnext : q.next = t.queue.next)
    (hother : ∀ k', k' ≠ k → q.get? k' = t.queue.get? k')
    (hrecord : q.get? k = QueueHistory.record? (e :: h) k.number) :
    Tells limit { t with queue := q } (e :: h) := by
  have hpushes := QueueHistory.pushes_cons_of_none (h := h) hpush
  refine ⟨hq, hlimit.trans ht.limit_eq, hpushes ▸ hnext.trans ht.next_eq, hpushes ▸ ht.numbers,
    ?_, ?_, ?_⟩
  · intro k' hk'
    by_cases he : k' = k
    · rw [he]
      exact hrecord
    · rw [QueueHistory.record?_cons_of_ne (ht.number_lt hk') ?_]
      · exact (hother k' he).trans (ht.record k' hk')
      · rw [hkey]
        intro hn
        exact he (ht.ticket_unique hk' hk (Option.some.inj hn).symm)
  · intro k' r hr
    by_cases he : k' = k
    · rw [he]
      exact hk
    · exact ht.ticketed k' r ((hother k' he).symm.trans hr)
  · intro e' he' n hn
    rw [hpushes]
    rcases List.mem_cons.mp he' with rfl | he'
    · exact Option.some.inj (hkey.symm.trans hn) ▸ ht.number_lt hk
    · exact ht.known e' he' n hn

/-- An event about one record that does not change it. -/
theorem Tells.keep (ht : Tells limit t h) {e : QueueEvent L} (hpush : e.pushed? = none)
    {k : Ticket} (hk : k ∈ t.tickets) (hkey : e.key? = some k.number)
    (hrecord : QueueHistory.record? (e :: h) k.number = h.record? k.number) :
    Tells limit t (e :: h) :=
  ht.change hpush hk hkey ht.sound rfl rfl (fun _ _ => rfl) ((ht.record k hk).trans hrecord.symm)

/-- As many records as were pushed and are not gone. -/
theorem Tells.size_eq (ht : Tells limit t h) : t.queue.size = h.size := by
  have hnodup : t.tickets.Nodup :=
    List.Nodup.of_map (·.number) (ht.numbers ▸ List.nodup_range)
  have hgone (k : Ticket) (hk : k ∈ t.tickets) :
      (t.queue.get? k).isSome = !h.gone k.number := by
    rw [ht.record k hk, QueueHistory.record?]
    cases h.gone k.number <;> rfl
  have hcount : (List.range h.pushes).countP h.gone = t.tickets.countP fun k =>
      h.gone k.number := by
    rw [← ht.numbers, List.countP_map]
    rfl
  have hsize : t.queue.size = t.tickets.countP fun k => !h.gone k.number := by
    rw [Queue.size_eq_length (hnodup.filter fun k => (t.queue.get? k).isSome),
      ← List.countP_eq_length_filter]
    · exact List.countP_congr fun k hk => by rw [hgone k hk]
    · intro k
      rw [List.mem_filter]
      refine ⟨And.right, fun hk => ⟨?_, hk⟩⟩
      obtain ⟨r, hr⟩ := Option.isSome_iff_exists.mp hk
      exact ht.ticketed k r hr
  have hlength : t.tickets.length = h.pushes := by
    simpa using congrArg List.length ht.numbers
  have hsum := List.length_eq_countP_add_countP (fun k : Ticket => h.gone k.number)
    (l := t.tickets)
  simp only [Bool.not_eq_true, ← Bool.not_eq_true'] at hsum
  rw [QueueHistory.size, hcount, hsize, ← hlength]
  simp at hsum ⊢
  omega

/-- The newest waiting ticket is that of the newest record that waits. -/
theorem Tells.newest?_eq (ht : Tells limit t h) :
    (t.queue.waiting = [] ∧ h.newest? = none) ∨
      ∃ k rest label, t.queue.waiting = k :: rest ∧ k ∈ t.tickets ∧
        h.status k.number = .queued ∧ h.newest? = some (k.number, label) ∧
        t.queue.claim = (.ok (some (k, label)), t.queue.started k rest) := by
  have hqueued_iff (k : Ticket) : t.queue.status? k = some .queued ↔
      k ∈ t.tickets ∧ h.status k.number = .queued := by
    rw [Queue.status?_eq_some]
    constructor
    · rintro ⟨r, hr, hs⟩
      have hk := ht.ticketed k r hr
      obtain ⟨-, rfl⟩ := QueueHistory.record?_eq_some ((ht.record k hk).symm.trans hr)
      exact ⟨hk, hs⟩
    · rintro ⟨hk, hs⟩
      obtain ⟨r, hr, hst⟩ :=
        QueueHistory.record?_of_unfinished (QueueHistory.status_eq_queued.mp hs).1
      exact ⟨r, (ht.record k hk).trans hr, hst.trans hs⟩
  rcases ht.sound.claim with ⟨hwait, -⟩ | ⟨k, rest, r, label, hwait, hr, hs, hj, hc⟩
  · refine Or.inl ⟨hwait, ?_⟩
    have hnone : ((List.range h.pushes).filter fun n => h.status n = .queued) = [] := by
      refine List.filter_eq_nil_iff.mpr fun n hn hs => ?_
      obtain ⟨k, hk, rfl⟩ := ht.exists_ticket (List.mem_range.mp hn)
      have hqueued := (hqueued_iff k).mpr ⟨hk, of_decide_eq_true hs⟩
      exact ht.sound.waiting_eq_nil_iff.mp hwait k hqueued
    simp [QueueHistory.newest?, hnone]
  · have hnew := ht.sound.isNewest hwait
    obtain ⟨hk, hqueued⟩ := (hqueued_iff k).mp hnew.1
    refine Or.inr ⟨k, rest, label, hwait, hk, hqueued, ?_, hc⟩
    have hmax : ((List.range h.pushes).filter fun n => h.status n = .queued).max? =
        some k.number := by
      refine List.max?_eq_some_iff.mpr ⟨?_, fun n hn => ?_⟩
      · exact List.mem_filter.mpr ⟨List.mem_range.mpr (ht.number_lt hk), decide_eq_true hqueued⟩
      · obtain ⟨hn, hs⟩ := List.mem_filter.mp hn
        obtain ⟨k', hk', rfl⟩ := ht.exists_ticket (List.mem_range.mp hn)
        exact hnew.2 k' ((hqueued_iff k').mpr ⟨hk', of_decide_eq_true hs⟩)
    have hlabel : h.labels[k.number]? = some label := by
      obtain ⟨-, rfl⟩ := QueueHistory.record?_eq_some ((ht.record k hk).symm.trans hr)
      simpa [hqueued] using hj
    simp [QueueHistory.newest?, hmax, hlabel]

/-! ## 4. Every step is foretold -/

/-- The history has the answer to a step, and with it tells of the trial afterwards. -/
inductive Foretold (limit : Nat) (t : QueueTrial S L) (h : QueueHistory L) (s : QueueStep L) :
    Prop where
  | refused {e : QueueRefusal} (hs : t.step s = .error e) (hr : h.reply? limit s = .error e)
  | replied (reply : QueueReply L) (t' : QueueTrial S L) (hs : t.step s = .ok (reply, t'))
      (hr : h.reply? limit s = .ok reply) (ht : Tells limit t' (⟨s, reply⟩ :: h))

theorem Tells.untouched (ht : Tells limit t h) {n : Nat} (hn : ¬ n < h.pushes) :
    h.claimed n = false ∧ h.finished n = false ∧ h.joined n = false ∧ h.detached n = false := by
  have hne (e : QueueEvent L) (he : e ∈ h) : e.key? ≠ some n := fun hkey =>
    hn (ht.known e he n hkey)
  refine ⟨?_, ?_, ?_, ?_⟩ <;> refine List.any_eq_false.mpr fun e he => ?_
  all_goals
    obtain ⟨hclaims, hfinishes, hjoins, hdetaches, -⟩ := QueueHistory.fields_of_ne (hne e he)
    simp [hclaims, hfinishes, hjoins, hdetaches]

/-- The record that was just pushed waits with its label. -/
theorem Tells.record?_pushed (ht : Tells limit t h) (label : L) (n : Nat) :
    QueueHistory.record? (⟨.push label, .pushed n⟩ :: h) h.pushes =
      some ⟨h.pushes, .queued, false, false, some label⟩ := by
  obtain ⟨hclaimed, hfinished, hjoined, hdetached⟩ := ht.untouched (Nat.lt_irrefl h.pushes)
  have hlabel : (QueueHistory.labels (⟨.push label, .pushed n⟩ :: h))[h.pushes]? = some label := by
    simp [QueueHistory.labels_cons, QueueEvent.pushed?, QueueHistory.pushes]
  simp [QueueHistory.record?, QueueHistory.gone, QueueHistory.status, QueueHistory.claimed_cons,
    QueueHistory.finished_cons, QueueHistory.joined_cons, QueueHistory.detached_cons, hclaimed,
    hfinished, hjoined, hdetached, hlabel, QueueEvent.claims, QueueEvent.finishes,
    QueueEvent.joins, QueueEvent.detaches]

theorem Tells.pushed (ht : Tells limit t h) (hfull : t.queue.isFull = false) (label : L) :
    Tells limit ⟨t.queue.pushed label, t.tickets ++ [t.queue.freshTicket]⟩
      (⟨.push label, .pushed h.pushes⟩ :: h) := by
  have hpushes : QueueHistory.pushes (⟨.push label, .pushed h.pushes⟩ :: h) = h.pushes + 1 := by
    simp [QueueHistory.pushes, QueueHistory.labels_cons, QueueEvent.pushed?]
  have hfresh : t.queue.freshTicket.number = h.pushes := ht.next_eq
  refine ⟨ht.sound.pushed hfull label, ht.limit_eq, ?_, ?_, ?_, ?_, ?_⟩
  · rw [hpushes, ← ht.next_eq]
    rfl
  · rw [hpushes, List.map_append, ht.numbers, List.range_succ]
    exact congrArg (List.range h.pushes ++ [·]) hfresh
  · intro k hk
    show (t.queue.pushed label).get? k = _
    rw [Queue.get?_pushed]
    rcases List.mem_append.mp hk with hk | hk
    · have hlt := ht.number_lt hk
      have hne : k ≠ t.queue.freshTicket := by
        rintro rfl
        exact absurd (hfresh ▸ hlt) (Nat.lt_irrefl _)
      rw [if_neg hne, QueueHistory.record?_cons_of_ne hlt (by simp [QueueEvent.key?,
        QueueStep.key?])]
      exact ht.record k hk
    · obtain rfl := List.mem_singleton.mp hk
      rw [if_pos rfl, hfresh, ht.record?_pushed, ht.next_eq]
  · intro k r hr
    replace hr : (t.queue.pushed label).get? k = some r := hr
    rw [Queue.get?_pushed] at hr
    split at hr
    · next hk => exact List.mem_append.mpr (Or.inr (List.mem_singleton.mpr hk))
    · exact List.mem_append.mpr (Or.inl (ht.ticketed k r hr))
  · intro e he n hn
    rw [hpushes]
    rcases List.mem_cons.mp he with rfl | he
    · exact absurd hn (by simp [QueueEvent.key?, QueueStep.key?])
    · exact Nat.lt_succ_of_lt (ht.known e he n hn)

theorem Tells.push (ht : Tells limit t h) (label : L) : Foretold limit t h (.push label) := by
  have hfull : t.queue.isFull = decide (limit ≤ h.size) := by
    rw [Queue.isFull, ht.limit_eq, ht.size_eq]
  by_cases hle : limit ≤ h.size
  · refine .replied (.fault .full) t ?_ (by simp [QueueHistory.reply?, hle])
      (ht.skip rfl rfl)
    simp [QueueTrial.step, Queue.push_eq, hfull, hle]
  · have hroom : t.queue.isFull = false := by simp [hfull, hle]
    refine .replied (.pushed h.pushes)
      ⟨t.queue.pushed label, t.tickets ++ [t.queue.freshTicket]⟩ ?_
      (by simp [QueueHistory.reply?, hle]) (ht.pushed hroom label)
    simp [QueueTrial.step, Queue.push_eq, hroom, ← ht.next_eq, Queue.freshTicket]

theorem Tells.claim (ht : Tells limit t h) : Foretold limit t h .claim := by
  rcases ht.newest?_eq with ⟨hwait, hnone⟩ | ⟨k, rest, label, hwait, hk, hs, hnewest, hc⟩
  · refine .replied .nothingQueued t ?_
      (by simp [QueueHistory.reply?, hnone]) (ht.skip rfl rfl)
    simp [QueueTrial.step, settle, Queue.claim, hwait, claimReply]
  · refine .replied (.claimed k.number label) { t with queue := t.queue.started k rest }
      (by simp [QueueTrial.step, settle, hc, claimReply]) (by simp [QueueHistory.reply?, hnewest])
      (ht.change rfl hk rfl (ht.sound.started hwait) (Queue.limit_update _ _ _)
        (Queue.next_started _ _ _) (fun k' hne => ?_) ?_)
    · rw [Queue.get?_started, if_neg hne]
    · rw [Queue.get?_started, if_pos rfl, ht.record k hk, QueueHistory.record?_claim label hs]

/-- A step on a record that was never pushed is refused; any other is on its ticket. -/
theorem Tells.foretold_key (ht : Tells limit t h) {s : QueueStep L} {n : Nat}
    {f : Ticket → QueueReply L × QueueTrial S L} {g : Option (Record L) → QueueReply L}
    (hstep : t.step s = t.onKey n f) (hreply : h.reply? limit s = h.onKey n g)
    (hkey : ∀ k ∈ t.tickets, k.number = n → t.queue.get? k = h.record? n →
      (f k).1 = g (h.record? n) ∧ Tells limit (f k).2 (⟨s, (f k).1⟩ :: h)) :
    Foretold limit t h s := by
  rcases ht.key_cases n with ⟨hnone, hn⟩ | ⟨k, hk, hget, hkn, hn⟩
  · refine .refused (e := .noKey) ?_ ?_
    · simp [hstep, onKey, hnone]
    · simp [hreply, QueueHistory.onKey, hn]
  · obtain ⟨he, ht'⟩ := hkey k hk hkn (hkn ▸ ht.record k hk)
    refine .replied (f k).1 (f k).2 ?_ ?_ ht'
    · simp [hstep, onKey, hget]
    · simp [hreply, QueueHistory.onKey, hn, he]

theorem Tells.finish (ht : Tells limit t h) (n : Nat) : Foretold limit t h (.finish n) := by
  refine ht.foretold_key (g := QueueHistory.finishReply) rfl rfl ?_
  rintro k hk rfl hrecord
  have hidle (reply : QueueReply L) (hreply : (⟨.finish k.number, reply⟩ : QueueEvent L).finishes
      k.number = false) : Tells limit t (⟨.finish k.number, reply⟩ :: h) :=
    ht.keep rfl hk rfl (QueueHistory.record?_cons (ht.number_lt hk) rfl hreply rfl rfl (by simp
      [QueueEvent.removes]))
  rw [← hrecord]
  cases hr : t.queue.get? k with
  | none =>
    have hfinish : t.queue.finish k = (.error .runningGone, t.queue) := by simp [Queue.finish, hr]
    simp only [hfinish, settle]
    exact ⟨rfl, hidle _ rfl⟩
  | some r =>
    by_cases hs : r.status = .running
    · simp only [Queue.finish_running hr hs, settle]
      refine ⟨by simp [QueueHistory.finishReply, hs], ht.change rfl hk rfl
        (ht.sound.finished hr hs) (Queue.limit_finished _ _) (Queue.next_finished _ _)
        (fun k' hne => ?_) ?_⟩
      · rw [Queue.get?_finished hr, if_neg hne]
      · obtain ⟨-, hfields⟩ := QueueHistory.record?_eq_some (hrecord.symm.trans hr)
        have hstatus : h.status k.number = .running := by rw [← hs, hfields]
        have hdetached : r.detached = h.detached k.number := by rw [hfields]
        rw [Queue.get?_finished hr, if_pos rfl, QueueHistory.record?_finish _ hstatus, ← hrecord,
          hr, ← hdetached]
        rfl
    · have hfinish : t.queue.finish k = (.error .finishedTwice, t.queue) := by
        simp [Queue.finish, hr, hs]
      simp only [hfinish, settle]
      exact ⟨by simp [QueueHistory.finishReply, hs], hidle _ rfl⟩

theorem Tells.remove (ht : Tells limit t h) (n : Nat) : Foretold limit t h (.remove n) := by
  refine ht.foretold_key (g := QueueHistory.removeReply) rfl rfl ?_
  rintro k hk rfl hrecord
  have hidle (reply : QueueReply L)
      (hgone : h.finished k.number = true → h.gone k.number = true) :
      Tells limit t (⟨.remove k.number, reply⟩ :: h) :=
    ht.keep rfl hk rfl
      (QueueHistory.record?_cons (ht.number_lt hk) rfl rfl rfl rfl fun _ => hgone)
  rw [← hrecord]
  cases hr : t.queue.get? k with
  | none =>
    have hremove : t.queue.remove k = (.ok (), t.queue) := by simp [Queue.remove, hr]
    simp only [hremove, settle]
    exact ⟨rfl, hidle _ fun _ => QueueHistory.record?_eq_none.mp (hrecord.symm.trans hr)⟩
  | some r =>
    obtain ⟨-, hfields⟩ := QueueHistory.record?_eq_some (hrecord.symm.trans hr)
    have hstatus : r.status = h.status k.number := by rw [hfields]
    by_cases hs : r.status = .finished
    · simp only [Queue.remove_finished hr hs, settle]
      refine ⟨by simp [QueueHistory.removeReply, hs], ht.change rfl hk rfl
        (ht.sound.unlink (by simp [Queue.status?, hr, hs])) (Queue.limit_unlink _ _)
        (Queue.next_unlink _ _) (fun k' hne => ?_) ?_⟩
      · rw [Queue.get?_unlink, if_neg hne]
      · rw [Queue.get?_unlink, if_pos rfl, QueueHistory.record?_remove _ (hstatus.symm.trans hs)]
    · have hremove : t.queue.remove k = (.error .removedUnfinished, t.queue) := by
        simp [Queue.remove, hr, hs]
      simp only [hremove, settle]
      refine ⟨by simp [QueueHistory.removeReply, hs], hidle _ fun hf => ?_⟩
      exact absurd (hstatus.trans (QueueHistory.status_eq_finished.mpr hf)) hs

theorem Tells.join (ht : Tells limit t h) (n : Nat) : Foretold limit t h (.join n) := by
  refine ht.foretold_key (g := fun _ => .done) rfl rfl ?_
  rintro k hk rfl hrecord
  refine ⟨rfl, ht.change rfl hk rfl (ht.sound.join k) (Queue.limit_update _ _ _)
    (Queue.next_join _ _) (fun k' hne => ?_) ?_⟩
  · rw [Queue.get?_join, if_neg hne]
  · rw [Queue.get?_join, if_pos rfl, QueueHistory.record?_join, hrecord]

theorem Tells.detach (ht : Tells limit t h) (n : Nat) : Foretold limit t h (.detach n) := by
  refine ht.foretold_key (g := fun _ => .done) rfl rfl ?_
  rintro k hk rfl hrecord
  refine ⟨rfl, ht.change rfl hk rfl (ht.sound.detach k) (Queue.limit_detach _ _)
    (Queue.next_detach _ _) (fun k' hne => ?_) ?_⟩
  · rw [Queue.get?_detach, if_neg hne]
  · rw [Queue.get?_detach, if_pos rfl, QueueHistory.record?_detach, hrecord]

theorem Tells.get (ht : Tells limit t h) (n : Nat) : Foretold limit t h (.get n) := by
  refine ht.foretold_key (g := fun r? => .mark (r?.map (·.mark))) rfl rfl ?_
  rintro k hk rfl hrecord
  refine ⟨?_, ht.keep rfl hk rfl (QueueHistory.record?_cons (ht.number_lt hk) rfl rfl rfl rfl
    (by simp [QueueEvent.removes]))⟩
  rw [← hrecord]
  rfl

/-- Every step is answered as the history tells, and told by it afterwards. -/
theorem Tells.step (ht : Tells limit t h) (s : QueueStep L) : Foretold limit t h s := by
  cases s with
  | push label => exact ht.push label
  | claim => exact ht.claim
  | finish n => exact ht.finish n
  | join n => exact ht.join n
  | remove n => exact ht.remove n
  | detach n => exact ht.detach n
  | get n => exact ht.get n
  | limit =>
    refine .replied (.limit t.queue.limit) t rfl ?_ (ht.skip rfl rfl)
    rw [ht.limit_eq]
    rfl
  | unkeyed => exact .refused rfl rfl
  | unknown => exact .refused rfl rfl

/-! ## 5. Runs -/

theorem Tells.answer_eq (ht : Tells limit t h) (reply : QueueReply L) :
    t.answer reply = h.answer limit reply := by
  have hmarks : t.tickets.map t.mark? =
      (List.range h.pushes).map fun n => (h.record? n).map (·.mark) := by
    rw [← ht.numbers, List.map_map]
    exact List.map_congr_left fun k hk => congrArg (Option.map Record.mark) (ht.record k hk)
  simp only [QueueTrial.answer, QueueHistory.answer, Queue.isEmpty, Queue.isFull, ht.size_eq,
    ht.limit_eq, hmarks]

/-- A trial goes on as its history tells. -/
theorem Tells.run_eq (ht : Tells limit t h) (steps : List (QueueStep L)) :
    t.run steps = QueueHistory.answers limit h steps := by
  induction steps generalizing t h with
  | nil => rfl
  | cons s rest ih =>
    cases ht.step s with
    | refused hs hr =>
      simp only [QueueTrial.run, QueueHistory.answers, hs, hr]
      exact congrArg _ (ih ht)
    | replied _ _ hs hr ht' =>
      simp only [QueueTrial.run, QueueHistory.answers, hs, hr, ht'.answer_eq]
      exact congrArg _ (ih ht')

theorem Tells.after (ht : Tells limit t h) (steps : List (QueueStep L)) :
    Tells limit (t.after steps) (h.follow limit steps) := by
  induction steps generalizing t h with
  | nil => exact ht
  | cons s rest ih =>
    cases ht.step s with
    | refused hs hr =>
      simp only [QueueTrial.after, QueueHistory.follow, hs, hr]
      exact ih ht
    | replied _ _ hs hr ht' =>
      simp only [QueueTrial.after, QueueHistory.follow, hs, hr]
      exact ih ht'

/-- A step on a record that is gone changes nothing at all. -/
theorem Tells.step_of_gone (ht : Tells limit t h) {n : Nat} (hg : h.gone n = true)
    {s : QueueStep L} (hkey : s.key? = some n) :
    ∃ reply, t.step s = .ok (reply, t) ∧
      (reply = .done ∨ reply = .fault .runningGone ∨ reply = .mark none) := by
  have hn : n < h.pushes := by
    by_contra hn
    exact absurd (QueueHistory.finished_of_gone hg) (by simp [(ht.untouched hn).2.1])
  obtain ⟨hnone, hlt⟩ | ⟨k, hk, hget, rfl, -⟩ := ht.key_cases n
  · exact absurd hn hlt
  have hr : t.queue.get? k = none := (ht.record k hk).trans (QueueHistory.record?_eq_none.mpr hg)
  cases s with
  | finish m =>
    obtain rfl := Option.some.inj hkey
    exact ⟨.fault .runningGone, by simp [QueueTrial.step, onKey, hget, settle, Queue.finish, hr],
      Or.inr (Or.inl rfl)⟩
  | join m =>
    obtain rfl := Option.some.inj hkey
    exact ⟨.done, by simp [QueueTrial.step, onKey, hget, Queue.join, Queue.update, hr], Or.inl rfl⟩
  | remove m =>
    obtain rfl := Option.some.inj hkey
    exact ⟨.done, by simp [QueueTrial.step, onKey, hget, settle, Queue.remove, hr], Or.inl rfl⟩
  | detach m =>
    obtain rfl := Option.some.inj hkey
    exact ⟨.done, by simp [QueueTrial.step, onKey, hget, Queue.detach, hr], Or.inl rfl⟩
  | get m =>
    obtain rfl := Option.some.inj hkey
    exact ⟨.mark none, by simp [QueueTrial.step, onKey, hget, mark?, hr], Or.inr (Or.inr rfl)⟩
  | _ => exact absurd hkey (by simp [QueueStep.key?])

/-- **A record queue refines its history.**  Whatever steps are tried, every answer is the one that
the history of the steps tells: the reply, the size, and what is seen of each record.  After them
the queue holds, of every push that succeeded, the record that the history tells, or none if it is
gone.  What is gone stays gone, and a step that names it changes nothing. -/
theorem queue_refines_history (limit : Nat) (steps : List (QueueStep L)) :
    (start limit : QueueTrial S L).run steps = QueueHistory.answers limit [] steps ∧
    Tells limit ((start limit).after steps) (QueueHistory.follow limit [] steps) ∧
    ∀ n, (QueueHistory.follow limit [] steps).gone n = true →
      (∀ more, (QueueHistory.follow limit [] (steps ++ more)).gone n = true) ∧
      ∀ s, s.key? = some n → ∃ reply,
        ((start limit).after steps).step s = .ok (reply, (start limit).after steps) ∧
        (reply = .done ∨ reply = .fault .runningGone ∨ reply = .mark none) := by
  have ht := (Tells.start limit).after (L := L) steps
  refine ⟨(Tells.start limit).run_eq steps, ht, fun n hg => ⟨fun more => ?_, fun s hkey => ?_⟩⟩
  · rw [QueueHistory.follow_append]
    exact QueueHistory.gone_follow limit more hg
  · exact ht.step_of_gone hg hkey

/-- A detached record is gone once it has finished, also when its cell is used again. -/
theorem gone_beside_a_later_push :
    let steps := [.push "old", .claim, .detach 0, .finish 0, .push "new"]
    (start 1).run (steps ++ [.get 0, .get 1]) =
        QueueHistory.answers 1 [] (steps ++ [.get 0, .get 1]) ∧
      (QueueHistory.follow 1 [] steps).gone 0 = true ∧
      ∃ reply, ((start 1).after steps).step (.join 0) = .ok (reply, (start 1).after steps) := by
  intro steps
  have hgone : (QueueHistory.follow 1 [] steps).gone 0 = true := by decide
  obtain ⟨-, -, hstays⟩ := queue_refines_history 1 steps
  obtain ⟨reply, hreply, -⟩ := (hstays 0 hgone).2 (.join 0) rfl
  exact ⟨(queue_refines_history 1 _).1, hgone, reply, hreply⟩

end QueueTrial
end WorkerPool
