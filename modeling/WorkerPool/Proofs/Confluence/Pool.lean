/-
# Pools that differ in who idles

Two schedules that do the same work do not do it with the same workers, nor are the joins told at
the same time.  `Pool.Matches` says that two pools agree in all the rest: in the records, except for
the marks of joins (`Queue.unmarked`), in the results, in the bodies that run, whoever runs them,
and in how many workers there are and how many of them are busy.

* A worker that looks for work where none waits leaves a pool that matches the one before
  (`Sound.matches_goOn`).
* Two workers that do the same in two pools that match leave two pools that match (`Matches.goOn`,
  `Matches.setStage`, `Matches.endRun`).
-/
import WorkerPool.Proofs.Confluence.OneBody
import WorkerPool.Proofs.Draining

namespace WorkerPool

/-! ## 1. Queues without marks -/

namespace Arena

variable {β : Type}

theorem ext_get? {a b : Arena β} (hget : ∀ cell, a.get? cell = b.get? cell)
    (hvacant : a.vacant = b.vacant) (hfresh : a.fresh = b.fresh) : a = b := by
  obtain ⟨cells, vacant, fresh, _, _, _, _⟩ := a
  obtain ⟨cells', vacant', fresh', _, _, _, _⟩ := b
  obtain rfl : cells = cells' := Std.ExtTreeMap.ext_getElem? fun cell => hget cell
  obtain rfl : vacant = vacant' := hvacant
  obtain rfl : fresh = fresh' := hfresh
  rfl

/-- Applies `f` to what each cell holds. -/
def map (f : β → β) (a : Arena β) : Arena β :=
  { a with
    cells := a.cells.map fun _ => f
    cells_lt := fun c hc => a.cells_lt c (Std.ExtTreeMap.mem_map.mp hc)
    vacant_empty := fun c hc hm => a.vacant_empty c hc (Std.ExtTreeMap.mem_map.mp hm) }

theorem get?_map (f : β → β) (a : Arena β) (cell : Nat) :
    (a.map f).get? cell = (a.get? cell).map f := Std.ExtTreeMap.getElem?_map

theorem size_map (f : β → β) (a : Arena β) : (a.map f).size = a.size := Std.ExtTreeMap.size_map

/-- A change of a cell that shows. -/
theorem map_modify {f g : β → β} (hfg : ∀ b, f (g b) = g (f b)) (a : Arena β) (cell : Nat) :
    (a.modify cell g).map f = (a.map f).modify cell g := by
  refine ext_get? (fun c => ?_) rfl rfl
  rw [get?_map, get?_modify, get?_modify, get?_map]
  split
  · rw [Option.map_map, Option.map_map]
    exact congrArg (Option.map · _) (funext hfg)
  · rfl

/-- A change of a cell that does not show. -/
theorem map_modify_of_eq {f g : β → β} (hfg : ∀ b, f (g b) = f b) (a : Arena β) (cell : Nat) :
    (a.modify cell g).map f = a.map f := by
  refine ext_get? (fun c => ?_) rfl rfl
  rw [get?_map, get?_modify, get?_map]
  split
  · rw [Option.map_map]
    exact congrArg (Option.map · _) (funext hfg)
  · rfl

theorem vacant_erase (a : Arena β) (cell : Nat) :
    (a.erase cell).vacant = if cell ∈ a.cells then cell :: a.vacant else a.vacant := by
  unfold erase
  by_cases hcell : cell ∈ a.cells
  · rw [dif_pos hcell, if_pos hcell]
  · rw [dif_neg hcell, if_neg hcell]

theorem fresh_erase (a : Arena β) (cell : Nat) : (a.erase cell).fresh = a.fresh := by
  unfold erase
  split <;> rfl

theorem map_erase (f : β → β) (a : Arena β) (cell : Nat) :
    (a.erase cell).map f = (a.map f).erase cell := by
  refine ext_get? (fun c => ?_) ?_ ?_
  · rw [get?_map, get?_erase, get?_erase, get?_map]
    split <;> rfl
  · have hmem : cell ∈ (a.map f).cells ↔ cell ∈ a.cells := Std.ExtTreeMap.mem_map
    rw [vacant_erase]
    simp only [hmem]
    exact a.vacant_erase cell
  · rw [fresh_erase]
    exact a.fresh_erase cell

end Arena

/-- The record as if it had not been joined. -/
def Record.unmark {J : Type} (r : Record J) : Record J := { r with joined := false }

namespace Queue

variable {J : Type} {q q' : Queue Arena J}

/-- The queue as if nothing had been joined. -/
def unmarked (q : Queue Arena J) : Queue Arena J :=
  { q with records := q.records.map Record.unmark }

theorem get?_unmarked (q : Queue Arena J) (k : Ticket) :
    q.unmarked.get? k = (q.get? k).map Record.unmark := by
  have hcell : Slab.get? q.unmarked.records k.cell =
      (Slab.get? q.records k.cell).map Record.unmark := q.records.get?_map _ k.cell
  unfold get?
  rw [hcell]
  cases Slab.get? q.records k.cell with
  | none => rfl
  | some r =>
    rw [Option.map_some, Option.filter_some, Option.filter_some]
    show (if r.number == k.number then _ else _) = _
    split <;> rfl

theorem size_unmarked (q : Queue Arena J) : q.unmarked.size = q.size := q.records.size_map _

theorem unmarked_update {f : Record J → Record J} (hf : ∀ r, (f r).unmark = f r.unmark)
    (q : Queue Arena J) (k : Ticket) : (q.update k f).unmarked = q.unmarked.update k f := by
  unfold update
  rw [get?_unmarked]
  cases q.get? k with
  | none => rfl
  | some r =>
    refine congrArg (fun records : Arena (Record J) => { q with records }) ?_
    exact q.records.map_modify hf k.cell

theorem unmarked_unlink (q : Queue Arena J) (k : Ticket) :
    (q.unlink k).unmarked = q.unmarked.unlink k := by
  unfold unlink
  rw [get?_unmarked]
  cases q.get? k with
  | none => rfl
  | some r =>
    exact congrArg (fun records : Arena (Record J) => { q with records })
      (q.records.map_erase _ k.cell)

theorem unmarked_started (q : Queue Arena J) (k : Ticket) (rest : List Ticket) :
    (q.started k rest).unmarked = q.unmarked.started k rest :=
  congrArg (fun q : Queue Arena J => { q with waiting := rest })
    (unmarked_update (f := fun r => { r with status := .running, job := none }) (fun _ => rfl) q k)

theorem unmarked_finished (q : Queue Arena J) (k : Ticket) :
    (q.finished k).unmarked = q.unmarked.finished k := by
  unfold finished
  rw [get?_unmarked]
  cases q.get? k with
  | none => rfl
  | some r =>
    dsimp only [Option.map_some, Record.unmark]
    split
    · exact q.unmarked_unlink k
    · exact unmarked_update (f := fun r => { r with status := .finished }) (fun _ => rfl) q k

/-- A join is not seen. -/
theorem unmarked_join (q : Queue Arena J) (k : Ticket) : (q.join k).unmarked = q.unmarked := by
  unfold join update
  cases q.get? k with
  | none => rfl
  | some r =>
    have hsame := q.records.map_modify_of_eq (f := Record.unmark)
      (g := fun r => { r with joined := true }) (fun _ => rfl) k.cell
    exact congrArg (fun records : Arena (Record J) => { q with records }) hsame

theorem get?_of_unmarked (h : q.unmarked = q'.unmarked) {k : Ticket} {r : Record J}
    (hr : q.get? k = some r) : ∃ r', q'.get? k = some r' ∧ r'.unmark = r.unmark := by
  have hget := q.get?_unmarked k
  rw [h, q'.get?_unmarked, hr] at hget
  exact Option.map_eq_some_iff.mp hget

/-- With the same marks, they are the same. -/
theorem eq_of_unmarked (h : q.unmarked = q'.unmarked)
    (hjoined : ∀ k r r', q.get? k = some r → q'.get? k = some r' → r.joined = r'.joined) :
    q = q' := by
  have hrecords : q.records.map Record.unmark = q'.records.map Record.unmark :=
    congrArg Queue.records h
  have hsame : q.records = q'.records := by
    refine Arena.ext_get? (fun cell => ?_) ?_ ?_
    · have hcell := q.records.get?_map Record.unmark cell
      rw [hrecords, Arena.get?_map] at hcell
      cases hr : q.records.get? cell with
      | none =>
        rw [hr] at hcell
        exact (Option.map_eq_none_iff.mp hcell).symm
      | some r =>
        rw [hr] at hcell
        obtain ⟨r', hr', hunmark⟩ := Option.map_eq_some_iff.mp hcell
        have hnumber := congrArg Record.number hunmark
        replace hnumber : r'.number = r.number := hnumber
        have hslab : Slab.get? q.records cell = some r := hr
        have hslab' : Slab.get? q'.records cell = some r' := hr'
        have hmarks := hjoined ⟨cell, r.number⟩ r r' (by simp [get?, hslab])
          (by simp [get?, hslab', hnumber])
        rw [hr']
        cases r
        cases r'
        simp_all [Record.unmark]
    · have hvacant := congrArg Arena.vacant hrecords
      exact hvacant
    · have hfresh := congrArg Arena.fresh hrecords
      exact hfresh
  obtain ⟨records, waiting, next, limit⟩ := q
  obtain ⟨records', waiting', next', limit'⟩ := q'
  obtain ⟨-, hwaiting, hnext, hlimit⟩ := Queue.mk.inj h
  obtain rfl : records = records' := hsame
  obtain rfl : waiting = waiting' := hwaiting
  obtain rfl : next = next' := hnext
  obtain rfl : limit = limit' := hlimit
  rfl

end Queue

/-! ## 2. Pools that match -/

/-- A shutdown that is accepted, whether it has been noticed yet or not. -/
def Standing.settled : Standing → Standing
  | .stopping _ => .stopped
  | standing => standing

theorem Standing.settled_notify (standing : Standing) :
    standing.notify.settled = standing.settled := by
  cases standing <;> rfl

/-- The workers of two lists, one of each, change what they run in the same way. -/
theorem perm_filterMap_set {β γ : Type} {g : β → Option γ} {l l' : List β} {v w : Nat}
    {b b' c c' : β} (h : (l.filterMap g).Perm (l'.filterMap g)) (hv : l[v]? = some b)
    (hw : l'[w]? = some b') (hb : g b = g b') (hc : g c = g c') :
    ((l.set v c).filterMap g).Perm ((l'.set w c').filterMap g) := by
  obtain ⟨hlt, rfl⟩ := List.getElem?_eq_some_iff.mp hv
  obtain ⟨hlt', rfl⟩ := List.getElem?_eq_some_iff.mp hw
  have hrest : ((l.eraseIdx v).filterMap g).Perm ((l'.eraseIdx w).filterMap g) := by
    have hcons := ((List.getElem_cons_eraseIdx_perm hlt).filterMap g).trans
      (h.trans ((List.getElem_cons_eraseIdx_perm hlt').filterMap g).symm)
    rw [List.filterMap_cons, List.filterMap_cons, ← hb] at hcons
    cases hg : g l[v] with
    | none => simpa only [hg] using hcons
    | some x =>
      simp only [hg] at hcons
      exact hcons.cons_inv
  refine ((List.set_perm_cons_eraseIdx hlt c).filterMap g).trans
    (List.Perm.trans ?_ ((List.set_perm_cons_eraseIdx hlt' c').filterMap g).symm)
  rw [List.filterMap_cons, List.filterMap_cons, ← hc]
  cases g c with
  | none => exact hrest
  | some x => exact hrest.cons x

namespace Pool

variable {α : Type} {p p' q r : Pool α}

/-- What is run in a pool. -/
def bodies (p : Pool α) : List (Ticket × Job × Stage) := p.workers.filterMap Phase.run?

/-- Two pools that differ in who idles, who was told to look, which joins have looked, and in what
they noted. -/
structure Matches (p q : Pool α) : Prop where
  id : p.id = q.id
  plan : p.plan = q.plan
  standing : p.standing.settled = q.standing.settled
  busy : p.busy = q.busy
  queue : p.queue.unmarked = q.queue.unmarked
  bodies : p.bodies.Perm q.bodies
  length : p.workers.length = q.workers.length
  results : p.results = q.results
  faults : p.faults = q.faults

namespace Matches

theorem refl (p : Pool α) : Matches p p := ⟨rfl, rfl, rfl, rfl, rfl, .refl _, rfl, rfl, rfl⟩

theorem symm (h : Matches p q) : Matches q p :=
  ⟨h.id.symm, h.plan.symm, h.standing.symm, h.busy.symm, h.queue.symm, h.bodies.symm,
    h.length.symm, h.results.symm, h.faults.symm⟩

theorem trans (h : Matches p q) (h' : Matches q r) : Matches p r :=
  ⟨h.id.trans h'.id, h.plan.trans h'.plan, h.standing.trans h'.standing, h.busy.trans h'.busy,
    h.queue.trans h'.queue, h.bodies.trans h'.bodies, h.length.trans h'.length,
    h.results.trans h'.results, h.faults.trans h'.faults⟩

theorem isActive_eq (h : Matches p q) : p.isActive = q.isActive := by
  have hstanding := h.standing
  unfold isActive
  cases hp : p.standing <;> cases hq : q.standing <;> simp_all [Standing.settled]

theorem waiting_eq (h : Matches p q) : p.queue.waiting = q.queue.waiting := by
  have hwaiting := congrArg Queue.waiting h.queue
  exact hwaiting

/-- Some worker runs the body in the other pool. -/
theorem executing (h : Matches p q) {w : Nat} {k : Ticket} {job : Job} {stage : Stage}
    (hw : p.workers[w]? = some (.executing k job stage)) :
    ∃ w' : Nat, q.workers[w']? = some (.executing k job stage) := by
  have hmem : (k, job, stage) ∈ p.bodies :=
    List.mem_filterMap.mpr ⟨_, List.mem_of_getElem? hw, rfl⟩
  obtain ⟨phase, hphase, hrun⟩ := List.mem_filterMap.mp (h.bodies.mem_iff.mp hmem)
  obtain ⟨w', hw'⟩ := List.getElem?_of_mem hphase
  cases phase with
  | executing k' job' stage' =>
    obtain ⟨rfl, rfl, rfl⟩ : k' = k ∧ job' = job ∧ stage' = stage := by
      simpa [Phase.run?] using hrun
    exact ⟨w', hw'⟩
  | _ => cases hrun

theorem size_eq (h : Matches p q) : p.queue.size = q.queue.size := by
  rw [← p.queue.size_unmarked, h.queue, q.queue.size_unmarked]

/-! ### Sections of both -/

/-- A note is not compared. -/
theorem note (h : Matches p q) (n n' : PoolNote) : Matches (p.note n) (q.note n') :=
  ⟨h.id, h.plan, h.standing, h.busy, h.queue, h.bodies, h.length, h.results, h.faults⟩

/-- Both have the same queue but for the marks. -/
theorem setQueue (h : Matches p q) {u u' : Queue Arena Job} (hu : u.unmarked = u'.unmarked) :
    Matches { p with queue := u } { q with queue := u' } :=
  ⟨h.id, h.plan, h.standing, h.busy, hu, h.bodies, h.length, h.results, h.faults⟩

theorem setBusy (h : Matches p q) (n : Nat) :
    Matches { p with busy := n } { q with busy := n } :=
  ⟨h.id, h.plan, h.standing, rfl, h.queue, h.bodies, h.length, h.results, h.faults⟩

/-- A worker of each pool changes what it runs in the same way. -/
theorem setPhase (h : Matches p q) {v w : Nat} {old old' new new' : Phase}
    (hv : p.workers[v]? = some old) (hw : q.workers[w]? = some old')
    (hold : old.run? = old'.run?) (hnew : new.run? = new'.run?) :
    Matches (p.setPhase v new) (q.setPhase w new') :=
  ⟨h.id, h.plan, h.standing, h.busy, h.queue, perm_filterMap_set h.bodies hv hw hold hnew,
    by simpa [Pool.setPhase] using h.length, h.results, h.faults⟩

theorem setStage (h : Matches p q) {v w : Nat} {k : Ticket} {job : Job} {stage : Stage}
    (hv : p.workers[v]? = some (.executing k job stage))
    (hw : q.workers[w]? = some (.executing k job stage)) (stage' : Stage) :
    Matches (p.setPhase v (.executing k job stage')) (q.setPhase w (.executing k job stage')) :=
  h.setPhase hv hw rfl rfl

/-- The same body ends in both. -/
theorem endRun (h : Matches p q) {v w run : Nat} {k : Ticket} {job : Job}
    (hv : p.workers[v]? = some (.executing k job (.past run)))
    (hw : q.workers[w]? = some (.executing k job (.past run))) (e : Ending α) :
    Matches (p.endRun v k job e) (q.endRun w k job e) := by
  cases e with
  | panicked => exact (h.note _ _).setPhase hv hw rfl rfl
  | returned value =>
    have hput : Matches (p.putResult k value) (q.putResult k value) := by
      unfold putResult
      rw [h.results]
      split
      · exact ⟨h.id, h.plan, h.standing, h.busy, h.queue, h.bodies, h.length, h.results,
          congrArg (Fault.resultWrittenTwice :: ·) h.faults⟩
      · exact ⟨h.id, h.plan, h.standing, h.busy, h.queue, h.bodies, h.length, rfl, h.faults⟩
    rw [← workers_putResult p k value] at hv
    rw [← workers_putResult q k value] at hw
    exact hput.setPhase hv hw rfl rfl

/-- A worker of each pool is at its look. -/
theorem advance (h : Matches p q) (hp : p.queue.Sound) (hq : q.queue.Sound) {v w : Nat}
    (hv : p.workers[v]? = some .starting) (hw : q.workers[w]? = some .starting) :
    Matches (p.advance v) (q.advance w) := by
  rcases advance_cases hp v with
    ⟨k, rest, r, job, hwait, hr, -, hjob, he⟩ | ⟨hwait, ⟨hact, he⟩ | ⟨hact, he⟩⟩
  · rcases advance_cases hq w with ⟨k', rest', r', job', hwait', hr', -, hjob', he'⟩ | ⟨hwait', -⟩
    · -- both claim the newest record that waits
      obtain ⟨rfl, rfl⟩ := List.cons.inj (hwait.symm.trans (h.waiting_eq.trans hwait'))
      obtain ⟨r'', hr'', hunmark⟩ := Queue.get?_of_unmarked h.queue hr
      obtain rfl := Option.some.inj (hr''.symm.trans hr')
      have hsame := congrArg Record.job hunmark
      replace hsame : r''.job = r.job := hsame
      obtain rfl : job = job' := Option.some.inj (hjob.symm.trans (hsame.symm.trans hjob'))
      rw [he, he']
      have hqueue : (p.queue.started k rest).unmarked = (q.queue.started k rest).unmarked := by
        rw [Queue.unmarked_started, Queue.unmarked_started, h.queue]
      exact Matches.note (Matches.setPhase (h.setQueue hqueue) hv hw rfl rfl) _ _
    · exact absurd (hwait.symm.trans (h.waiting_eq.trans hwait')) (by simp)
  all_goals
    rcases advance_cases hq w with
      ⟨k', rest', r', job', hwait', -⟩ | ⟨hwait', ⟨hact', he'⟩ | ⟨hact', he'⟩⟩
    · exact absurd (hwait.symm.trans (h.waiting_eq.trans hwait')) (by simp)
  · rw [he, he']
    have hparked : Matches (p.setPhase v (.parked false)) (q.setPhase w (.parked false)) :=
      h.setPhase hv hw rfl rfl
    unfold Pool.park
    rw [h.busy]
    exact hparked.setBusy _
  · exact absurd (hact.symm.trans (h.isActive_eq.trans hact')) (by simp)
  · exact absurd (hact.symm.trans (h.isActive_eq.trans hact')) (by simp)
  · rw [he, he']
    have hleft : Matches (p.setPhase v .exited) (q.setPhase w .exited) :=
      h.setPhase hv hw rfl rfl
    refine ⟨h.id, h.plan, ?_, congrArg (· - 1) h.busy, h.queue, hleft.bodies, hleft.length,
      h.results, h.faults⟩
    show p.standing.notify.settled = q.standing.notify.settled
    rw [Standing.settled_notify, Standing.settled_notify]
    exact h.standing

/-- A worker of each pool, both of one kind, looks for work. -/
theorem goOn (h : Matches p q) (hp : p.Sound) (hq : q.Sound) {v w : Nat} {phase : Phase}
    (hlooks : phase.looksNext = true) (hv : p.workers[v]? = some phase)
    (hw : q.workers[w]? = some phase) : Matches (p.goOn v phase) (q.goOn w phase) := by
  rcases phase with _ | notified | ⟨k, job, stage⟩ | _
  · exact h.advance hp.queue hq.queue hv hw
  · obtain rfl : notified = true := hlooks
    have hstarting : Matches (p.setPhase v .starting) (q.setPhase w .starting) :=
      h.setPhase hv hw rfl rfl
    have hwoken := hstarting.setBusy (p.busy + 1)
    show Matches (p.wake v) (q.wake w)
    unfold wake
    rw [← advance_setPhase _ v .starting, ← advance_setPhase _ w .starting]
    rw [← h.busy]
    exact hwoken.advance hp.queue hq.queue
      (workers_setPhase_self (p := { p with busy := p.busy + 1 }) hv .starting)
      (workers_setPhase_self (p := { q with busy := p.busy + 1 }) hw .starting)
  · cases stage with
    | «over» =>
      obtain ⟨r, hr, -, he⟩ := hp.finish_eq hv
      obtain ⟨r', hr', -, he'⟩ := hq.finish_eq hw
      show Matches (p.finish v k) (q.finish w k)
      rw [he, he']
      refine Matches.advance ?_ (hp.ended hv _).queue (hq.ended hw _).queue
        (workers_setPhase_self hv .starting) (workers_setPhase_self hw .starting)
      refine Matches.setPhase (Matches.note (h.setQueue ?_) _ _) hv hw rfl rfl
      rw [Queue.unmarked_finished, Queue.unmarked_finished, h.queue]
    | _ => exact absurd hlooks (by simp [Phase.looksNext, Phase.isLooking])
  · exact absurd hlooks (by simp [Phase.looksNext, Phase.isLooking])

end Matches

/-! ### Sections that are not seen -/

theorem matches_join (p : Pool α) (k : Ticket) : Matches p (p.join k) :=
  (Matches.refl p).setQueue (p.queue.unmarked_join k).symm

/-- A shutdown that waits looks, and waits on or has succeeded. -/
theorem matches_awaitWorkers (hwoken : p.standing.isWoken = true) : Matches p p.awaitWorkers := by
  have hstanding : p.standing.settled = .stopped := by
    cases hs : p.standing <;> simp_all [Standing.isWoken, Standing.settled]
  unfold awaitWorkers
  split
  · exact ⟨rfl, rfl, hstanding, rfl, rfl, .refl _, rfl, rfl, rfl⟩
  · exact ⟨rfl, rfl, hstanding, rfl, rfl, .refl _, rfl, rfl, rfl⟩

/-- A worker was told to look, and finds nothing. -/
theorem Sound.matches_wake (h : p.Sound) {w : Nat} (hw : p.workers[w]? = some (.parked true))
    (hwait : p.queue.waiting = []) : Matches p (p.wake w) := by
  have hsame (phase : Phase) (hphase : phase.run? = none) : Matches p (p.setPhase w phase) := by
    have hset : Matches (p.setPhase w (.parked true)) (p.setPhase w phase) :=
      (Matches.refl p).setPhase hw hw rfl hphase.symm
    have hself : p.setPhase w (.parked true) = p := by
      obtain ⟨hlt, hget⟩ := List.getElem?_eq_some_iff.mp hw
      unfold setPhase
      rw [← hget, List.set_getElem_self]
    rwa [hself] at hset
  unfold Pool.wake
  rcases advance_cases (p := { p with busy := p.busy + 1 }) h.queue w with
    ⟨k, rest, _, _, hwait', -⟩ | ⟨-, ⟨-, he⟩ | ⟨-, he⟩⟩
  · exact absurd (hwait.symm.trans hwait') (by simp)
  · rw [he]
    exact hsame (.parked false) rfl
  · rw [he]
    have hleft := hsame .exited rfl
    exact ⟨rfl, rfl, (Standing.settled_notify p.standing).symm, rfl, rfl, hleft.bodies,
      hleft.length, rfl, rfl⟩

/-! ## 3. What can be told from one pool of another -/

theorem length_bodies (p : Pool α) :
    p.bodies.length = p.workers.countP fun phase => phase.run?.isSome :=
  List.length_filterMap_eq_countP

/-- Besides those that run a body, the workers that were just started are busy. -/
theorem Counted.busy_eq_add (h : p.Counted) :
    p.busy = p.workers.countP (· == .starting) + p.bodies.length := by
  rw [h.busy_eq, length_bodies]
  exact countP_eq_add fun phase _ => by cases phase <;> simp [Phase.isBusy, Phase.run?]

/-- While a record waits, every worker looks for work or runs a body. -/
theorem Sound.looking_add (h : p.Sound) (hcleared : p.Cleared) (hwait : p.queue.waiting ≠ []) :
    p.looking + p.bodies.length = p.workers.length := by
  have hlength : p.workers.length = p.workers.countP fun _ => true := by simp
  rw [length_bodies, looking, hlength]
  refine (countP_eq_add fun phase hmem => ?_).symm
  have hasleep := h.not_asleep (Or.inl hwait) hmem
  have hexited : phase ≠ .exited := fun he => hwait (hcleared (he ▸ hmem))
  rcases phase with _ | notified | _ | _
  · simp [Phase.isLooking, Phase.run?]
  · cases notified with
    | false => exact absurd rfl hasleep
    | true => simp [Phase.isLooking, Phase.run?]
  · simp [Phase.isLooking, Phase.run?]
  · exact absurd rfl hexited

/-- While a record waits, as many workers look for it in both. -/
theorem Matches.looking_eq (h : Matches p q) (hp : p.Sound) (hq : q.Sound) (hpc : p.Cleared)
    (hqc : q.Cleared) (hwait : p.queue.waiting ≠ []) : p.looking = q.looking := by
  have hp := hp.looking_add hpc hwait
  have hq := hq.looking_add hqc (h.waiting_eq ▸ hwait)
  have hbodies := h.bodies.length_eq
  have hlength := h.length
  omega

/-- A worker was just started in both, or in none. -/
theorem Matches.starting_mem (h : Matches p q) (hp : p.Counted) (hq : q.Counted)
    (hmem : .starting ∈ p.workers) : .starting ∈ q.workers := by
  have hp := hp.busy_eq_add
  have hq := hq.busy_eq_add
  have hbodies := h.bodies.length_eq
  have hbusy := h.busy
  have hpos : 0 < p.workers.countP (· == .starting) :=
    List.countP_pos_iff.mpr ⟨_, hmem, rfl⟩
  obtain ⟨phase, hphase, he⟩ :=
    List.countP_pos_iff.mp (show 0 < q.workers.countP (· == .starting) by omega)
  exact eq_of_beq he ▸ hphase

/-- The workers that look for work are of one kind in both. -/
theorem Matches.phase_eq (h : Matches p q) (hp : p.Sound) (hq : q.Sound) (hpf : p.Fresh)
    (hqf : q.Fresh) {v w : Nat} {phase phase' : Phase} (hv : p.workers[v]? = some phase)
    (hw : q.workers[w]? = some phase') (hlooking : phase.isLooking = true)
    (hlooking' : phase'.isLooking = true) : phase = phase' := by
  -- beside a worker that was just started, nobody else looks
  have halone {p : Pool α} (hf : p.Fresh) {v : Nat} {phase : Phase}
      (hv : p.workers[v]? = some phase) (hlooking : phase.isLooking = true)
      (hmem : .starting ∈ p.workers) : phase = .starting := by
    obtain ⟨u, hu⟩ := List.getElem?_of_mem hmem
    by_contra hne
    have htwo := two_le_countP (f := Phase.isLooking) hu hv rfl hlooking fun he =>
      hne (Option.some.inj ((he ▸ hu).symm.trans hv)).symm
    have hone : p.workers.countP Phase.isLooking = 1 := (hf hmem).2
    omega
  by_cases hmem : .starting ∈ p.workers
  · rw [halone hpf hv hlooking hmem,
      halone hqf hw hlooking' (h.starting_mem hp.counted hq.counted hmem)]
  · have hmem' : .starting ∉ q.workers := fun hmem' =>
      hmem (h.symm.starting_mem hq.counted hp.counted hmem')
    rcases phase with _ | notified | _ | _
    · exact absurd (List.mem_of_getElem? hv) hmem
    · rcases phase' with _ | notified' | _ | _
      · exact absurd (List.mem_of_getElem? hw) hmem'
      · obtain rfl : notified = true := hlooking
        obtain rfl : notified' = true := hlooking'
        rfl
      · cases hlooking'
      · cases hlooking'
    · cases hlooking
    · cases hlooking

/-- In pools in use, as many workers have not left. -/
theorem Matches.threads_eq (h : Matches p q) (hp : p.Sound) (hq : q.Sound) (hpe : p.Enlisted)
    (hqe : q.Enlisted) (hactive : p.isActive = true) : p.threads = q.threads := by
  rw [hpe.threads_eq hp.counted hactive, hqe.threads_eq hq.counted (h.isActive_eq ▸ hactive),
    h.length]

theorem Matches.counts_eq (h : Matches p q) (hp : p.Sound) (hq : q.Sound) (hpe : p.Enlisted)
    (hqe : q.Enlisted) (hactive : p.isActive = true) : p.counts = q.counts := by
  rw [counts, counts, h.threads_eq hp hq hpe hqe hactive, h.busy, h.size_eq]

end Pool
end WorkerPool
