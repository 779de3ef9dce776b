/-
# Systems that are the same up to the names of workers

`System.Renamed` says of two systems that they are the same, but for which worker of a pool is
where, and for what the pools noted: a note names the worker that it is about, so the notes depend
on who did the work.

* Every operation on two such systems gives two such systems (`Renamed.release`, ...), before any
  thread has moved.
* When nobody can move any more, two systems that match (`System.Matches`) and have the same joins
  and records are the same up to the names of workers (`Matches.renamed`): a worker that has nothing
  to do is parked, or has left if its pool is no longer in use, so only the bodies tell one
  worker from another.
-/
import WorkerPool.Proofs.Confluence.Joins

namespace WorkerPool

/-- With as many places, it does not matter where those are that show nothing. -/
theorem perm_map_of_filterMap {β γ : Type} {g : β → Option γ} {l l' : List β}
    (h : (l.filterMap g).Perm (l'.filterMap g)) (hlength : l.length = l'.length) :
    (l.map g).Perm (l'.map g) := by
  -- first all that shows, then the rest
  have hsorted (l : List β) : (l.map g).Perm
      ((l.filterMap g).map some ++ List.replicate (l.length - (l.filterMap g).length) none) := by
    induction l with
    | nil => exact .refl _
    | cons b rest ih =>
      have hle := List.length_filterMap_le g rest
      rw [List.map_cons, List.filterMap_cons, List.length_cons]
      cases hb : g b with
      | none =>
        dsimp only
        rw [Nat.succ_sub hle, List.replicate_succ]
        exact (ih.cons none).trans List.perm_middle.symm
      | some c =>
        dsimp only
        rw [List.length_cons, Nat.succ_sub_succ, List.map_cons, List.cons_append]
        exact ih.cons (some c)
  have hrest := hsorted l'
  rw [← hlength, ← h.length_eq] at hrest
  exact (hsorted l).trans (((h.map some).append_right _).trans hrest.symm)

/-! ## 1. Pools -/

/-- A worker with this body, or none. -/
def Phase.ofRun (idle : Phase) : Option (Ticket × Job × Stage) → Phase
  | some (ticket, job, stage) => .executing ticket job stage
  | none => idle

namespace Pool

variable {α : Type} {p q : Pool α}

/-- The same pool, but for which worker is where, and for what was noted. -/
def Renamed (p q : Pool α) : Prop :=
  ∃ (workers : List Phase) (journal : List PoolNote), p.workers.Perm workers ∧
    q = { p with workers, journal }

namespace Renamed

theorem refl (p : Pool α) : Renamed p p := ⟨p.workers, p.journal, .refl _, rfl⟩

theorem toMatches (h : Renamed p q) : Matches p q := by
  obtain ⟨workers, journal, h, rfl⟩ := h
  exact ⟨rfl, rfl, rfl, rfl, rfl, h.filterMap _, h.length_eq, rfl, rfl⟩

theorem queue_eq (h : Renamed p q) : p.queue = q.queue := by
  obtain ⟨workers, journal, -, rfl⟩ := h
  rfl

theorem face_eq (h : Renamed p q) : p.face = q.face := by
  obtain ⟨workers, journal, -, rfl⟩ := h
  rfl

theorem isActive_eq (h : Renamed p q) : p.isActive = q.isActive :=
  h.toMatches.isActive_eq

theorem blockedRuns (h : Renamed p q) (a : Nat) : (p.blockedRuns a).Perm (q.blockedRuns a) := by
  obtain ⟨workers, journal, h, rfl⟩ := h
  exact h.filterMap _

/-! ### Sections of callers -/

/-- A note is not compared. -/
theorem note (h : Renamed p q) (n n' : PoolNote) : Renamed (p.note n) (q.note n') := by
  obtain ⟨workers, journal, h, rfl⟩ := h
  exact ⟨workers, n' :: journal, h, rfl⟩

theorem fault (h : Renamed p q) (f : Fault) : Renamed (p.fault f) (q.fault f) := by
  obtain ⟨workers, journal, h, rfl⟩ := h
  exact ⟨workers, journal, h, rfl⟩

/-- All workers change, each in the same way. -/
theorem mapWorkers (h : Renamed p q) (f : Phase → Phase) :
    Renamed { p with workers := p.workers.map f } { q with workers := q.workers.map f } := by
  obtain ⟨workers, journal, h, rfl⟩ := h
  exact ⟨workers.map f, journal, h.map f, rfl⟩

theorem setQueue (h : Renamed p q) (queue : Queue Arena Job) :
    Renamed { p with queue } { q with queue } := by
  obtain ⟨workers, journal, h, rfl⟩ := h
  exact ⟨workers, journal, h, rfl⟩

theorem setStanding (h : Renamed p q) (standing : Standing) :
    Renamed { p with standing } { q with standing } := by
  obtain ⟨workers, journal, h, rfl⟩ := h
  exact ⟨workers, journal, h, rfl⟩

theorem startWorker (h : Renamed p q) : Renamed p.startWorker q.startWorker := by
  obtain ⟨workers, journal, h, rfl⟩ := h
  exact ⟨workers ++ [Phase.starting], _, h.append_right [Phase.starting], rfl⟩

theorem join (h : Renamed p q) (k : Ticket) : Renamed (p.join k) (q.join k) := by
  obtain ⟨workers, journal, h, rfl⟩ := h
  exact ⟨workers, journal, h, rfl⟩

theorem detach (h : Renamed p q) (k : Ticket) : Renamed (p.detach k) (q.detach k) := by
  obtain ⟨workers, journal, h, rfl⟩ := h
  exact ⟨workers, journal, h, rfl⟩

theorem unlink (h : Renamed p q) (k : Ticket) : Renamed (p.unlink k) (q.unlink k) := by
  unfold Pool.unlink
  rw [← h.queue_eq]
  split
  · exact h.setQueue _
  · exact (h.setQueue _).fault _

theorem grow (h : Renamed p q) (refusal : Option String) :
    (p.grow refusal).1 = (q.grow refusal).1 ∧
      Renamed (p.grow refusal).2 (q.grow refusal).2 := by
  have hwants : p.wantsWorker = q.wantsWorker := by
    obtain ⟨workers, journal, -, rfl⟩ := h
    rfl
  have hthreads : p.threads = q.threads := congrArg (·.2.2.2.1.threads) h.face_eq
  unfold Pool.grow
  rw [← hwants, ← hthreads]
  split
  · split
    · exact ⟨rfl, h.startWorker⟩
    · split
      · exact ⟨rfl, h.note _ _⟩
      · exact ⟨rfl, h.note _ _⟩
  · exact ⟨rfl, h⟩

theorem submit (h : Renamed p q) (refusal : Option String) (job : Job) :
    (p.submit refusal job).1 = (q.submit refusal job).1 ∧
      Renamed (p.submit refusal job).2 (q.submit refusal job).2 := by
  obtain ⟨hanswer, hgrown⟩ := h.grow refusal
  unfold Pool.submit
  rw [← h.queue_eq]
  split
  · exact ⟨rfl, h.note _ _⟩
  generalize p.grow refusal = grown at *
  generalize q.grow refusal = grown' at *
  obtain ⟨e, p'⟩ := grown
  obtain ⟨e', q'⟩ := grown'
  obtain rfl : e = e' := hanswer
  cases e with
  | some e => exact ⟨rfl, hgrown⟩
  | none =>
    dsimp only at hgrown ⊢
    rw [← hgrown.queue_eq]
    obtain ⟨_ | ticket, queue⟩ := p'.queue.push job
    · exact ⟨rfl, (hgrown.setQueue queue).fault _⟩
    · exact ⟨rfl, Renamed.note ((hgrown.setQueue queue).mapWorkers Phase.notify) _ _⟩

theorem awaitWorkers (h : Renamed p q) : Renamed p.awaitWorkers q.awaitWorkers := by
  obtain ⟨workers, journal, h, rfl⟩ := h
  unfold Pool.awaitWorkers
  dsimp only
  split
  · exact ⟨workers, .shutDown :: journal, h, rfl⟩
  · exact ⟨workers, journal, h, rfl⟩

theorem shutdown (h : Renamed p q) :
    p.shutdown.1 = q.shutdown.1 ∧ Renamed p.shutdown.2 q.shutdown.2 := by
  have hstopping := (h.setStanding (.stopping false)).mapWorkers Phase.notify
  unfold Pool.shutdown
  rw [← h.queue_eq]
  split
  · refine ⟨rfl, ?_⟩
    rw [h.queue_eq] at hstopping ⊢
    exact hstopping.awaitWorkers
  · exact ⟨rfl, h.note _ _⟩

theorem drop (h : Renamed p q) : Renamed p.drop q.drop := by
  obtain ⟨workers, journal, h, rfl⟩ := h
  unfold Pool.drop
  show Renamed (if p.isActive then _ else _) (if p.isActive then _ else _)
  split
  · exact ⟨workers.map Phase.notify, _, h.map _, rfl⟩
  · exact ⟨workers, journal, h, rfl⟩

end Renamed

/-! ### Pools where nobody can move -/

/-- Where a worker is that has nothing to do, when nobody can move. -/
def idlePhase (p : Pool α) : Phase := if p.isActive then .parked false else .exited

/-- So the body tells where a worker is. -/
theorem Rests.phase_eq (h : p.Rests) (hp : p.Sound) (henlisted : p.Enlisted) {phase : Phase}
    (hmem : phase ∈ p.workers) : phase = .ofRun p.idlePhase phase.run? := by
  obtain ⟨-, hlooking⟩ := h phase hmem
  rcases phase with _ | notified | ⟨k, job, stage⟩ | _
  · cases hlooking
  · obtain rfl : notified = false := hlooking
    cases hactive : p.isActive with
    | true => simp [idlePhase, hactive, Phase.ofRun, Phase.run?]
    | false => exact absurd rfl (hp.not_asleep (Or.inr hactive) hmem)
  · rfl
  · cases hactive : p.isActive with
    | true => exact absurd hmem (henlisted.stays hactive)
    | false => simp [idlePhase, hactive, Phase.ofRun, Phase.run?]

theorem Rests.workers_eq (h : p.Rests) (hp : p.Sound) (henlisted : p.Enlisted) :
    p.workers = (p.workers.map Phase.run?).map (.ofRun p.idlePhase) := by
  rw [List.map_map]
  refine ((List.map_congr_left fun phase hmem => ?_).trans (List.map_id _)).symm
  exact (h.phase_eq hp henlisted hmem).symm

/-- The same bodies, and as many workers. -/
theorem Matches.workers (h : Matches p q) (hpr : p.Rests) (hqr : q.Rests) (hp : p.Sound)
    (hq : q.Sound) (hpe : p.Enlisted) (hqe : q.Enlisted) : p.workers.Perm q.workers := by
  have hidle : p.idlePhase = q.idlePhase := by rw [idlePhase, idlePhase, h.isActive_eq]
  rw [hpr.workers_eq hp hpe, hqr.workers_eq hq hqe, hidle]
  exact (perm_map_of_filterMap h.bodies h.length).map _

theorem Matches.renamed (h : Matches p q) (hworkers : p.workers.Perm q.workers)
    (hqueue : p.queue = q.queue) (hstanding : p.standing = q.standing)
    (hthreads : p.threads = q.threads) : Renamed p q := by
  cases p
  cases q
  obtain ⟨hid, hplan, -, hbusy, -, -, -, hresults, hfaults⟩ := h
  dsimp only at *
  subst hid hplan hstanding hthreads hbusy hqueue hresults hfaults
  exact ⟨_, _, hworkers, rfl⟩

/-! ### How a shutdown ends -/

/-- The workers do not close a pool. -/
theorem settled_advance (hq : p.queue.Sound) (w : Nat) :
    (p.advance w).standing.settled = p.standing.settled := by
  rcases advance_cases hq w with ⟨_, _, _, _, -, -, -, -, he⟩ | ⟨-, ⟨-, he⟩ | ⟨-, he⟩⟩ <;> rw [he]
  · rfl
  · rfl
  · exact p.standing.settled_notify

/-- Nothing closes a pool but a shutdown. -/
theorem Sound.settled_section (h : p.Sound) {p' : Pool α} (hs : Section p p') :
    p'.standing.settled = p.standing.settled ∨ p'.Closed ∨ p'.standing = .dropped := by
  cases hs with
  | submit ha refusal job =>
    left
    rcases submit_cases p refusal job with ⟨-, he⟩ | ⟨e, -, -, he⟩ | ⟨-, -, he⟩ <;> rw [he]
    · rfl
    · rw [standing_grow p refusal]
    · exact congrArg Standing.settled (standing_grow p refusal)
  | advance hw => exact Or.inl (settled_advance h.queue _)
  | wake hw => exact Or.inl (settled_advance (p := { p with busy := p.busy + 1 }) h.queue _)
  | enterBody hw hs => exact Or.inl rfl
  | panicBody hw => exact Or.inl rfl
  | returnBody hw v =>
    left
    show (p.putResult _ v).standing.settled = _
    unfold Pool.putResult
    split <;> rfl
  | finish hw =>
    obtain ⟨r, -, -, he⟩ := h.finish_eq hw
    rw [he]
    exact Or.inl (settled_advance (h.ended hw _).queue _)
  | openGate task run => exact Or.inl rfl
  | join k => exact Or.inl rfl
  | detach k => exact Or.inl rfl
  | unlink k =>
    left
    rcases p.unlink_cases k with he | he | ⟨f, he⟩
    · rw [he]
    · rw [he]
    · rw [he]
      rfl
  | shutdown ha =>
    rcases p.shutdown_cases with ⟨-, -, hc, -⟩ | ⟨-, he⟩
    · exact Or.inr (Or.inl hc)
    · rw [he]
      exact Or.inl rfl
  | awaitWorkers hwoken =>
    exact Or.inl (matches_awaitWorkers hwoken).standing.symm
  | drop =>
    unfold Pool.drop
    split
    · exact Or.inr (Or.inr rfl)
    · exact Or.inl rfl

end Pool

namespace Program

variable {α : Type} {p : Program α} {i : Nat} {pool : Pool α}

/-- A pool that ends by a shutdown is closed. -/
theorem Reachable.closed (h : p.Reachable) (hi : p.system.pools[i]? = some pool)
    (hstanding : pool.standing.settled = .stopped) : pool.Closed := by
  refine h.pool_induct (P := fun q => q.standing.settled = .stopped → q.Closed) hi
    (fun _ _ hs => by cases hs) (fun q q' hq hclosed hs hstanding => ?_) hstanding
  rcases hq.settled_section hs with hsame | hc | hdropped
  · exact ((hclosed (hsame ▸ hstanding)).section hq hs).1
  · exact hc
  · rw [hdropped] at hstanding
    cases hstanding

end Program

namespace System

variable {α : Type} {s t u v : System α} {i : Nat} {p q : Pool α}

/-- Where nobody can move, a shutdown has ended, and so have all workers of a pool no longer in use
that do not run a body. -/
theorem Still.pool (h : s.Still) (hi : s.pools[i]? = some p) :
    p.standing = p.standing.settled ∧ (p.isActive = false → p.threads = p.busy) := by
  have hrests := h.rests
  obtain ⟨program, hreach, -, rfl⟩ := h.occurs
  constructor
  · by_cases hstanding : p.standing.settled = .stopped
    · have hclosing := hreach.closing hi (hreach.closed hi hstanding)
      obtain ⟨-, -, -, hstopped | hready⟩ := hclosing.ended fun w => hrests (.worker i w)
      · rw [hstopped]
        rfl
      · exact absurd (hready.symm.trans (hrests (.shutdown i))) (by simp)
    · cases hs : p.standing with
      | stopping notified => exact absurd (by rw [hs]; rfl) hstanding
      | _ => rfl
  · intro hina
    obtain ⟨hthreads, hbusy, -⟩ := Program.settled_of_inactive hi (hreach.poolsSound i p hi) hina
      fun w => hrests (.worker i w)
    rw [hthreads, hbusy]

/-! ## 2. Systems -/

/-- The same system, but for which worker of a pool is where, and for what the pools noted. -/
structure Renamed (s t : System α) : Prop where
  pools : ∀ i : Nat, Option.Rel Pool.Renamed s.pools[i]? t.pools[i]?
  tasks : s.tasks = t.tasks
  joiners : s.joiners = t.joiners
  events : s.events = t.events
  journal : s.journal = t.journal
  clock : s.clock = t.clock
  refusal : s.refusal = t.refusal
  processors : s.processors = t.processors

/-- **Two systems that match are the same up to the names of workers**, when nobody can move, and
the joins and the records are the same. -/
theorem Matches.renamed (h : Matches u v) (hu : u.Still) (hv : v.Still)
    (hqueues : ∀ (i : Nat) (p q : Pool α), u.pools[i]? = some p → v.pools[i]? = some q →
      p.queue = q.queue)
    (hjoiners : u.joiners = v.joiners) : Renamed u v where
  pools i := by
    rcases h.pool_cases i with ⟨hp, hq⟩ | ⟨p, q, hp, hq, hpools⟩ <;> rw [hp, hq]
    · exact .none
    obtain ⟨hsound, henlisted, -⟩ := hu.occurs.pool hp
    obtain ⟨hsound', henlisted', -⟩ := hv.occurs.pool hq
    obtain ⟨hstanding, hthreads⟩ := hu.pool hp
    obtain ⟨hstanding', hthreads'⟩ := hv.pool hq
    refine .some (hpools.renamed ?_ (hqueues i p q hp hq) ?_ ?_)
    · exact hpools.workers (hu.rests.pool (List.mem_of_getElem? hp))
        (hv.rests.pool (List.mem_of_getElem? hq)) hsound hsound' henlisted henlisted'
    · rw [hstanding, hstanding', hpools.standing]
    · cases hactive : p.isActive with
      | true => exact hpools.threads_eq hsound hsound' henlisted henlisted' hactive
      | false =>
        rw [hthreads hactive, hthreads' (hpools.isActive_eq ▸ hactive), hpools.busy]
  tasks := h.tasks
  joiners := hjoiners
  events := h.events
  journal := h.journal
  clock := h.clock
  refusal := h.refusal
  processors := h.processors

namespace Renamed

theorem refl (s : System α) : Renamed s s where
  pools i := by
    cases s.pools[i]? with
    | none => exact .none
    | some p => exact .some (.refl p)
  tasks := rfl
  joiners := rfl
  events := rfl
  journal := rfl
  clock := rfl
  refusal := rfl
  processors := rfl

theorem pool_cases (h : Renamed s t) (i : Nat) :
    s.pools[i]? = none ∧ t.pools[i]? = none ∨
      ∃ p q, s.pools[i]? = some p ∧ t.pools[i]? = some q ∧ p.Renamed q :=
  rel_cases (h.pools i)

theorem toMatches (h : Renamed s t) : Matches s t where
  pools i := by
    rcases h.pool_cases i with ⟨hp, hq⟩ | ⟨p, q, hp, hq, hpools⟩ <;> rw [hp, hq]
    · exact .none
    · exact .some hpools.toMatches
  tasks := h.tasks
  events := h.events
  journal := h.journal
  clock := h.clock
  refusal := h.refusal
  processors := h.processors

/-- What looks the same in two pools looks the same in all. -/
theorem map_pools {β : Type} (h : Renamed s t) {f : Pool α → β}
    (hf : ∀ p q, Pool.Renamed p q → f p = f q) : s.pools.map f = t.pools.map f :=
  map_eq_of_rel h.pools fun _ => hf

theorem record?_eq (h : Renamed s t) (x : Submission) : s.record? x = t.record? x := by
  unfold record?
  rcases h.pool_cases x.pool with ⟨hp, hq⟩ | ⟨p, q, hp, hq, hpools⟩ <;> rw [hp, hq]
  show p.queue.get? _ = q.queue.get? _
  rw [hpools.queue_eq]

theorem blockedRuns (h : Renamed s t) (a : Nat) : (s.blockedRuns a).Perm (t.blockedRuns a) := by
  have hpools := h.pools
  unfold System.blockedRuns
  generalize s.pools = l at hpools
  generalize t.pools = l' at hpools
  induction l generalizing l' with
  | nil =>
    cases l' with
    | nil => exact .refl _
    | cons q rest' => cases hpools 0
  | cons p rest ih =>
    cases l' with
    | nil => cases hpools 0
    | cons q rest' =>
      have hfirst : p.Renamed q := by
        cases hpools 0 with
        | some h => exact h
      exact (hfirst.blockedRuns a).append (ih rest' fun i => hpools (i + 1))

/-- **Commands ask for nothing that tells the two apart.** -/
theorem alike (h : Renamed s t) : s.Alike t where
  pools := h.map_pools fun _ _ hpools => hpools.face_eq
  tasks := by rw [h.tasks]
  status x := by rw [h.record?_eq]
  blocked := h.blockedRuns
  clock := h.clock
  processors := h.processors

/-! ### Operations on both -/

theorem modifyPool (h : Renamed s t) (i : Nat) {f g : Pool α → Pool α}
    (hf : ∀ p q, s.pools[i]? = some p → t.pools[i]? = some q → p.Renamed q →
      (f p).Renamed (g q)) : Renamed (s.modifyPool i f) (t.modifyPool i g) :=
  { h with pools := rel_modifyPool h.pools i hf }

theorem modifyTask (h : Renamed s t) (a : Nat) (f : Task α → Task α) :
    Renamed (s.modifyTask a f) (t.modifyTask a f) :=
  { h with tasks := congrArg (List.modify · a f) h.tasks }

theorem note (h : Renamed s t) (n : TaskNote) : Renamed (s.note n) (t.note n) :=
  { h with journal := congrArg (n :: ·) h.journal }

theorem addPool (h : Renamed s t) (id : String) (plan : Plan) :
    Renamed (s.addPool id plan) (t.addPool id plan) :=
  { h with
    pools := by
      have hlength : s.pools.length = t.pools.length := by
        have hmap := congrArg List.length (h.map_pools (f := fun _ => ()) fun _ _ _ => rfl)
        rwa [List.length_map, List.length_map] at hmap
      intro i
      show Option.Rel _ (s.pools ++ [_])[i]? (t.pools ++ [_])[i]?
      rcases Nat.lt_trichotomy i s.pools.length with hi | rfl | hi
      · rw [List.getElem?_append_left hi, List.getElem?_append_left (hlength ▸ hi)]
        exact h.pools i
      · rw [List.getElem?_concat_length, hlength, List.getElem?_concat_length]
        exact .some (.refl _)
      · rw [List.getElem?_eq_none (by simpa using Nat.succ_le_of_lt hi),
          List.getElem?_eq_none (by simpa [← hlength] using Nat.succ_le_of_lt hi)]
        exact .none }

theorem addTask (h : Renamed s t) (id : String) (body : Body α) :
    Renamed (s.addTask id body) (t.addTask id body) :=
  { h with tasks := congrArg (· ++ [_]) h.tasks }

theorem refuseThreads (h : Renamed s t) (refusal : Option String) :
    Renamed { s with refusal } { t with refusal } :=
  { h with refusal := rfl }

theorem rejoin (h : Renamed s t) (clock : Nat) (joiners : List (Joiner α)) :
    Renamed (s.later clock joiners) (t.later clock joiners) :=
  ⟨h.pools, h.tasks, rfl, h.events, h.journal, rfl, h.refusal, h.processors⟩

theorem mark (h : Renamed s t) (x : Submission) :
    Renamed (s.modifyPool x.pool (·.join x.ticket)) (t.modifyPool x.pool (·.join x.ticket)) :=
  h.modifyPool x.pool fun _ _ _ _ hpools => hpools.join x.ticket

theorem submissions_eq (h : Renamed s t) (a : Nat) : s.submissions a = t.submissions a := by
  rw [submissions, submissions, h.tasks]

theorem isSpent_eq (h : Renamed s t) (x : Submission) : s.isSpent x = t.isSpent x := by
  unfold isSpent
  rcases h.pool_cases x.pool with ⟨hp, hq⟩ | ⟨p, q, hp, hq, hpools⟩ <;> rw [hp, hq]
  show p.queue.isSpent _ = q.queue.isSpent _
  rw [hpools.queue_eq]

theorem release (h : Renamed s t) (a : Nat) :
    (s.release a).1 = (t.release a).1 ∧ Renamed (s.release a).2 (t.release a).2 := by
  have hunlink (xs : List Submission) : ∀ {s t : System α}, Renamed s t →
      Renamed (s.unlinkAll xs) (t.unlinkAll xs) := by
    induction xs with
    | nil => exact id
    | cons x rest ih =>
      intro s t h
      exact ih (h.modifyPool x.pool fun _ _ _ _ hpools => hpools.unlink x.ticket)
  unfold System.release canRelease
  rw [← h.submissions_eq, ← funext h.isSpent_eq]
  split
  · exact ⟨rfl, (hunlink _ h).modifyTask a _⟩
  · exact ⟨rfl, h.note _⟩

theorem detach (h : Renamed s t) (a : Nat) : Renamed (s.detach a) (t.detach a) := by
  have hdetach (xs : List Submission) : ∀ {s t : System α}, Renamed s t →
      Renamed (s.detachAll xs) (t.detachAll xs) := by
    induction xs with
    | nil => exact id
    | cons x rest ih =>
      intro s t h
      exact ih (h.modifyPool x.pool fun _ _ _ _ hpools => hpools.detach x.ticket)
  unfold System.detach
  rw [← h.submissions_eq]
  dsimp only
  refine (hdetach _ ?_).modifyTask a _
  split
  · exact h
  · exact h.note _

theorem submit (h : Renamed s t) (i a : Nat) :
    (s.submit i a).1 = (t.submit i a).1 ∧ Renamed (s.submit i a).2 (t.submit i a).2 := by
  unfold System.submit
  rw [← h.tasks, ← h.refusal]
  rcases h.pool_cases i with ⟨hp, hq⟩ | ⟨p, q, hp, hq, hpools⟩ <;> rw [hp, hq]
  · exact ⟨rfl, h⟩
  cases s.tasks[a]? with
  | none => exact ⟨rfl, h⟩
  | some b =>
    dsimp only
    rw [← hpools.isActive_eq]
    split
    · exact ⟨rfl, h⟩
    split
    · exact ⟨rfl, h⟩
    obtain ⟨hanswer, hafter⟩ := hpools.submit s.refusal ⟨a⟩
    generalize p.submit s.refusal ⟨a⟩ = result at *
    generalize q.submit s.refusal ⟨a⟩ = result' at *
    obtain ⟨reply, p'⟩ := result
    obtain ⟨reply', q'⟩ := result'
    obtain rfl : reply = reply' := hanswer
    have hmodified := h.modifyPool i (f := fun _ => p') (g := fun _ => q') fun _ _ _ _ _ => hafter
    cases reply with
    | error e => exact ⟨rfl, hmodified⟩
    | ok ticket => exact ⟨rfl, hmodified.modifyTask a _⟩

theorem shutdown (h : Renamed s t) (i : Nat) :
    (s.shutdown i).1 = (t.shutdown i).1 ∧ Renamed (s.shutdown i).2 (t.shutdown i).2 := by
  unfold System.shutdown
  rcases h.pool_cases i with ⟨hp, hq⟩ | ⟨p, q, hp, hq, hpools⟩ <;> rw [hp, hq]
  · exact ⟨rfl, h⟩
  dsimp only
  rw [← hpools.isActive_eq]
  split
  · obtain ⟨hanswer, hafter⟩ := hpools.shutdown
    exact ⟨hanswer, h.modifyPool i fun _ _ _ _ _ => hafter⟩
  · exact ⟨rfl, h⟩

theorem dropPool (h : Renamed s t) (i : Nat) : Renamed (s.dropPool i) (t.dropPool i) :=
  h.modifyPool i fun _ _ _ _ hpools => hpools.drop

theorem openGate (h : Renamed s t) (a run : Nat) :
    Renamed (s.openGate a run) (t.openGate a run) :=
  { h with
    pools := by
      intro i
      rw [openGate_pools, openGate_pools]
      rcases h.pool_cases i with ⟨hp, hq⟩ | ⟨p, q, hp, hq, hpools⟩ <;> rw [hp, hq]
      · exact .none
      · exact .some (hpools.mapWorkers _) }

end Renamed

/-! ## 3. Settling -/

/-- **Whatever moves first**, two systems that are the same up to the names of workers settle to two
that are, if there is work for one worker at most. -/
theorem Renamed.moves {ms ns : List Move} (h : Renamed s t) (hms : s.Moves ms u)
    (hns : t.Moves ns v) (hs : s.Occurs) (ht : t.Occurs) (hsc : s.Calm) (htc : t.Calm)
    (hsp : s.Patient) (htp : t.Patient) (hu : u.Still) (hv : v.Still) (hul : u.Local) :
    Renamed u v := by
  have hmatches := h.toMatches.moves hms hns hs ht hsc htc hu.rests hv.rests hul
  have hvl := hmatches.toLocal hul
  have hsu := hms.since hs hsp hul
  have htv := hns.since ht htp hvl
  have hjoiners := hmatches.joiners_eq hsu htv hu hv hsp htp h.joiners
  exact hmatches.renamed hu hv
    (fun _ _ _ => hmatches.queue_eq hsu htv h.record?_eq h.joiners hjoiners) hjoiners

end System
end WorkerPool
