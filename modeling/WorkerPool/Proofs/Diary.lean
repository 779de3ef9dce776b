/-
# What a pool writes down

A pool notes each submission that it accepts, each claim and each finish, each panic, each start and
each exit of a worker, and its own end.  Its `Diary` has these notes by kind, together with what
they are about: the numbers given and those that wait, where each worker is, which submissions have
a result.  An `Entry` is a note and the change that it stands for, made at one moment; every section
of a pool is some entries (`Section.entries`), so that what each entry keeps holds of every pool
that a program reaches.
-/
import WorkerPool.Proofs.Workers

namespace WorkerPool

/-! ## 1. Reading a journal -/

namespace PoolNote

/-- The number that was given to a submission. -/
def submitted? : PoolNote → Option Nat
  | submitted submission => some submission
  | _ => none

/-- The worker and the submission of a claim. -/
def claimed? : PoolNote → Option (Nat × Nat)
  | claimed worker submission => some (worker, submission)
  | _ => none

/-- The worker and the submission of a finish, and whether the record went with it. -/
def finished? : PoolNote → Option (Nat × Nat × Bool)
  | finished worker submission unlinked => some (worker, submission, unlinked)
  | _ => none

/-- The worker and the submission of a panic. -/
def panicked? : PoolNote → Option (Nat × Nat)
  | panicked worker submission => some (worker, submission)
  | _ => none

/-- The worker that left. -/
def exited? : PoolNote → Option Nat
  | workerExited worker => some worker
  | _ => none

/-- Whether the pool is noted to have ended. -/
def isClosing : PoolNote → Bool
  | shutDown => true
  | closed _ => true
  | _ => false

/-- Whether the note is about anything else. -/
def isAside : PoolNote → Bool
  | extraWorkerRefused _ => true
  | firstWorkerRefused _ => true
  | queueFull _ => true
  | shutdownRefused _ => true
  | _ => false

end PoolNote

/-- Where a worker is, as far as it is written down. -/
inductive Post where
  | free
  /-- With a submission whose body has ended, or has not. -/
  | busy (submission : Nat) (done : Bool)
  | gone

def Phase.post : Phase → Post
  | starting => .free
  | parked _ => .free
  | executing ticket _ stage => .busy ticket.number (stage = .over)
  | exited => .gone

/-- Whether a pool has ended for good: after a successful shutdown, or when it was dropped. -/
def Standing.isOver : Standing → Bool
  | stopped => true
  | dropped => true
  | _ => false

/-- The notes of a pool by kind, newest first, and what they are about. -/
@[ext]
structure Diary where
  taken : List Nat
  claims : List (Nat × Nat)
  finishes : List (Nat × Nat × Bool)
  panics : List (Nat × Nat)
  exits : List Nat
  closings : Nat
  next : Nat
  /-- The numbers of the submissions that wait, newest first. -/
  waiting : List Nat
  post : Nat → Option Post
  hired : Nat
  threads : Nat
  /-- Whether a submission has a result. -/
  given : Nat → Bool
  ended : Bool

/-! ## 2. Entries -/

open Function (update)

/-- A note and what it stands for; some changes are not noted. -/
inductive Entry : Diary → Diary → Prop where
  | hire {g : Diary} (hw : g.post g.hired = none) :
      Entry g { g with
        post := update g.post g.hired (some .free)
        hired := g.hired + 1
        threads := g.threads + 1 }
  | take {g : Diary} :
      Entry g { g with
        taken := g.next :: g.taken
        next := g.next + 1
        waiting := g.next :: g.waiting }
  | claim {g : Diary} {w n : Nat} {rest : List Nat} (hw : g.post w = some .free)
      (hn : g.waiting = n :: rest) :
      Entry g { g with
        claims := (w, n) :: g.claims
        waiting := rest
        post := update g.post w (some (.busy n false)) }
  | panic {g : Diary} {w n : Nat} (hw : g.post w = some (.busy n false)) :
      Entry g { g with
        panics := (w, n) :: g.panics
        post := update g.post w (some (.busy n true)) }
  | give {g : Diary} {w n : Nat} (hw : g.post w = some (.busy n false)) :
      Entry g { g with
        given := update g.given n true
        post := update g.post w (some (.busy n true)) }
  | finish {g : Diary} {w n : Nat} (unlinked : Bool) (hw : g.post w = some (.busy n true)) :
      Entry g { g with
        finishes := (w, n, unlinked) :: g.finishes
        post := update g.post w (some .free) }
  | leave {g : Diary} {w threads : Nat} (hw : g.post w = some .free)
      (ht : g.threads = threads + 1) :
      Entry g { g with
        exits := w :: g.exits
        post := update g.post w (some .gone)
        threads }
  | close {g : Diary} (hopen : g.ended = false) :
      Entry g { g with
        closings := g.closings + 1
        ended := true }

/-- Any number of entries. -/
abbrev Entries : Diary → Diary → Prop := Relation.ReflTransGen Entry

theorem Entry.reaches {g g' g'' : Diary} (h : Entry g g') (he : g'' = g') : Entries g g'' :=
  he ▸ .single h

namespace Pool

variable {α : Type} {p p' : Pool α}

/-- The diary of a pool. -/
def diary (p : Pool α) : Diary where
  taken := p.journal.filterMap PoolNote.submitted?
  claims := p.journal.filterMap PoolNote.claimed?
  finishes := p.journal.filterMap PoolNote.finished?
  panics := p.journal.filterMap PoolNote.panicked?
  exits := p.journal.filterMap PoolNote.exited?
  closings := p.journal.countP PoolNote.isClosing
  next := p.queue.next
  waiting := p.queue.waiting.map (·.number)
  post w := p.workers[w]?.map Phase.post
  hired := p.workers.length
  threads := p.threads
  given n := p.results.contains n
  ended := p.standing.isOver

theorem post_diary {w : Nat} {phase : Phase} (hw : p.workers[w]? = some phase) :
    p.diary.post w = some phase.post :=
  congrArg (Option.map Phase.post) hw

/-- What the diary reads. -/
theorem diary_congr (hjournal : p'.journal = p.journal) (hnext : p'.queue.next = p.queue.next)
    (hwaiting : p'.queue.waiting = p.queue.waiting)
    (hworkers : p'.workers.map Phase.post = p.workers.map Phase.post)
    (hthreads : p'.threads = p.threads) (hresults : p'.results = p.results)
    (hstanding : p'.standing.isOver = p.standing.isOver) : p'.diary = p.diary := by
  have hpost : p'.diary.post = p.diary.post := by
    funext w
    simpa only [diary, List.getElem?_map] using congrArg (·[w]?) hworkers
  have hhired : p'.workers.length = p.workers.length := by
    simpa only [List.length_map] using congrArg List.length hworkers
  unfold diary at hpost ⊢
  rw [hjournal, hnext, hwaiting, hthreads, hresults, hstanding, hhired]
  exact Diary.ext rfl rfl rfl rfl rfl rfl rfl rfl hpost rfl rfl rfl rfl

theorem diary_note {n : PoolNote} (hn : n.isAside = true) : (p.note n).diary = p.diary := by
  cases n <;> first | rfl | exact absurd hn (by simp [PoolNote.isAside])

/-- A note of the end is counted. -/
theorem closings_note (p : Pool α) {n : PoolNote} (hn : n.isClosing = true) :
    (p.note n).diary.closings = p.diary.closings + 1 :=
  List.countP_cons_of_pos hn

theorem post_notify (workers : List Phase) :
    (workers.map Phase.notify).map Phase.post = workers.map Phase.post := by
  rw [List.map_map]
  refine List.map_congr_left fun phase _ => ?_
  cases phase <;> rfl

/-- The worker takes another post. -/
theorem diary_setPhase {w : Nat} {old : Phase} (hw : p.workers[w]? = some old) (phase : Phase) :
    (p.setPhase w phase).diary =
      { p.diary with post := update p.diary.post w (some phase.post) } := by
  refine Diary.ext rfl rfl rfl rfl rfl rfl rfl rfl ?_ ?_ rfl rfl rfl
  · funext v
    show (p.setPhase w phase).workers[v]?.map Phase.post = _
    rw [workers_setPhase hw]
    show _ = update p.diary.post w (some phase.post) v
    rw [Function.update_apply]
    split <;> rfl
  · exact List.length_set

/-- The post stays the same. -/
theorem diary_setPhase_self {w : Nat} {old : Phase} (hw : p.workers[w]? = some old) {phase : Phase}
    (hpost : phase.post = old.post) : (p.setPhase w phase).diary = p.diary := by
  rw [diary_setPhase hw, hpost, ← post_diary hw, Function.update_eq_self]

/-! ## 3. Sections -/

/-- A worker that looks for work claims a record, waits, or leaves. -/
theorem Sound.entries_advance (h : p.Sound) {w : Nat} (hw : p.workers[w]? = some .starting) :
    Entries p.diary (p.advance w).diary := by
  have hpost := post_diary hw
  rcases advance_cases h.queue w with
    ⟨k, rest, r, job, hwait, -, -, -, he⟩ | ⟨-, ⟨-, he⟩ | ⟨-, he⟩⟩ <;> rw [he]
  · have hclaim : p.diary.waiting = k.number :: rest.map (·.number) := by
      show p.queue.waiting.map (·.number) = _
      rw [hwait]
      rfl
    have hplace := congrArg Diary.post (diary_setPhase hw (.executing k job .entering))
    exact (Entry.claim hpost hclaim).reaches
      (Diary.ext rfl rfl rfl rfl rfl rfl (Queue.next_started p.queue k rest) rfl hplace
        List.length_set rfl rfl rfl)
  · have hsame : (p.park w).diary = p.diary :=
      diary_setPhase_self (p := { p with busy := p.busy - 1 }) hw rfl
    rw [hsame]
  · have hthreads : p.threads = (p.threads - 1) + 1 := by
      have hpos : 0 < p.threads :=
        Nat.lt_of_lt_of_le (h.counted.busy_pos hw rfl) h.counted.busy_le
      omega
    have hplace := congrArg Diary.post (diary_setPhase hw .exited)
    refine (Entry.leave hpost hthreads).reaches
      (Diary.ext rfl rfl rfl rfl rfl rfl rfl rfl hplace List.length_set rfl rfl ?_)
    show p.standing.notify.isOver = p.standing.isOver
    cases p.standing <;> rfl

/-- So does one that was told to look again. -/
theorem Sound.entries_wake (h : p.Sound) {w : Nat} (hw : p.workers[w]? = some (.parked true)) :
    Entries p.diary (p.wake w).diary := by
  have hsame : ({ p with busy := p.busy + 1 }.setPhase w .starting).diary = p.diary :=
    diary_setPhase_self (p := { p with busy := p.busy + 1 }) hw rfl
  have hlook := (h.woken hw).entries_advance
    (workers_setPhase_self (p := { p with busy := p.busy + 1 }) hw .starting)
  rw [advance_setPhase, hsame] at hlook
  exact hlook

/-- A worker that finishes its record notes it and looks for work. -/
theorem Sound.entries_finish (h : p.Sound) {w : Nat} {k : Ticket} {job : Job}
    (hw : p.workers[w]? = some (.executing k job .over)) :
    Entries p.diary (p.finish w k).diary := by
  obtain ⟨r, -, -, he⟩ := h.finish_eq hw
  have hplace := congrArg Diary.post (diary_setPhase hw .starting)
  have hended : (p.ended w k r.detached).diary =
      { p.diary with
        finishes := (w, k.number, r.detached) :: p.diary.finishes
        post := update p.diary.post w (some .free) } :=
    Diary.ext rfl rfl rfl rfl rfl rfl (Queue.next_finished _ _)
      (congrArg (List.map Ticket.number) (Queue.waiting_finished p.queue k)) hplace List.length_set
      rfl rfl rfl
  rw [he]
  exact ((Entry.finish r.detached (post_diary hw)).reaches hended).trans
    ((h.ended hw _).entries_advance (workers_setPhase_self hw .starting))

/-- A submission starts a worker, if it does, and then takes a number, if it is accepted. -/
theorem entries_submit (p : Pool α) (refusal : Option String) (job : Job) :
    Entries p.diary (p.submit refusal job).2.diary := by
  have hgrow : Entries p.diary (p.grow refusal).2.diary := by
    rcases p.grow_cases refusal with ⟨-, hg⟩ | ⟨-, -, hg⟩ | ⟨_, -, -, ⟨-, hg⟩ | ⟨-, hg⟩⟩ <;> rw [hg]
    · have hplace : p.startWorker.diary.post =
          update p.diary.post p.diary.hired (some .free) := by
        funext w
        show p.startWorker.workers[w]?.map Phase.post = _
        rw [workers_startWorker, Function.update_apply]
        show Option.map _ (if w = p.workers.length then _ else _) =
          if w = p.workers.length then _ else _
        split <;> rfl
      exact (Entry.hire (by simp [diary])).reaches
        (Diary.ext rfl rfl rfl rfl rfl rfl rfl rfl hplace (length_startWorker p) rfl rfl rfl)
    · rw [diary_note rfl]
    · rw [diary_note rfl]
  rcases submit_cases p refusal job with ⟨-, he⟩ | ⟨e, -, -, he⟩ | ⟨-, -, he⟩ <;> rw [he]
  · dsimp only
    rw [diary_note rfl]
  · exact hgrow
  · refine hgrow.trans (Entry.take.reaches ?_)
    have hplace : ((p.grow refusal).2.linked job).diary.post = (p.grow refusal).2.diary.post := by
      funext w
      show ((p.grow refusal).2.workers.map Phase.notify)[w]?.map Phase.post = _
      rw [List.getElem?_map, Option.map_map]
      refine Option.map_congr fun phase _ => ?_
      cases phase <;> rfl
    exact Diary.ext rfl rfl rfl rfl rfl rfl rfl rfl hplace (List.length_map Phase.notify)
      rfl rfl rfl

/-- A waiting shutdown notes when it is done. -/
theorem entries_awaitWorkers (hopen : p.standing.isOver = false) :
    Entries p.diary p.awaitWorkers.diary := by
  unfold awaitWorkers
  split
  · exact (Entry.close hopen).reaches (Diary.ext rfl rfl rfl rfl rfl
      (closings_note { p with standing := .stopped } rfl) rfl rfl rfl rfl rfl rfl rfl)
  · have hsame : ({ p with standing := .stopping false } : Pool α).diary = p.diary :=
      Diary.ext rfl rfl rfl rfl rfl rfl rfl rfl rfl rfl rfl rfl hopen.symm
    rw [hsame]

theorem entries_drop (p : Pool α) : Entries p.diary p.drop.diary := by
  unfold Pool.drop
  split
  · next hactive =>
    have hopen : p.standing.isOver = false := by
      rw [beq_iff_eq.mp hactive]
      rfl
    have hsame : p.notifyWorkers.diary = p.diary :=
      diary_congr rfl rfl rfl (post_notify p.workers) rfl rfl rfl
    have hplace : p.notifyWorkers.diary.post = p.diary.post := congrArg Diary.post hsame
    have hhired : p.notifyWorkers.diary.hired = p.diary.hired := congrArg Diary.hired hsame
    exact (Entry.close hopen).reaches (Diary.ext rfl rfl rfl rfl rfl
      (closings_note { p with standing := .dropped }.notifyWorkers rfl) rfl rfl hplace hhired rfl
      rfl rfl)
  · exact .refl

theorem entries_shutdown (hactive : p.isActive = true) :
    Entries p.diary p.shutdown.2.diary := by
  unfold Pool.shutdown
  split
  · have hsame : ({ p with standing := .stopping false }.notifyWorkers).diary = p.diary :=
      diary_congr rfl rfl rfl (post_notify p.workers) rfl rfl
        (by rw [beq_iff_eq.mp hactive]; rfl)
    rw [← hsame]
    exact entries_awaitWorkers rfl
  · dsimp only
    rw [diary_note rfl]

/-- A body that returns leaves a result, which it has then. -/
theorem entries_returnBody {w : Nat} {k : Ticket} {job : Job} {run : Nat}
    (hw : p.workers[w]? = some (.executing k job (.past run))) (v : Value α) :
    Entries p.diary ((p.putResult k v).setPhase w (.executing k job .over)).diary := by
  have hw' : (p.putResult k v).workers[w]? = some (.executing k job (.past run)) := by
    rw [workers_putResult]
    exact hw
  rw [diary_setPhase hw']
  have hgiven : (p.putResult k v).diary.given = update p.diary.given k.number true := by
    funext n
    unfold putResult
    rw [Function.update_apply]
    split
    · next hroom =>
      split
      · next hn => exact hn ▸ hroom
      · rfl
    · show (p.results.insert k.number v).contains n = _
      rw [Std.ExtTreeMap.contains_insert]
      split
      · next hn => simp [hn]
      · next hn =>
        have hne : compare k.number n ≠ .eq := fun heq => hn (Nat.compare_eq_eq.mp heq).symm
        simp only [beq_eq_false_iff_ne.mpr hne, Bool.false_or]
        rfl
  have hrest : (p.putResult k v).diary =
      { p.diary with given := (p.putResult k v).diary.given } := by
    unfold putResult
    split <;> rfl
  refine (Entry.give (post_diary hw)).reaches ?_
  rw [hrest, hgiven]
  rfl

/-- **Every section of a pool is some entries** of its diary. -/
theorem Section.entries (hs : Section p p') (h : p.Sound) : Entries p.diary p'.diary := by
  cases hs with
  | submit hactive refusal job => exact entries_submit p refusal job
  | advance hw => exact h.entries_advance hw
  | wake hw => exact h.entries_wake hw
  | @enterBody w run k job stage hw hs =>
    rw [diary_setPhase_self hw]
    rcases hs with rfl | rfl <;> rfl
  | @panicBody w run k job hw =>
    have hplace := congrArg Diary.post (diary_setPhase hw (.executing k job .over))
    exact (Entry.panic (post_diary hw)).reaches
      (Diary.ext rfl rfl rfl rfl rfl rfl rfl rfl hplace List.length_set rfl rfl rfl)
  | returnBody hw v => exact entries_returnBody hw v
  | finish hw => exact h.entries_finish hw
  | openGate task run =>
    have hsame : ({ p with workers := p.workers.map (Phase.opened task run) } : Pool α).diary =
        p.diary := by
      refine diary_congr rfl rfl rfl ?_ rfl rfl rfl
      rw [List.map_map]
      refine List.map_congr_left fun phase _ => ?_
      rcases phase with _ | _ | ⟨k, job, _ | r | _ | _⟩ | _
      case executing.atGate =>
        simp only [Function.comp_apply, Phase.opened, Stage.opened]
        split <;> rfl
      all_goals rfl
    rw [hsame]
  | join k =>
    have hsame : (p.join k).diary = p.diary :=
      diary_congr rfl (Queue.next_join _ _) (Queue.waiting_update _ _ _) rfl rfl rfl rfl
    rw [hsame]
  | detach k =>
    have hsame : (p.detach k).diary = p.diary :=
      diary_congr rfl (Queue.next_detach _ _) (Queue.waiting_detach _ _) rfl rfl rfl rfl
    rw [hsame]
  | unlink k =>
    rcases p.unlink_cases k with he | he | ⟨f, he⟩ <;> rw [he]
    · have hsame : ({ p with queue := p.queue.unlink k } : Pool α).diary = p.diary :=
        diary_congr rfl (Queue.next_unlink _ _) (Queue.waiting_unlink _ _) rfl rfl rfl rfl
      rw [hsame]
    · exact .refl
  | shutdown hactive => exact entries_shutdown hactive
  | awaitWorkers hwoken =>
    refine entries_awaitWorkers ?_
    cases hs : p.standing <;> simp_all [Standing.isWoken, Standing.isOver]
  | drop => exact entries_drop p

end Pool
end WorkerPool
