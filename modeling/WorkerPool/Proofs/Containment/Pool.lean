/-
# A pool that has lost a result

A body that panics leaves no result.  Apart from the body itself, which writes it, and the joins,
which read it, nothing has to do with the results of a pool (`Heedless`); so a pool that has lost
the result of one submission goes on like the pool that has it, and answers all that it is asked in
the same way.
-/
import WorkerPool.Proofs.Lockstep.Pool

namespace WorkerPool
namespace Pool

variable {α : Type} {p : Pool α} {f g : Pool α → Pool α}

/-- The pool, if these are the results that it has. -/
def withResults (p : Pool α) (results : Std.ExtTreeMap Nat (Value α)) : Pool α :=
  { p with results }

/-- The pool without the result of a submission, if one is named. -/
def without (p : Pool α) : Option Nat → Pool α
  | none => p
  | some n => p.withResults (p.results.erase n)

@[simp] theorem queue_withResults (p : Pool α) (results : Std.ExtTreeMap Nat (Value α)) :
    (p.withResults results).queue = p.queue := rfl

@[simp] theorem isActive_withResults (p : Pool α) (results : Std.ExtTreeMap Nat (Value α)) :
    (p.withResults results).isActive = p.isActive := rfl

@[simp] theorem wantsWorker_withResults (p : Pool α) (results : Std.ExtTreeMap Nat (Value α)) :
    (p.withResults results).wantsWorker = p.wantsWorker := rfl

/-- What has nothing to do with results. -/
def Heedless (f : Pool α → Pool α) : Prop :=
  ∀ p results, f (withResults p results) = (f p).withResults results

theorem Heedless.results_eq (hf : Heedless f) (p : Pool α) : (f p).results = p.results := by
  have hsame : f p = (f p).withResults p.results := hf p p.results
  rw [hsame]
  rfl

theorem Heedless.without (hf : Heedless f) (p : Pool α) (n? : Option Nat) :
    f (p.without n?) = (f p).without n? := by
  cases n? with
  | none => rfl
  | some n =>
    show f (p.withResults (p.results.erase n)) = (f p).withResults ((f p).results.erase n)
    rw [hf, hf.results_eq]

theorem Heedless.comp (hf : Heedless f) (hg : Heedless g) : Heedless fun p : Pool α => f (g p) :=
  fun p results => (congrArg f (hg p results)).trans (hf (g p) results)

/-! ## 1. Sections that have nothing to do with results -/

theorem heedless_setPhase (w : Nat) (phase : Phase) :
    Heedless fun p : Pool α => p.setPhase w phase := fun _ _ => rfl

theorem heedless_note (n : PoolNote) : Heedless fun p : Pool α => p.note n := fun _ _ => rfl

theorem heedless_join (k : Ticket) : Heedless fun p : Pool α => p.join k := fun _ _ => rfl

theorem heedless_detach (k : Ticket) : Heedless fun p : Pool α => p.detach k := fun _ _ => rfl

theorem heedless_mapWorkers (f : Phase → Phase) :
    Heedless fun p : Pool α => { p with workers := p.workers.map f } := fun _ _ => rfl

theorem heedless_unlink (k : Ticket) : Heedless fun p : Pool α => p.unlink k := by
  intro p results
  show (p.withResults results).unlink k = (p.unlink k).withResults results
  unfold unlink
  rw [queue_withResults]
  rcases p.queue.remove k with ⟨_ | _, _⟩ <;> rfl

theorem heedless_advance (w : Nat) : Heedless fun p : Pool α => p.advance w := by
  intro p results
  show (p.withResults results).advance w = (p.advance w).withResults results
  unfold advance
  rw [queue_withResults]
  rcases p.queue.claim with ⟨_ | _ | _, u⟩
  · rfl
  · show (if p.isActive then _ else _) = withResults (if p.isActive then _ else _) results
    cases p.isActive <;> rfl
  · rfl

theorem heedless_wake (w : Nat) : Heedless fun p : Pool α => p.wake w :=
  fun p results => heedless_advance w { p with busy := p.busy + 1 } results

theorem heedless_finish (w : Nat) (k : Ticket) : Heedless fun p : Pool α => p.finish w k := by
  intro p results
  show (p.withResults results).finish w k = (p.finish w k).withResults results
  unfold finish
  rw [queue_withResults]
  rcases p.queue.finish k with ⟨_ | unlinked, u⟩
  · rfl
  · exact heedless_advance w ({ p with queue := u }.note (.finished w k.number unlinked)) results

theorem heedless_awaitWorkers : Heedless (awaitWorkers (α := α)) := by
  intro p results
  unfold awaitWorkers
  by_cases h : p.threads = 0
  · rw [if_pos h, if_pos (show (p.withResults results).threads = 0 from h)]
    rfl
  · rw [if_neg h, if_neg (show ¬(p.withResults results).threads = 0 from h)]
    rfl

theorem heedless_drop : Heedless (drop (α := α)) := by
  intro p results
  unfold drop
  rw [isActive_withResults]
  cases p.isActive <;> rfl

/-- A shutdown answers the same, whatever results there are. -/
theorem shutdown_withResults (p : Pool α) (results : Std.ExtTreeMap Nat (Value α)) :
    (p.withResults results).shutdown = (p.shutdown.1, p.shutdown.2.withResults results) := by
  unfold shutdown
  rw [queue_withResults]
  cases p.queue.isEmpty with
  | true =>
    let told : Pool α := { p with standing := .stopping false }.notifyWorkers
    exact Prod.ext rfl (heedless_awaitWorkers told results)
  | false => rfl

theorem grow_withResults (p : Pool α) (results : Std.ExtTreeMap Nat (Value α))
    (refusal : Option String) :
    (p.withResults results).grow refusal =
      ((p.grow refusal).1, (p.grow refusal).2.withResults results) := by
  unfold grow
  rw [wantsWorker_withResults]
  cases p.wantsWorker with
  | false => rfl
  | true =>
    cases refusal with
    | none => rfl
    | some cause =>
      by_cases h : 0 < p.threads
      · simp only [if_true, if_pos h, if_pos (show 0 < (p.withResults results).threads from h)]
        rfl
      · simp only [if_true, if_neg h, if_neg (show ¬0 < (p.withResults results).threads from h)]
        rfl

/-- A submission answers the same, whatever results there are. -/
theorem submit_withResults (p : Pool α) (results : Std.ExtTreeMap Nat (Value α))
    (refusal : Option String) (job : Job) :
    (p.withResults results).submit refusal job =
      ((p.submit refusal job).1, (p.submit refusal job).2.withResults results) := by
  unfold submit
  rw [queue_withResults, grow_withResults]
  cases p.queue.isFull with
  | true => rfl
  | false =>
    obtain ⟨_ | e, grown⟩ := p.grow refusal
    · simp only [queue_withResults]
      rcases grown.queue.push job with ⟨_ | _, _⟩ <;> rfl
    · rfl

/-- What answers the same, whatever results there are, does so when one is lost. -/
theorem reply_without {β : Type} {f : Pool α → β × Pool α}
    (hf : ∀ p results, f (withResults p results) = ((f p).1, (f p).2.withResults results))
    (p : Pool α) (n? : Option Nat) : f (p.without n?) = ((f p).1, (f p).2.without n?) := by
  cases n? with
  | none => rfl
  | some n =>
    have hsame : (f p).2.results = p.results :=
      congrArg (fun r : β × Pool α => r.2.results) (hf p p.results)
    show f (p.withResults (p.results.erase n)) =
      ((f p).1, (f p).2.withResults ((f p).2.results.erase n))
    rw [hf, hsame]

/-! ## 2. What has to do with results -/

/-- A submission whose result is lost answers that its body panicked, as if it had. -/
theorem outcome_without (p : Pool α) (n? : Option Nat) (k : Ticket) :
    (p.without n?).outcome k =
      if n? = some k.number then .error .taskPanicked else p.outcome k := by
  cases n? with
  | none => rfl
  | some n =>
    have hresult : (p.without (some n)).results[k.number]? =
        if n = k.number then none else p.results[k.number]? := by
      show (p.results.erase n)[k.number]? = _
      simp only [Std.ExtTreeMap.getElem?_erase, Nat.compare_eq_eq]
    unfold outcome
    rw [hresult]
    by_cases hn : n = k.number
    · rw [if_pos hn, if_pos (congrArg some hn)]
    · rw [if_neg hn, if_neg fun he => hn (Option.some.inj he)]

/-- A result that is left while another one is lost. -/
theorem putResult_without (p : Pool α) {n? : Option Nat} {k : Ticket} (hk : n? ≠ some k.number)
    (v : Value α) : (p.without n?).putResult k v = (p.putResult k v).without n? := by
  cases n? with
  | none => rfl
  | some n =>
    have hne : n ≠ k.number := fun h => hk (congrArg some h)
    have hcontains : (p.results.erase n).contains k.number = p.results.contains k.number := by
      rw [Std.ExtTreeMap.contains_erase]
      simp [hne]
    have hputs (p : Pool α) : p.putResult k v = if p.results.contains k.number
        then p.fault .resultWrittenTwice else p.withResults (p.results.insert k.number v) := rfl
    rw [hputs, hputs, show (p.without (some n)).results = p.results.erase n from rfl, hcontains]
    split
    · rfl
    · refine congrArg p.withResults ?_
      show (p.results.erase n).insert k.number v = (p.results.insert k.number v).erase n
      refine Std.ExtTreeMap.ext_getElem? fun c => ?_
      simp only [Std.ExtTreeMap.getElem?_insert, Std.ExtTreeMap.getElem?_erase, Nat.compare_eq_eq]
      by_cases hc : k.number = c
      · rw [if_pos hc, if_neg (hc ▸ hne), if_pos hc]
      · rw [if_neg hc, if_neg hc]

/-- A result that is lost as it is left. -/
theorem putResult_without_self (p : Pool α) {k : Ticket} (hk : p.results[k.number]? = none)
    (v : Value α) : (p.putResult k v).without (some k.number) = p := by
  have hnot : p.results.contains k.number = false := by
    rw [Std.ExtTreeMap.contains_eq_isSome_getElem?, hk]
    rfl
  have hput : p.putResult k v = p.withResults (p.results.insert k.number v) := by
    rw [putResult, hnot]
    rfl
  have hresults : (p.results.insert k.number v).erase k.number = p.results := by
    refine Std.ExtTreeMap.ext_getElem? fun c => ?_
    simp only [Std.ExtTreeMap.getElem?_insert, Std.ExtTreeMap.getElem?_erase, Nat.compare_eq_eq]
    by_cases hc : k.number = c
    · rw [if_pos hc, ← hc, hk]
    · rw [if_neg hc, if_neg hc]
  rw [hput]
  show p.withResults ((p.results.insert k.number v).erase k.number) = p
  rw [hresults]
  rfl

end Pool
end WorkerPool
