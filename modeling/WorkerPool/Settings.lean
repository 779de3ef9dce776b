/-
# Settings of a pool

`Settings` is what a caller may ask for; whatever is left out has a default.  `Settings.plan`
checks it and gives a `Plan`, which carries the bounds as proof fields: no pool exists
with a capacity or a queue limit outside them.  The thread count is checked first, then the limit,
then the name, and the first fault found is the one reported.
-/
import WorkerPool.Failure

namespace WorkerPool

/-- The most workers a pool may have. -/
def maxThreads : Nat := 20

/-- The most records that may occupy the queue of a pool. -/
def maxTasks : Nat := 100000

/-- The name of a pool that was given none. -/
def defaultName : String := "tasket"

/-- What happens when a body panics, besides its record finishing without a result. -/
inductive Handler where
  /-- The panic is reported. -/
  | reports
  /-- The panic is reported, and then the handler panics itself. -/
  | reportsThenPanics
deriving DecidableEq, Repr

/-- What a caller asks for. -/
structure Settings where
  threads : Option Nat := none
  limit : Option Nat := none
  name : Option String := none
  handler : Option Handler := none
deriving DecidableEq, Repr

/-- Settings that were found to be possible. -/
structure Plan where
  name : String
  capacity : Nat
  limit : Nat
  handler : Option Handler
  capacity_pos : 0 < capacity
  capacity_le : capacity ≤ maxThreads
  limit_pos : 0 < limit
  limit_le : limit ≤ maxTasks

/-- A fault of some settings. -/
inductive SettingsFault where
  | threads (asked : Nat)
  | limit (asked : Nat)
  | nullInName
deriving DecidableEq, Repr

/-- The fault in words. -/
def SettingsFault.message : SettingsFault → String
  | threads asked =>
    "thread count must be in 1..=" ++ toString maxThreads ++ ", got " ++ toString asked
  | limit asked =>
    "queue limit must be in 1..=" ++ toString maxTasks ++ ", got " ++ toString asked
  | nullInName => "pool name must not contain null bytes"

/-- The number of threads for a machine with so many processors. -/
def defaultThreads (processors : Nat) : Nat := max 1 (min processors maxThreads)

/-- Checks the settings, on a machine with `processors` processors. -/
def Settings.plan (s : Settings) (processors : Nat) : Except SettingsFault Plan :=
  let threads := s.threads.getD (defaultThreads processors)
  let limit := s.limit.getD maxTasks
  let name := s.name.getD defaultName
  if ht : 0 < threads ∧ threads ≤ maxThreads then
    if hl : 0 < limit ∧ limit ≤ maxTasks then
      if name.toList.contains '\x00' then
        .error .nullInName
      else
        .ok { name, capacity := threads, limit, handler := s.handler
              capacity_pos := ht.1, capacity_le := ht.2, limit_pos := hl.1, limit_le := hl.2 }
    else .error (.limit limit)
  else .error (.threads threads)

/-- The error that reports a fault. -/
def SettingsFault.toFailure (f : SettingsFault) : Failure := .invalidArgument f.message

end WorkerPool
