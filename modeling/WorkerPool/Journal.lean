/-
# The journal

What a pool or a task does is noted: a pool notes the life of its workers and of its
submissions, a task notes a refused release and its detachment.  A note has a level, a message and
fields; `render` writes it on one line, with the fields in a fixed order and their values
unquoted.  Notes of a pool begin their fields with the name of the pool.
-/

namespace WorkerPool

/-- How much a note matters. -/
inductive Level where
  | trace
  | debug
  | info
  | warn
  | error
deriving DecidableEq, Repr

/-- The level as it is written. -/
def Level.text : Level → String
  | trace => "TRACE"
  | debug => "DEBUG"
  | info => "INFO"
  | warn => "WARN"
  | error => "ERROR"

/-- One line: level, message, and `name=value` for each field. -/
def noteLine (level : Level) (message : String) (fields : List (String × String)) : String :=
  " ".intercalate (level.text :: message :: fields.map fun (name, value) => name ++ "=" ++ value)

/-- What a pool notes. -/
inductive PoolNote where
  /-- A worker was started; `threads` counts it. -/
  | spawnedWorker (worker threads : Nat)
  /-- A further worker could not be started. -/
  | extraWorkerRefused (cause : String)
  /-- The first worker could not be started. -/
  | firstWorkerRefused (cause : String)
  | queueFull (limit : Nat)
  | submitted (submission : Nat)
  | claimed (worker submission : Nat)
  | finished (worker submission : Nat) (unlinked : Bool)
  | panicked (worker submission : Nat)
  | workerExited (worker : Nat)
  | shutdownRefused (pending : Nat)
  | shutDown
  /-- The pool was dropped without a shutdown. -/
  | closed (pending : Nat)
deriving DecidableEq, Repr

namespace PoolNote

def level : PoolNote → Level
  | spawnedWorker .. => .debug
  | extraWorkerRefused _ => .warn
  | firstWorkerRefused _ => .error
  | queueFull _ => .warn
  | submitted _ => .debug
  | claimed .. => .trace
  | finished .. => .trace
  | panicked .. => .error
  | workerExited _ => .debug
  | shutdownRefused _ => .warn
  | shutDown => .info
  | closed _ => .debug

def message : PoolNote → String
  | spawnedWorker .. => "spawned worker"
  | extraWorkerRefused _ => "failed to spawn an extra worker"
  | firstWorkerRefused _ => "failed to spawn the first worker"
  | queueFull _ => "task queue is full"
  | submitted _ => "task submitted"
  | claimed .. => "claimed"
  | finished .. => "finished"
  | panicked .. => "task panicked"
  | workerExited _ => "worker exited"
  | shutdownRefused _ => "shutdown refused"
  | shutDown => "pool shut down"
  | closed _ => "pool closed"

/-- The fields after the name of the pool. -/
def fields : PoolNote → List (String × String)
  | spawnedWorker worker threads => [("worker", toString worker), ("threads", toString threads)]
  | extraWorkerRefused cause => [("err", cause)]
  | firstWorkerRefused cause => [("err", cause)]
  | queueFull limit => [("limit", toString limit)]
  | submitted submission => [("submission", toString submission)]
  | claimed worker submission =>
    [("worker", toString worker), ("submission", toString submission)]
  | finished worker submission unlinked =>
    [("worker", toString worker), ("submission", toString submission),
      ("unlinked", toString unlinked)]
  | panicked worker submission =>
    [("worker", toString worker), ("submission", toString submission)]
  | workerExited worker => [("worker", toString worker)]
  | shutdownRefused pending => [("pending", toString pending)]
  | shutDown => []
  | closed pending => [("pending", toString pending)]

/-- The line of a note of the pool named `pool`. -/
def render (n : PoolNote) (pool : String) : String :=
  noteLine n.level n.message (("pool", pool) :: n.fields)

end PoolNote

/-- What a task notes. -/
inductive TaskNote where
  | releaseRefused (submissions : Nat)
  | detaching (submissions : Nat)
deriving DecidableEq, Repr

/-- The line of a note of a task. -/
def TaskNote.render : TaskNote → String
  | releaseRefused submissions =>
    noteLine .warn "task release refused" [("submissions", toString submissions)]
  | detaching submissions =>
    noteLine .debug "detaching task" [("submissions", toString submissions)]

end WorkerPool
