import ElementGrid.Text.Inspect
/-!
# Dispatch

A sweep gives each partition of a process to a worker and waits for all of them. Results come back in
partition order, whichever worker was first.

## Main definitions

* `PoolConfig` — the size of a worker pool, with its check
* `Dispatch` — one partition after the other, or by a pool
* `Dispatch.mapPartitions`, `Dispatch.updatePartitions` — reading and changing sweeps

## Design notes

Workers share nothing, so a pool gives what running the partitions in turn gives, and one definition
serves both.
-/

namespace ElementGrid

/-- The size of a worker pool. -/
structure PoolConfig where
  workers : Nat
  /-- The bytes of stack for each worker. -/
  stackSize : Nat := 4 * 1024 * 1024
  deriving DecidableEq, Repr

/-- Why a pool is refused. -/
inductive PoolError where
  | noWorkers
  | stackTooSmall (bytes : Nat)
  deriving DecidableEq, Repr

/-- The wording of a refused pool. -/
def PoolError.message (e : PoolError) : String :=
  "Invalid configuration: " ++
    match e with
    | .noWorkers => "worker_threads must be at least 1"
    | .stackTooSmall bytes => s!"stack_size of {bytes} bytes is below the 64KiB minimum"

namespace PoolConfig

/-- The least stack of a worker. -/
def minStack : Nat := 64 * 1024

/-- A pool has a worker, and its workers have room. -/
def check (c : PoolConfig) : Except PoolError Unit :=
  if c.workers = 0 then .error .noWorkers
  else if c.stackSize < minStack then .error (.stackTooSmall c.stackSize)
  else .ok ()

/-- The pool as it is shown. -/
def inspect (c : PoolConfig) : String :=
  Inspect.record "ThreadPoolConfig"
    [("worker_threads", toString c.workers), ("stack_size", toString c.stackSize)] true

end PoolConfig

/-- How the partitions of a process are worked on. -/
inductive Dispatch where
  /-- In turn, by the caller. -/
  | inTurn
  /-- By the workers of a pool. -/
  | pooled (config : PoolConfig)
  deriving DecidableEq, Repr

namespace Dispatch

/-- A pool of checked size. -/
def ofPool (config : PoolConfig) : Except PoolError Dispatch := do
  config.check
  return .pooled config

variable (d : Dispatch)

/-- How many partitions are worked on at a time. -/
def parallelism : Nat :=
  match d with
  | inTurn => 1
  | pooled c => c.workers

/-- How many sweeps are under way; a sweep is over before its caller goes on. -/
def sweepsInFlight : Nat := 0

/-- The results of a reading sweep, in partition order. -/
def mapPartitions (_ : Dispatch) (f : Nat → α → β) (partitions : List α) : List β :=
  partitions.mapIdx f

/-- The results of a changing sweep and the changed partitions, in partition order. -/
def updatePartitions (_ : Dispatch) (f : Nat → α → β × α) (partitions : List α) :
    List β × List α :=
  let swept := partitions.mapIdx f
  (swept.map Prod.fst, swept.map Prod.snd)

/-- A pool as it is shown. -/
def inspect : String :=
  match d with
  | inTurn => "SyncDispatch"
  | pooled c =>
    Inspect.record "PooledDispatch"
      [("config", c.inspect), ("sweeps_in_flight", toString sweepsInFlight)] true

end Dispatch

end ElementGrid
