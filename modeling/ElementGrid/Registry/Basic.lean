import ElementGrid.Registry.Error
import ElementGrid.Catalog
import ElementGrid.Collection.Build
import ElementGrid.Dispatch
import ElementGrid.Store
/-!
# Registries

A registry holds the instances of one process, a store for each worker thread. Every process numbers
the elements alike and places them by the same rule, so each knows where any element lives without
asking.

## Main definitions

* `Worker` — what belongs to one thread: its store, its random stream and its relaxing instances
* `Registry` — the workers of a process and what is known of all elements
* `Registry.start` — a registry without elements
* `Registry.reset` — releases all elements
* `Change` — what an operation that changes a registry comes to
-/

namespace ElementGrid

/-- What belongs to one worker thread. -/
structure Worker (E : Type) where
  store : Store E := {}
  generator : Generator
  /-- The places of the instances that take part in waveform relaxation. -/
  relaxing : List Nat := []
  /-- The number of elements for which `relaxing` was made, or zero if it has to be made anew. -/
  relaxingSize : Nat := 0
  deriving DecidableEq

/-- The workers of a process and what it knows of all elements. -/
structure Registry (E : Type) where
  config : GridConfig
  catalog : Catalog E
  dispatch : Dispatch := .inTurn
  workers : List (Worker E)
  /-- The elements created so far, a run for each creation. -/
  batches : List Run := []
  nextGid : Nat := Gid.first
  /-- Elements were created since the threads were last brought up to date. -/
  stale : Bool := false
  /-- Some instance takes part in waveform relaxation, as far as was last checked. -/
  relaxationUsed : Bool := false
  /-- The instances that the last preparation left ready and that are not frozen. -/
  activeCount : Nat := 0
  deriving DecidableEq

/-- What an operation comes to: its result, the registry after it, and what was reported. -/
structure Change (E α : Type) where
  result : Except RegistryError α
  registry : Registry E
  events : List Event := []

namespace Registry

variable {E : Type}

/-- Workers without instances, each at the beginning of its stream. -/
def freshWorkers (c : GridConfig) : List (Worker E) :=
  (List.range c.threads).map fun t =>
    { generator := .ofSeed c.seed (c.shape.toIndex ⟨c.rank, t⟩) }

/-- A registry without elements; the configuration is checked. -/
def start (config : GridConfig) (catalog : Catalog E) (dispatch : Dispatch := .inTurn) :
    Except RegistryError (Registry E) := do
  config.check.mapError .config
  return { config, catalog, dispatch, workers := freshWorkers config }

variable (r : Registry E)

/-- The shape of the grid. -/
def shape : GridShape := r.config.shape

/-- How many elements have been created; this is also the greatest number given out. -/
def size : Nat := r.nextGid - 1

/-- How many threads the process has. -/
def threads : Nat := r.workers.length

/-- How many instances the process holds. -/
def localCount : Nat := r.workers.foldr (fun w n => w.store.size + n) 0

/-- The worker of a thread, which has to exist. -/
def worker (thread : Nat) : Except RegistryError (Worker E) :=
  match r.workers[thread]? with
  | some w => .ok w
  | none => .error (.invalidThread thread r.threads)

/-- The creation that gave out a number. -/
def batchOf (gid : Nat) : Except RegistryError Run :=
  if !Gid.isAssignable gid || r.nextGid ≤ gid then .error (.unknownElement gid)
  else
    match r.batches.find? fun b => gid ≤ b.last with
    | some b => .ok b
    | none => .error (.unknownElement gid)

/-- The number of an element's model. -/
def modelOf (gid : Nat) : Except RegistryError Nat := Run.model <$> r.batchOf gid

/-- The model with a number. -/
def model (id : Nat) : Except RegistryError (Model E) :=
  match r.catalog.get? id with
  | some m => .ok m
  | none => .error (.unknownModelId id)

/-- The category of an element's model. -/
def categoryOf (gid : Nat) : Except RegistryError Category := do
  return (← r.model (← r.modelOf gid)).category

/-- The process holds an instance of the element. -/
def isLocal (gid : Nat) : Bool :=
  match r.categoryOf gid with
  | .ok category => r.shape.hosting gid category r.config.rank != .nowhere
  | .error _ => false

/-- Releases all elements; numbers are given out from the first again and the streams begin anew. -/
def reset : Change E Unit where
  result := .ok ()
  registry :=
    { config := r.config, catalog := r.catalog, dispatch := r.dispatch,
      workers := freshWorkers r.config }
  events := [.localNodes 0]

end Registry

end ElementGrid
