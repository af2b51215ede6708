import ElementGrid.Exchange.Session
import ElementGrid.Registry.Create
import ElementGrid.Registry.Lookup
import ElementGrid.Registry.Relaxation
/-!
# Clusters

All processes of a grid side by side, with the group through which they exchange. A cluster can answer
what no single process can: on which virtual processes an element has instances.

## Main definitions

* `Cluster` — the registries of a grid and their group
* `Cluster.create` — one creation on every process
* `Cluster.owners`, `Cluster.siblings` — the instances of an element in the whole grid
* `Cluster.run` — a program on every process at once
-/

namespace ElementGrid

/-- The registries of a grid by rank, and their group. -/
structure Cluster (E : Type) where
  registries : List (Registry E)
  group : Group

/-- Why a creation on a cluster fails. -/
inductive ClusterError where
  /-- A process refuses. -/
  | registry (error : RegistryError)
  /-- The processes gave out different numbers. -/
  | disagreement

/-- What a creation on a cluster comes to. -/
structure ClusterChange (E α : Type) where
  result : Except ClusterError α
  cluster : Cluster E
  events : List Event := []

namespace Cluster

variable {E : Type}

/-- A cluster without elements. -/
def start (processes threads : Nat) (catalog : Catalog E) : Except RegistryError (Cluster E) := do
  let config : GridConfig := { processes, threads }
  config.check.mapError .config
  let registries ← (List.range processes).mapM fun rank =>
    Registry.start (config.forRank rank) catalog
  return ⟨registries, .ofSize processes⟩

variable (c : Cluster E)

/-- How many processes there are. -/
def processes : Nat := c.registries.length

/-- How many threads each process has. -/
def threads : Nat := (c.registries.head?.map fun r => r.config.threads).getD 0

/-- The shape of the grid. -/
def shape : GridShape := ⟨c.processes, c.threads⟩

/-- The cluster as it is shown. -/
def inspect : String :=
  Inspect.record "SimulatedGrid"
    [("processes", toString c.processes), ("threads", toString c.threads)] true

/-- One creation on each of a list of registries in turn, up to the first that refuses. -/
def createEach (name : String) (count : Nat) :
    List (Registry E) → List (Registry E) × Except RegistryError (List Collection) × List Event
  | [] => ([], .ok [], [])
  | r :: rs =>
    let change := r.create name count
    match change.result with
    | .error e => (change.registry :: rs, .error e, change.events)
    | .ok made =>
      let (rs', rest, events) := createEach name count rs
      (change.registry :: rs', (made :: ·) <$> rest, change.events ++ events)

/-- The collection that all processes made. -/
def agreed : List Collection → Except ClusterError Collection
  | [] => .error .disagreement
  | made :: rest => if rest.all (· == made) then .ok made else .error .disagreement

/-- One creation on every process in rank order, up to the first that refuses. -/
def create (name : String) (count : Nat) : ClusterChange E Collection :=
  let (registries, made, events) := createEach name count c.registries
  ⟨made.mapError .registry >>= agreed, { c with registries }, events⟩

/-- Brings all threads of all processes up to date. -/
def ensureLocalIds [Element E] : Cluster E × List Event :=
  let changes := c.registries.map Registry.ensureLocalIds
  ({ c with registries := changes.map Change.registry }, changes.flatMap Change.events)

/-- The virtual processes on which a process has instances of an element. -/
def ownersOn (gid : Nat) (r : Registry E) : List Vp :=
  (List.range r.threads).filterMap fun t =>
    (r.get gid (some t)).toOption.bind fun slot => slot.node?.map Node.vp

/-- The virtual processes on which an element has instances, in linear order. -/
def owners (gid : Nat) : List Vp :=
  (c.registries.flatMap (ownersOn gid)).mergeSort fun a b => c.shape.toIndex a ≤ c.shape.toIndex b

/-- All instances of a replicated element, in the linear order of their virtual processes. -/
def siblings (gid : Nat) : Except RegistryError (List (Node E)) := do
  let found ← c.registries.mapM fun r => r.siblings gid
  return found.flatten.mergeSort fun a b => c.shape.toIndex a.vp ≤ c.shape.toIndex b.vp

/-- The cluster after work on the registry of one rank, and what it comes to. -/
def onRank {α : Type} (rank : Nat) (f : Registry E → α × Registry E) : Option (α × Cluster E) := do
  let r ← c.registries[rank]?
  let (a, r') := f r
  return (a, { c with registries := c.registries.set rank r' })

/-- A program on every process at once, in so many rotations. There is no result unless all processes
come to an end by then. -/
def run {α : Type} (rotations : Nat) (program : Registry E → Exchange (α × Registry E)) :
    Option (List α × Cluster E) := do
  let session := (Session.ofPrograms c.group (c.registries.map program)).settle rotations
  let outcomes ← session.results?
  return (outcomes.map Prod.fst, ⟨outcomes.map Prod.snd, session.group⟩)

end Cluster

end ElementGrid
