import ElementGrid.Registry.Basic
/-!
# Finding elements

An element is found by its number, on a given thread or where it answers for itself, or by its place on
a thread.

## Main definitions

* `Registry.get` — the instance of an element, or a proxy
* `Registry.getStops` — a look-up that comes to no answer
* `Registry.localNode`, `Registry.modifyLocal` — the instance on a thread
* `Registry.siblings` — all instances of a replicated element on this process
* `Registry.nodeAt` — the instance at a place
-/

namespace ElementGrid.Registry

variable {E : Type} (r : Registry E)

/-- The instance of an element, or a proxy if it is not there: on the thread asked for, or else on the
virtual process that answers for the element. -/
def get (gid : Nat) (thread : Option Nat) : Except RegistryError (Slot E) := do
  let id ← r.modelOf gid
  let m ← r.model id
  let home := r.shape.home gid m.category
  let proxy := Slot.absent ⟨gid, id, home⟩
  let inWorker (w : Worker E) : Slot E := ((w.store.find? gid).map Slot.present).getD proxy
  match thread with
  | some t => return inWorker (← r.worker t)
  | none =>
    if home.rank = r.config.rank then return inWorker (← r.worker home.thread)
    else return proxy

/-- Looking for an element, on whatever thread, asks first who answers for it. If the rule does not tell,
the process stops. -/
def getStops (gid : Nat) : Bool :=
  match r.categoryOf gid with
  | .ok category => !r.shape.tellsHome category
  | .error _ => false

/-- The instance of an element on a thread. -/
def localNode (gid thread : Nat) : Except RegistryError (Node E) := do
  let _ ← r.modelOf gid
  let w ← r.worker thread
  match w.store.find? gid with
  | some n => return n
  | none => throw (.notLocal gid thread)

/-- The registry with the worker of a thread changed. -/
def modifyWorker (thread : Nat) (f : Worker E → Worker E) : Registry E :=
  { r with workers := r.workers.modify thread f }

/-- Works on the instance of an element on a thread, which has to be there. -/
def modifyLocal {α : Type} (gid thread : Nat) (f : Node E → α × Node E) : Change E α :=
  match r.localNode gid thread with
  | .error e => ⟨.error e, r, []⟩
  | .ok n =>
    let (a, n') := f n
    ⟨.ok a, r.modifyWorker thread fun w => { w with store := w.store.modify gid fun _ => n' }, []⟩

/-- The instance of an element on a thread begins to step, if it is ready to. -/
def activate (gid thread : Nat) : Change E Bool := r.modifyLocal gid thread Node.activate

/-- The instances of a replicated element on this process, by thread. -/
def siblings (gid : Nat) : Except RegistryError (List (Node E)) := do
  if (← r.categoryOf gid) ≠ .device then throw (.notReplicated gid)
  return r.workers.filterMap fun w => w.store.find? gid

/-- The instances on a thread, by place. -/
def localNodes (thread : Nat) : Except RegistryError (List (Node E)) :=
  (fun w => w.store.nodes) <$> r.worker thread

/-- The instance at a place of a thread. Places are trusted only when the threads are up to date. -/
def nodeAt (thread localId : Nat) : Except RegistryError (Node E) := do
  if r.stale then throw .staleLocalIds
  let w ← r.worker thread
  match w.store.get? localId with
  | some n => return n
  | none => throw (.outOfRange localId w.store.size)

/-- The greatest number that a thread knows of. -/
def maxGid (thread : Nat) : Except RegistryError Nat :=
  (fun w => w.store.maxGid) <$> r.worker thread

end ElementGrid.Registry
