import ElementGrid.Registry.Lookup
/-!
# Reading and writing properties

The status of an element is what it shows itself together with what the registry knows of it. Properties
are written to all instances of an element on this process at once: each is tried on a copy, and only
if every copy takes every property do the copies take effect.

## Main definitions

* `StatusKey` — the names under which the registry shows what it knows
* `Registry.status` — the status of an element
* `Registry.stage` — the copy of an instance that has taken the properties
* `Registry.write` — writes properties
-/

namespace ElementGrid

namespace StatusKey

/-- The number of the element. -/
def globalId : String := "global_id"

/-- The name of its model. -/
def model : String := "model"

/-- The linear number of its virtual process. -/
def vp : String := "vp"

/-- Its thread. -/
def thread : String := "thread"

/-- Whether the instance is on this process. -/
def isLocal : String := "local"

/-- Whether it is frozen. -/
def frozen : String := "frozen"

/-- The names that are shown but never taken. -/
def readOnly : List String := [globalId, model, vp, thread, isLocal]

end StatusKey

namespace Registry

variable {E : Type} [Element E] (r : Registry E)

/-- What the registry knows of an element, added to a status. -/
def addKnown (gid : Nat) (modelName : String) (vp : Vp) (isLocal frozen : Bool) (m : PropertyMap) :
    PropertyMap :=
  m.insertAll
    [(StatusKey.globalId, .int (Word.toSigned gid)), (StatusKey.model, .string modelName),
      (StatusKey.vp, .int (Word.toSigned (r.shape.toIndex vp))),
      (StatusKey.thread, .int (Word.toSigned vp.thread)), (StatusKey.isLocal, .bool isLocal),
      (StatusKey.frozen, .bool frozen)]

/-- The status of an element as it is found by `get`. A proxy shows only what the registry knows. -/
def status (gid : Nat) (thread : Option Nat) : Except RegistryError PropertyMap := do
  match ← r.get gid thread with
  | .present n =>
    let m ← r.model n.model
    return r.addKnown gid m.name n.vp true n.frozen (Element.status n.element .empty)
  | .absent p =>
    let m ← r.model p.model
    return r.addKnown gid m.name p.home false false .empty

/-- A structural property is not written to an instance that runs or has run. -/
def checkMutability (n : Node E) (props : PropertyMap) : Except RegistryError Unit :=
  if n.state.allowsStructural then .ok ()
  else
    match props.keys.find? fun key =>
        key != StatusKey.frozen && Element.mutability n.element key == .structural with
    | some key => .error (.illegalWrite n.gid key n.state)
    | none => .ok ()

/-- The element of an instance after it has taken the properties, all of which it has to ask for. -/
def stage (props : PropertyMap) (n : Node E) : Except RegistryError E := do
  checkMutability n props
  let reader := (PropertyReader.ofMap props).markConsumed StatusKey.frozen
  let (taken, (element, reader)) := Element.write.run.run (n.element, reader)
  taken.mapError .property
  reader.finish.mapError .property
  return element

/-- The staged elements of each thread; a thread without an instance has none. -/
def stageAll (gid : Nat) (props : PropertyMap) : Except RegistryError (List (Option E)) :=
  r.workers.mapM fun w =>
    match w.store.find? gid with
    | none => .ok none
    | some n => some <$> stage props n

/-- An instance with its staged element and, if it is given, its new frozen flag. -/
def commitNode (frozen : Option Bool) (element : E) (n : Node E) : Node E :=
  { n with element, frozen := frozen.getD n.frozen }

/-- A worker with the staged element in place. -/
def commitWorker (gid : Nat) (frozen : Option Bool) (staged : Option E) (w : Worker E) : Worker E :=
  match staged with
  | none => w
  | some e => { w with store := w.store.modify gid (commitNode frozen e) }

/-- The registry with all staged elements in place. If a frozen flag was given, every thread has to
make its list of relaxing instances anew. -/
def commit (gid : Nat) (frozen : Option Bool) (staged : List (Option E)) : Registry E :=
  let workers := List.zipWith (commitWorker gid frozen) staged r.workers
  { r with
    workers :=
      if frozen.isSome then workers.map fun w => { w with relaxingSize := 0 } else workers }

/-- What `write` is about to do: the frozen flag, if it is given, and the staged elements. -/
def plan (gid : Nat) (props : PropertyMap) :
    Except RegistryError (Option Bool × List (Option E)) := do
  let _ ← r.modelOf gid
  if let some key := StatusKey.readOnly.find? props.contains then
    throw (.property (.badProperty s!"'{key}' is read-only"))
  let frozen ← ((PropertyReader.ofMap props).bool StatusKey.frozen).1.mapError .property
  return (frozen, ← r.stageAll gid props)

/-- Writes properties to all instances of an element on this process, or to none. -/
def write (gid : Nat) (props : PropertyMap) : Change E Unit :=
  match r.plan gid props with
  | .error e => ⟨.error e, r, []⟩
  | .ok (frozen, staged) =>
    ⟨.ok (), if staged.all Option.isNone then r else r.commit gid frozen staged, []⟩

end Registry

end ElementGrid
