import ElementGrid.Registry.Basic
/-!
# Creating elements

A creation gives out consecutive numbers to elements of one model. Each process makes the instances
that the placement rule assigns to its threads.

## Main definitions

* `Registry.create`, `Registry.createById` — create elements of a model
* `Registry.populate` — the instances that go to one thread
* `Registry.createStops`, `Registry.createByIdStops` — a creation that comes to no answer
-/

namespace ElementGrid.Registry

variable {E : Type} (r : Registry E)

/-- The new instance of an element on a thread. -/
def newNode (m : Model E) (thread gid : Nat) : Node E where
  gid
  model := m.id
  category := m.category
  vp := ⟨r.config.rank, thread⟩
  element := m.prototype

/-- The worker of a thread with the instances of those elements of a run that live there. -/
def populate (m : Model E) (batch : Run) (thread : Nat) (w : Worker E) : Worker E :=
  let here := batch.gids.filter fun gid => r.shape.hosts gid m.category ⟨r.config.rank, thread⟩
  { w with store := w.store.appendAll (here.map (r.newNode m thread)) }

/-- The registry with the elements of a run of one model. -/
def withBatch (m : Model E) (batch : Run) : Registry E :=
  { r with
    workers := r.workers.mapIdx (r.populate m batch)
    batches := r.batches ++ [batch]
    nextGid := batch.last + 1
    stale := true }

/-- Creates elements of the model with number `id`. Nothing is done if there is no such model, if no
element is asked for, or if there are not enough numbers left. -/
def createById (id count : Nat) : Change E Collection :=
  match r.catalog.get? id with
  | none => ⟨.error (.unknownModelId id), r, []⟩
  | some m =>
    if count = 0 ∨ ¬ Word.Fits (r.nextGid + count) then ⟨.error (.invalidCount count), r, []⟩
    else
      let batch := Run.ofCount r.nextGid count id
      let r' := r.withBatch m batch
      ⟨.ok (.ofRun batch), r', [.created m.name count, .localNodes r'.localCount]⟩

/-- Creates elements of the model called `name`. -/
def create (name : String) (count : Nat) : Change E Collection :=
  match r.catalog.lookup? name with
  | none => ⟨.error (.unknownModel name), r, []⟩
  | some id => r.createById id count

/-- A creation by number comes to an element for which the rule has no place, and stops the process. -/
def createByIdStops (id count : Nat) : Bool :=
  match r.catalog.get? id with
  | none => false
  | some m => count != 0 && Word.Fits (r.nextGid + count) && !r.shape.tellsPlace m.category

/-- A creation by name comes to an element for which the rule has no place, and stops the process. -/
def createStops (name : String) (count : Nat) : Bool :=
  match r.catalog.lookup? name with
  | none => false
  | some id => r.createByIdStops id count

end ElementGrid.Registry
