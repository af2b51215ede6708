import ElementGrid.Registry.Basic
import ElementGrid.View.Gather
/-!
# Records of a process

What a process contributes to a view is read from its instances by an accessor. Replicas of one element
that say the same speak once; replicas that disagree all speak, so the view shows the conflict.

## Main definitions

* `Registry.localRecords` — the records of the instances of a process
* `Registry.gatherFrom` — one round of a view of them
* `Node.doubleAt?`, `Node.countAt?`, `Node.pointAt?` — accessors that read one property
-/

namespace ElementGrid

namespace Replicas

variable {P : Type} [Payload P]

/-- The payloads of an element with a further one, unless its bytes are known already. -/
def add (known : List P) (payload : P) : List P :=
  if known.any fun p => Payload.encode p == Payload.encode payload then known
  else known ++ [payload]

/-- The payloads by element with what one instance says. -/
def note (table : SortedMap Nat (List P)) (r : ViewRecord P) : SortedMap Nat (List P) :=
  table.insert r.gid (add ((table.find? r.gid).getD []) r.payload)

/-- The payloads by element, in the order in which they are said first. -/
def collect (said : List (ViewRecord P)) : SortedMap Nat (List P) := said.foldl note .empty

/-- The records of a table, by element. -/
def records (table : SortedMap Nat (List P)) : List (ViewRecord P) :=
  table.entries.flatMap fun (gid, payloads) => payloads.map fun p => ⟨gid, p⟩

end Replicas

namespace Registry

variable {E P : Type} (r : Registry E)

/-- What the instances of a process say, thread by thread and by place: of those that a collection
names, if one is given, and for which the accessor has a payload. -/
def sayings (only : Option Collection) (accessor : Node E → Option P) : List (ViewRecord P) :=
  let named (gid : Nat) : Bool := only.all fun c => c.contains gid
  r.workers.flatMap fun w => w.store.nodes.filterMap fun n =>
    if named n.gid then (accessor n).map fun p => ⟨n.gid, p⟩ else none

variable [Payload P]

/-- The records of the instances of a process, by element. -/
def localRecords (only : Option Collection) (accessor : Node E → Option P) : List (ViewRecord P) :=
  Replicas.records (Replicas.collect (r.sayings only accessor))

/-- One round of a view of the instances of a process. -/
def gatherFrom (config : ViewConfig) (only : Option Collection) (accessor : Node E → Option P) :
    Exchange (Canonical.Outcome P) :=
  View.gather config r.config.processes (r.localRecords only accessor)

end Registry

/-! ## Accessors -/

namespace Node

variable {E : Type} [Element E] (n : Node E)

/-- A property that the element shows. -/
def property? (key : String) : Option PropertyValue := (Element.status n.element .empty).find? key

/-- A property, if it is a double. -/
def doubleAt? (key : String) : Option Double :=
  match n.property? key with
  | some (.double d) => some d
  | _ => none

/-- A property, if it is an integer that is not negative. -/
def countAt? (key : String) : Option UInt64 :=
  match n.property? key with
  | some (.int i) => if i < 0 then none else some (.ofNat i.toNat)
  | _ => none

/-- A property, if it is the two coordinates of a point. -/
def pointAt? (key : String) : Option (Vector Double 2) :=
  match n.property? key with
  | some (.doubleArray [x, y]) => some #v[x, y]
  | _ => none

end Node

end ElementGrid
