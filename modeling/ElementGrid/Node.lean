import ElementGrid.Element.Basic
import ElementGrid.Text.Inspect
/-!
# Nodes

A node is one instance of an element on one virtual process, with its place and its stage of life. An
element that lives elsewhere is answered for by a proxy.

## Main definitions

* `NodeState` — the stages of life
* `Node` — an instance with its place
* `Node.activate` — an initialized instance begins to step
* `Proxy`, `Slot` — what a look-up finds
-/

namespace ElementGrid

/-- The stages of an instance's life. -/
inductive NodeState where
  | created
  | initialized
  | active
  | finalized
  deriving DecidableEq, Repr

namespace NodeState

/-- The name of a stage. -/
def name : NodeState → String
  | created => "created"
  | initialized => "initialized"
  | active => "active"
  | finalized => "finalized"

/-- The name of a stage in inspection texts. -/
def title : NodeState → String
  | created => "Created"
  | initialized => "Initialized"
  | active => "Active"
  | finalized => "Finalized"

/-- Structural properties can be written at this stage. -/
def allowsStructural : NodeState → Bool
  | created => true
  | initialized => true
  | _ => false

end NodeState

/-- One instance of an element on one virtual process. -/
structure Node (E : Type) where
  gid : Nat
  model : Nat
  category : Category
  vp : Vp
  /-- The place in the store of its thread. -/
  localId : Nat := 0
  state : NodeState := .created
  frozen : Bool := false
  element : E
  deriving DecidableEq, Repr

namespace Node

variable {E : Type} (n : Node E)

/-- An initialized instance begins to step; any other stays as it is. -/
def activate : Bool × Node E :=
  match n.state with
  | .initialized => (true, { n with state := .active })
  | _ => (false, n)

/-- The instance as it is shown; its element is not. -/
def inspect : String :=
  Inspect.record "Node"
    [("gid", Inspect.number "Gid" n.gid), ("model", Inspect.number "ModelId" n.model),
      ("category", n.category.title),
      ("vp", Inspect.record "Vp"
        [("rank", Inspect.number "Rank" n.vp.rank),
          ("thread", Inspect.number "ThreadIndex" n.vp.thread)] true),
      ("local_id", Inspect.number "LocalId" n.localId), ("state", n.state.title),
      ("frozen", Inspect.truth n.frozen)] false

end Node

/-- What stands for an element that lives elsewhere. -/
structure Proxy where
  gid : Nat
  model : Nat
  /-- The virtual process that answers for the element. -/
  home : Vp
  deriving DecidableEq, Repr

/-- What a look-up finds. -/
inductive Slot (E : Type) where
  /-- The instance itself. -/
  | present (node : Node E)
  /-- The element lives elsewhere. -/
  | absent (proxy : Proxy)
  deriving DecidableEq, Repr

namespace Slot

variable {E : Type}

/-- The number of the element. -/
def gid : Slot E → Nat
  | present n => n.gid
  | absent p => p.gid

/-- The instance, if it is here. -/
def node? : Slot E → Option (Node E)
  | present n => some n
  | absent _ => none

end Slot

end ElementGrid
