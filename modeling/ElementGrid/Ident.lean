import ElementGrid.Word
/-!
# Identifiers

The names under which the grid knows its parts. Elements, processes, threads, models and places in a
store are numbered, and the numbers are plain naturals: a parameter or field called `gid`, `rank`,
`thread`, `model` or `localId` says which numbering is meant.

## Main definitions

* `Gid.reserved`, `Gid.first`, `Gid.next` — the numbering of the elements
* `Vp` — a virtual process: one worker thread of one process
* `Category` — how the elements of a model are spread over the grid
-/

namespace ElementGrid

namespace Gid

/-- The number that never names an element. -/
def reserved : Nat := 0

/-- The first number that a fresh registry gives out. -/
def first : Nat := 1

/-- The number after `g`, as a word. -/
def next (g : Nat) : Nat := Word.wrap (g + 1)

/-- An element can carry the number `g`. -/
def isAssignable (g : Nat) : Bool := g != reserved

end Gid

/-- The linear number of a virtual process is written with a tag before it. -/
def VpIndex.label (i : Nat) : String := "vp" ++ toString i

/-- The number of a model is written with a tag before it. -/
def ModelId.label (m : Nat) : String := "model#" ++ toString m

/-- A virtual process: one worker thread of one process. -/
structure Vp where
  rank : Nat
  thread : Nat
  deriving DecidableEq, Repr, Inhabited

namespace Vp

/-- The virtual process that holds every external element. -/
def origin : Vp := ⟨0, 0⟩

/-- Virtual processes are ordered by rank and then by thread. -/
def compare (a b : Vp) : Ordering :=
  (Ord.compare a.rank b.rank).then (Ord.compare a.thread b.thread)

/-- A virtual process is written as the pair of its rank and thread. -/
def text (v : Vp) : String := s!"({v.rank}, {v.thread})"

end Vp

/-- How the elements of a model are spread over the virtual processes. -/
inductive Category where
  /-- Each element lives on one virtual process, in turn. -/
  | normal
  /-- Each element has an instance on every virtual process. -/
  | device
  /-- Each element lives on the first virtual process. -/
  | external
  deriving DecidableEq, Repr, Inhabited

namespace Category

/-- Elements of the category have one instance on every virtual process. -/
def isReplicated : Category → Bool
  | device => true
  | _ => false

/-- The plain name of a category. -/
def name : Category → String
  | normal => "normal"
  | device => "device"
  | external => "external"

/-- The name of a category in settings documents and in inspection texts. -/
def title : Category → String
  | normal => "Normal"
  | device => "Device"
  | external => "External"

/-- All categories. -/
def all : List Category := [normal, device, external]

end Category

end ElementGrid
