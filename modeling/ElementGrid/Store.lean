import ElementGrid.Node
/-!
# Stores

The instances on one worker thread, by ascending number. An instance never moves, so its place is its
local identifier for as long as the store is kept.

## Main definitions

* `Store` — the instances of a thread, and the greatest number that the thread knows of
* `Store.append` — an instance goes to the end
* `Store.indexFrom?` — the place of a number, found by walking from some place
* `Store.find?`, `Store.modify` — an instance by number

## Design notes

Placement spreads numbers evenly, so the place of a number is estimated from the first and the last
one, and a short walk finds it. Where the walk starts makes no difference to where it ends.
-/

namespace ElementGrid

/-- The instances of a thread. -/
structure Store (E : Type) where
  nodes : List (Node E) := []
  /-- The greatest number that the thread knows to exist, here or elsewhere. -/
  maxGid : Nat := 0
  deriving DecidableEq, Repr

namespace Store

variable {E : Type} (s : Store E)

/-- A store without instances. -/
def empty : Store E := {}

/-- How many instances there are. -/
def size : Nat := s.nodes.length

/-- The numbers of the instances in order. -/
def gids : List Nat := s.nodes.map Node.gid

/-- The store with an instance at the end, which becomes its local identifier. -/
def append (n : Node E) : Store E where
  nodes := s.nodes ++ [{ n with localId := s.size }]
  maxGid := max s.maxGid n.gid

/-- The store with further instances at the end. -/
def appendAll (ns : List (Node E)) : Store E := ns.foldl append s

/-- The store after its thread has heard of the number `gid`; it forgets none. -/
def raiseMaxGid (gid : Nat) : Store E := { s with maxGid := max s.maxGid gid }

/-- The instance at a place. -/
def get? (localId : Nat) : Option (Node E) := s.nodes[localId]?

/-- The number at a place. -/
def gidAt? (i : Nat) : Option Nat := (s.nodes[i]?).map Node.gid

/-- Goes down from a place as long as the number there exceeds `gid`. -/
def walkDown (gid : Nat) : Nat → Nat
  | 0 => 0
  | i + 1 =>
    match s.gidAt? (i + 1) with
    | some g => if gid < g then walkDown gid i else i + 1
    | none => i + 1

/-- Goes up from a place, at most so many steps, as long as the number there is less than `gid`. -/
def walkUp (gid : Nat) : Nat → Nat → Nat
  | 0, i => i
  | steps + 1, i =>
    match s.gidAt? i with
    | some g => if g < gid then walkUp gid steps (i + 1) else i
    | none => i

/-- The place of `gid`, found by walking from the place `start`. -/
def indexFrom? (start gid : Nat) : Option Nat :=
  let i := s.walkUp gid s.size (s.walkDown gid start)
  if s.gidAt? i = some gid then some i else none

/-- The place at which `gid` would be if the numbers were evenly spread between `first` and `last`. -/
def estimate (first last gid : Nat) : Nat :=
  if last = first then 0
  else min ((gid - first) * (s.size - 1) / (last - first)) (s.size - 1)

/-- The place of `gid`. -/
def index? (gid : Nat) : Option Nat :=
  match s.nodes.head?, s.nodes.getLast? with
  | some a, some b =>
    if gid < a.gid ∨ b.gid < gid then none else s.indexFrom? (s.estimate a.gid b.gid gid) gid
  | _, _ => none

/-- The instance of `gid`. -/
def find? (gid : Nat) : Option (Node E) := (s.index? gid).bind s.get?

/-- The store with the instance at a place changed. -/
def modifyAt (i : Nat) (f : Node E → Node E) : Store E := { s with nodes := s.nodes.modify i f }

/-- The store with the instance of `gid` changed, if it is here. -/
def modify (gid : Nat) (f : Node E → Node E) : Store E :=
  match s.index? gid with
  | some i => s.modifyAt i f
  | none => s

@[simp]
theorem size_append (n : Node E) : (s.append n).size = s.size + 1 := by
  simp [append, size]

end Store

end ElementGrid
