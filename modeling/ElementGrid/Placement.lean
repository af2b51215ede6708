import ElementGrid.Ident
/-!
# Placement

A grid of `P` processes with `T` worker threads each has `P * T` virtual processes. They are numbered
so that consecutive numbers alternate between processes before they alternate between threads; an
element's place follows from its creation ordinal and its category alone.

## Main definitions

* `GridShape` — the numbers of processes and of threads per process
* `GridShape.toVp`, `GridShape.toIndex` — the numbering of the virtual processes and its inverse
* `GridShape.place` — the place of an element
* `GridShape.hosts` — the virtual processes that hold an instance
* `GridShape.home` — the one virtual process that answers for an element
* `GridShape.tellsPlace`, `GridShape.tellsHome` — the rule comes to an answer

## Design notes

`GridShape.numVps` is a word: a shape whose product does not fit wraps. All other functions are
computed from it. Where it wraps to zero, there is no remainder to place an element by, and a program
that asks for one stops.
-/

namespace ElementGrid

/-- The numbers of cooperating processes and of worker threads on each of them. -/
structure GridShape where
  processes : Nat
  threads : Nat
  deriving DecidableEq, Repr, Inhabited

/-- Where an element lives. -/
inductive Placement where
  /-- On exactly one virtual process. -/
  | single (vp : Vp)
  /-- On every virtual process, as independent instances. -/
  | replicated
  deriving DecidableEq, Repr

/-- The threads of one process that hold an element. -/
inductive Hosting where
  /-- The element lives on other processes. -/
  | nowhere
  /-- One thread holds it. -/
  | one (thread : Nat)
  /-- Every thread holds an instance. -/
  | everywhere
  deriving DecidableEq, Repr

/-- The thread `t` is among those that hold the element. -/
def Hosting.includes : Hosting → Nat → Bool
  | nowhere, _ => false
  | one thread, t => thread == t
  | everywhere, _ => true

namespace GridShape

variable (g : GridShape)

/-- The number of virtual processes, as a word. -/
def numVps : Nat := Word.wrap (g.processes * g.threads)

/-- Ordinals go round the virtual processes in turn. -/
def vpForOrdinal (ordinal : Nat) : Nat := ordinal % g.numVps

/-- The rank of the virtual process with linear number `i`. -/
def rankOf (i : Nat) : Nat := i % g.processes

/-- The thread of the virtual process with linear number `i`. -/
def threadOf (i : Nat) : Nat := i / g.processes

/-- The virtual process with linear number `i`. -/
def toVp (i : Nat) : Vp := ⟨g.rankOf i, g.threadOf i⟩

/-- The linear number of a virtual process, as a word. -/
def toIndex (v : Vp) : Nat := Word.wrap (v.thread * g.processes + v.rank)

/-- Every virtual process, by its linear number. -/
def allVps : List Vp := (List.range g.numVps).map g.toVp

/-- The place of the element with the given ordinal. -/
def place (ordinal : Nat) : Category → Placement
  | .normal => .single (g.toVp (g.vpForOrdinal ordinal))
  | .device => .replicated
  | .external => .single Vp.origin

/-- The one virtual process that answers for an element: its only one, or for a replicated element
the one that its ordinal leads to. -/
def home (ordinal : Nat) (category : Category) : Vp :=
  match g.place ordinal category with
  | .single vp => vp
  | .replicated => g.toVp (g.vpForOrdinal ordinal)

/-- There are turns to take: as a word, the number of virtual processes is not zero. -/
def hasTurns : Bool := g.numVps != 0

/-- The rule has a place for elements of the category. Normal elements take turns. -/
def tellsPlace : Category → Bool
  | .normal => g.hasTurns
  | .device => true
  | .external => true

/-- The rule tells who answers for elements of the category. Replicated elements take turns as well. -/
def tellsHome : Category → Bool
  | .normal => g.hasTurns
  | .device => g.hasTurns
  | .external => true

/-- The threads of the process `rank` that hold the element. -/
def hosting (ordinal : Nat) (category : Category) (rank : Nat) : Hosting :=
  match g.place ordinal category with
  | .replicated => .everywhere
  | .single vp => if vp.rank = rank then .one vp.thread else .nowhere

/-- The virtual process `v` holds an instance of the element. -/
def hosts (ordinal : Nat) (category : Category) (v : Vp) : Bool :=
  (g.hosting ordinal category v.rank).includes v.thread

theorem numVps_of_fits (h : Word.Fits (g.processes * g.threads)) :
    g.numVps = g.processes * g.threads :=
  Word.wrap_of_fits h

end GridShape

end ElementGrid
