import ElementGrid.Element.Basic
/-!
# Standard elements

Five types of elements, each of which shows one concern of the registry: plain state, faulting hooks,
waveform relaxation, replication, and a position in the plane.

## Main definitions

* `Counter`, `Faulty`, `Relaxing`, `Recorder`, `Positioned` — the types
* `StandardElement` — an element of any of them
-/

namespace ElementGrid

open Step (ask assign modifyFirst onFirst onSecond)

/-- An element that counts up to a threshold. The threshold is structural. -/
structure Counter where
  count : Int := 0
  threshold : Double := .zero
  /-- The number drawn at the last preparation. -/
  lastDraw : Option Double := none
  deriving DecidableEq, Repr

instance : Element Counter where
  status c m :=
    let m := (m.insert "count" (.int c.count)).insert "threshold" (.double c.threshold)
    match c.lastDraw with
    | some d => m.insert "last_draw" (.double d)
    | none => m
  write := do
    if let some threshold ← ask fun r => r.double "threshold" then
      if !threshold.isFinite then throw (.badProperty "threshold must be finite")
      modifyFirst fun c => { c with threshold }
    assign (← ask fun r => r.int "count") fun count c => { c with count }
  mutability _ key := if key = "threshold" then .structural else .dynamic
  initState := modify fun c => { c with count := 0, lastDraw := none }
  prepare _ := do
    let draw ← onSecond fun g => let (x, g') := g.unit; (.ok (Double.ofFloat x), g')
    modifyFirst fun c => { c with lastDraw := some draw }

/-- An element that refuses to be prepared under certain numbers. -/
structure Faulty where
  /-- The numbers under which it refuses. -/
  failOn : List Nat := []
  /-- It refuses to be finalized too. -/
  failFinalize : Bool := false
  /-- The number it was last prepared under. -/
  gid : Option Nat := none
  deriving DecidableEq, Repr

/-- The element knows that its number is one of those it refuses. -/
def Faulty.isDoomed (f : Faulty) : Bool := f.gid.any fun gid => f.failOn.contains gid

instance : Element Faulty where
  status _ m := m
  write := pure ()
  prepare ctx := do
    modifyFirst fun f => { f with gid := some ctx.gid }
    if (← get).1.isDoomed then throw s!"refusing to prepare {ctx.gid}"
  finalize := do
    let f ← get
    if f.failFinalize && f.isDoomed then throw "refusing to finalize"

/-- An element that takes part in waveform relaxation. -/
structure Relaxing where
  iterations : Int := 0
  deriving DecidableEq, Repr

instance : Element Relaxing where
  status e m := m.insert "iterations" (.int e.iterations)
  write := do
    assign (← ask fun r => r.int "iterations") fun iterations e => { e with iterations }
  usesRelaxation _ := true

/-- An element that counts events under a label. -/
structure Recorder where
  label : String := ""
  events : Int := 0
  deriving DecidableEq, Repr

instance : Element Recorder where
  status e m := (m.insert "label" (.string e.label)).insert "events" (.int e.events)
  write := do
    assign (← ask fun r => r.string "label") fun label e => { e with label }
    if let some events ← ask fun r => r.int "events" then
      if events < 0 then throw (.badProperty "events must be non-negative")
      modifyFirst fun e => { e with events }
  initState := modify fun e => { e with events := 0 }
  postRunCleanup := modify fun e => { e with events := 0 }

/-- An element at a point of the plane. The position is structural. -/
structure Positioned where
  x : Double := .zero
  y : Double := .zero
  deriving DecidableEq, Repr

instance : Element Positioned where
  status e m := m.insert "position" (.doubleArray [e.x, e.y])
  write := do
    match ← ask fun r => r.doubleArray "position" with
    | none => pure ()
    | some [x, y] => modifyFirst fun _ => { x, y }
    | some other =>
      throw (.badProperty s!"position needs 2 coordinates, got {other.length}")
  mutability _ key := if key = "position" then .structural else .dynamic

/-- An element of any of the standard types. -/
abbrev StandardElement := Counter ⊕ Relaxing ⊕ Positioned ⊕ Recorder ⊕ Faulty

namespace StandardElement

/-- A counter as a standard element. -/
def counter (e : Counter := {}) : StandardElement := .inl e

/-- A relaxing element as a standard element. -/
def relaxing (e : Relaxing := {}) : StandardElement := .inr (.inl e)

/-- A positioned element as a standard element. -/
def positioned (e : Positioned := {}) : StandardElement := .inr (.inr (.inl e))

/-- A recorder as a standard element. -/
def recorder (e : Recorder := {}) : StandardElement := .inr (.inr (.inr (.inl e)))

/-- A faulty element as a standard element. -/
def faulty (e : Faulty := {}) : StandardElement := .inr (.inr (.inr (.inr e)))

end StandardElement

end ElementGrid
