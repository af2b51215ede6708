import ElementGrid.Collection.Build
/-!
# Operations on collections

Union of disjoint collections, selection of every so-many-th element, and look-up by position.

## Main definitions

* `Collection.get` — the element at a position
* `Collection.concat` — the union of two collections without a common element
* `Collection.slice` — the elements at the positions `start`, `start + step`, … below `stop`
-/

namespace ElementGrid.Collection

variable (c : Collection)

/-- The element at a position. -/
def get (index : Nat) : Except CollectionError Nat :=
  match c.entryAt? index with
  | some e => .ok e.1
  | none => .error (.indexOutOfRange index c.size)

/-- The number at which the first run that reaches into the next one is met. -/
def overlap? : List Run → Option Nat
  | r :: s :: rs => if s.first ≤ r.last then some s.first else overlap? (s :: rs)
  | _ => none

/-- The runs of both collections by their first number; runs that begin together keep their order. -/
def mergedRuns (d : Collection) : List Run :=
  (c.runs ++ d.runs).mergeSort fun r s => r.first ≤ s.first

/-- The union of two collections without a common element. -/
def concat (d : Collection) : Except CollectionError Collection :=
  match overlap? (c.mergedRuns d) with
  | some gid => .error (.overlap gid)
  | none => .ok (ofRuns (c.mergedRuns d))

/-- The positions `start`, `start + step`, … below `stop`. -/
def positions (start stop step : Nat) : List Nat :=
  List.range' start ((stop - start + step - 1) / step) step

/-- The elements at the positions `start`, `start + step`, … below `stop`. -/
def slice (start stop step : Nat) : Except CollectionError Collection :=
  if step = 0 ∨ stop ≤ start ∨ c.size < stop then
    .error (.invalidSlice start stop step c.size)
  else
    .ok (ofEntries ((positions start stop step).filterMap c.entryAt?))

end ElementGrid.Collection
