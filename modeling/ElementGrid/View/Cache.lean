import ElementGrid.Text.Inspect
/-!
# Cached views

A view costs a round, so whoever looks up one layer again and again keeps the view: as a sequence, as
an index, or both. Only one layer is kept at a time, and it is dropped on request alone.

## Main definitions

* `PositionCache` — a layer with the forms of its view
* `PositionCache.sequence`, `PositionCache.index` — a form of a layer, built if it is missing
* `PositionCache.invalidate`, `PositionCache.clear` — dropping

## Design notes

The layer is noted before the view is built, and stays noted if that fails.
-/

namespace ElementGrid

/-- The forms of the view of one layer. -/
structure PositionCache (S I : Type) where
  layer : Option Nat := none
  sequence? : Option S := none
  index? : Option I := none
  deriving DecidableEq, Repr

/-- What a request to the cache comes to. -/
structure CacheReply (ε A C : Type) where
  result : Except ε A
  /-- The build was run. -/
  built : Bool
  cache : C

namespace PositionCache

variable {S I ε : Type} (c : PositionCache S I)

/-- A cache that holds nothing. -/
def empty : PositionCache S I := {}

/-- The cache with `layer` noted; another layer is dropped. -/
def select (layer : Nat) : PositionCache S I :=
  if c.layer = some layer then c else { layer := some layer }

/-- A form that is kept, or else built; `keep` puts it into the cache. -/
def provide {A : Type} (held : Option A) (build : Unit → Except ε A)
    (keep : Option A → PositionCache S I) : CacheReply ε A (PositionCache S I) :=
  match held with
  | some a => ⟨.ok a, false, keep (some a)⟩
  | none =>
    match build () with
    | .ok a => ⟨.ok a, true, keep (some a)⟩
    | .error e => ⟨.error e, true, keep none⟩

/-- The sequence of a layer. -/
def sequence (layer : Nat) (build : Unit → Except ε S) : CacheReply ε S (PositionCache S I) :=
  let c := c.select layer
  provide c.sequence? build fun s => { c with sequence? := s }

/-- The index of a layer. -/
def index (layer : Nat) (build : Unit → Except ε I) : CacheReply ε I (PositionCache S I) :=
  let c := c.select layer
  provide c.index? build fun i => { c with index? := i }

/-- Drops the view of `layer`, if that is the layer noted, and tells whether it is. -/
def invalidate (layer : Nat) : Bool × PositionCache S I :=
  if c.layer = some layer then (true, empty) else (false, c)

/-- The cache as it is shown: its layer, the length of its sequence, and whether it has an index. -/
def inspect (length : S → Nat) : String :=
  Inspect.record "PositionCache"
    [("layer", Inspect.option (c.layer.map toString)),
      ("sequence", Inspect.option (c.sequence?.map fun s => toString (length s))),
      ("index", Inspect.truth c.index?.isSome)] true

end PositionCache

end ElementGrid
