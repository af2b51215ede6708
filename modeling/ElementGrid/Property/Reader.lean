import ElementGrid.Property.Value
/-!
# Reading properties

Elements read the properties they are given through a reader that remembers which names were asked
for. A name that nobody asked for is refused at the end, so a misspelt property is never passed over.

## Main definitions

* `PropertyError` — why properties are refused, with its wording
* `PropertyReader` — properties with the names asked for so far
* `PropertyReader.take`, `PropertyReader.read` — untyped and typed reading
* `PropertyReader.unconsumed`, `PropertyReader.finish` — what nobody asked for

## Design notes

A typed reading counts as asking even if the value has another type. A reading of a name without a
value leaves no trace.
-/

namespace ElementGrid

/-- Why properties are refused. -/
inductive PropertyError where
  /-- A value is out of bounds. -/
  | badProperty (reason : String)
  /-- Nobody asked for the properties. -/
  | unknownProperty (names : List String)
  /-- The value has another type. -/
  | typeMismatch (name : String) (expected : PropertyType)
  deriving DecidableEq, Repr

/-- The wording of refused properties. -/
def PropertyError.message : PropertyError → String
  | badProperty reason => s!"bad property: {reason}"
  | unknownProperty names => "unaccessed properties: " ++ ", ".intercalate names
  | typeMismatch name expected => s!"property '{name}' must be {expected.name}"

/-- Properties with the names asked for so far. -/
structure PropertyReader where
  map : PropertyMap
  consumed : List String := []
  deriving DecidableEq, Repr

namespace PropertyReader

/-- A reader that nothing was asked of. -/
def ofMap (map : PropertyMap) : PropertyReader := ⟨map, []⟩

variable (r : PropertyReader)

/-- The properties have a value of this name. -/
def contains (name : String) : Bool := r.map.contains name

/-- All names in order, asked for or not. -/
def keys : List String := r.map.keys

/-- The reader after `name` was asked for; only a name with a value counts. -/
def markConsumed (name : String) : PropertyReader :=
  if r.map.contains name then { r with consumed := name :: r.consumed } else r

/-- The value of `name`, and the reader after it was asked for. -/
def take (name : String) : Option PropertyValue × PropertyReader :=
  (r.map.find? name, r.markConsumed name)

/-- The value of `name` as one of type `type`, of which `as?` gives the values. -/
def read (type : PropertyType) (as? : PropertyValue → Option α) (name : String) :
    Except PropertyError (Option α) × PropertyReader :=
  match r.take name with
  | (none, r') => (.ok none, r')
  | (some v, r') =>
    match as? v with
    | some a => (.ok (some a), r')
    | none => (.error (.typeMismatch name type), r')

/-- The truth value of `name`. -/
def bool : String → Except PropertyError (Option Bool) × PropertyReader :=
  r.read .bool fun | .bool b => some b | _ => none

/-- The integer of `name`. -/
def int : String → Except PropertyError (Option Int) × PropertyReader :=
  r.read .int fun | .int i => some i | _ => none

/-- The double of `name`; an integer is taken as the nearest double. -/
def double : String → Except PropertyError (Option Double) × PropertyReader :=
  r.read .double fun | .double d => some d | .int i => some (.ofInt i) | _ => none

/-- The string of `name`. -/
def string : String → Except PropertyError (Option String) × PropertyReader :=
  r.read .string fun | .string s => some s | _ => none

/-- The list of doubles of `name`. -/
def doubleArray : String → Except PropertyError (Option (List Double)) × PropertyReader :=
  r.read .doubleArray fun | .doubleArray l => some l | _ => none

/-- The names that nobody asked for, in order. -/
def unconsumed : List String := r.keys.filter fun name => !r.consumed.contains name

/-- Every name was asked for. -/
def finish : Except PropertyError Unit :=
  if r.unconsumed.isEmpty then .ok () else .error (.unknownProperty r.unconsumed)

@[simp]
theorem map_markConsumed (name : String) : (r.markConsumed name).map = r.map := by
  unfold markConsumed; split <;> rfl

end PropertyReader

end ElementGrid
