/-!
# Settings documents

Settings and identifiers are exchanged as documents: trees of truth values, numbers, strings, lists
and named fields. This module holds the tree and the readings that settings are made of; it knows
nothing of how a document is spelled.

## Main definitions

* `Document` — the tree
* `Document.word?` — a number that is written as an integer and lies below a bound
* `Document.variant?` — a name out of a closed list
* `Document.field?` — a named field
-/

namespace ElementGrid

/-- A tree of truth values, numbers, strings, lists and named fields. -/
inductive Document where
  | null
  | bool (value : Bool)
  /-- The number `digits * 10 ^ (-places)`, written with that many decimal places. -/
  | number (digits : Int) (places : Nat)
  | string (value : String)
  | list (items : List Document)
  | object (fields : List (String × Document))
  deriving Inhabited

namespace Document

/-- A natural number is written without decimal places. -/
def ofNat (n : Nat) : Document := .number n 0

/-- The integer that the document is, if it is below `bound` and written without decimal places. -/
def word? (bound : Nat) : Document → Option Nat
  | .number (.ofNat n) 0 => if n < bound then some n else none
  | _ => none

/-- The member of `names` that the document names: as a string, or as the only field of an object
that holds nothing. -/
def variant? (names : List (String × α)) : Document → Option α
  | .string s => names.lookup s
  | .object [(s, .null)] => names.lookup s
  | _ => none

/-- The field `name` of an object. -/
def field? (name : String) (fields : List (String × Document)) : Option Document :=
  fields.lookup name

/-- The named entries of a settings group. An object brings its own, unknown ones included; a list
of at most as many items as there are names brings them in the order of the names. -/
def entries? (names : List String) : Document → Option (List (String × Document))
  | .object fields => some fields
  | .list items => if items.length ≤ names.length then some (names.zip items) else none
  | _ => none

/-- The reading of an entry that may be missing: a missing entry keeps the default. -/
def entryD (entries : List (String × Document)) (name : String) (read : Document → Option α)
    (default : α) : Option α :=
  match field? name entries with
  | none => some default
  | some d => read d

/-- The reading of an entry that has to be there. -/
def entry (entries : List (String × Document)) (name : String) (read : Document → Option α) :
    Option α :=
  (field? name entries).bind read

end Document

end ElementGrid
