import ElementGrid.Double.Text
import ElementGrid.Text.Quoted
import ElementGrid.SortedMap
/-!
# Property values

Elements show and take their state as named values of five types.

## Main definitions

* `PropertyType` — the types, with their names in refusals
* `PropertyValue` — a value
* `PropertyValue.text` — how a value is written
* `PropertyMap` — values by name
-/

namespace ElementGrid

/-- The types of property values. -/
inductive PropertyType where
  | bool
  | int
  | double
  | string
  | doubleArray
  deriving DecidableEq, Repr

/-- The name of a type, with its article. -/
def PropertyType.name : PropertyType → String
  | bool => "a boolean"
  | int => "an integer"
  | double => "a double"
  | string => "a string"
  | doubleArray => "an array of doubles"

/-- A property value. Integers are signed words. -/
inductive PropertyValue where
  | bool (value : Bool)
  | int (value : Int)
  | double (value : Double)
  | string (value : String)
  | doubleArray (items : List Double)
  deriving DecidableEq, Repr, Inhabited

namespace PropertyValue

/-- The type of a value. -/
def type : PropertyValue → PropertyType
  | bool _ => .bool
  | int _ => .int
  | double _ => .double
  | string _ => .string
  | doubleArray _ => .doubleArray

/-- How a value is written: strings in quotes, lists in brackets. -/
def text : PropertyValue → String
  | bool b => if b then "true" else "false"
  | int i => toString i
  | double d => d.write .alone
  | string s => Quoted.encode s
  | doubleArray items => "[" ++ ", ".intercalate (items.map (Double.write .item)) ++ "]"

end PropertyValue

/-- Property values by name. -/
abbrev PropertyMap := SortedMap String PropertyValue

end ElementGrid
