/-!
# Inspection texts

Values of the grid are shown to people as a type name with the fields in braces, or with one content
in parentheses.

## Main definitions

* `Inspect.record` — a type name with named fields
* `Inspect.wrap` — a type name with one content
* `Inspect.option` — a content that may be missing
-/

namespace ElementGrid.Inspect

/-- A type name with named fields. Two dots at the end say that further fields are not shown. -/
def record (name : String) (fields : List (String × String)) (complete : Bool) : String :=
  let shown := fields.map (fun (k, v) => k ++ ": " ++ v) ++ if complete then [] else [".."]
  name ++ " \x7b " ++ ", ".intercalate shown ++ " \x7d"

/-- A type name with one content. -/
def wrap (name content : String) : String := name ++ "(" ++ content ++ ")"

/-- A number with the name of its numbering. -/
def number (name : String) (n : Nat) : String := wrap name (toString n)

/-- A content that may be missing. -/
def option : Option String → String
  | none => "None"
  | some s => wrap "Some" s

/-- A truth value. -/
def truth (b : Bool) : String := if b then "true" else "false"

end ElementGrid.Inspect
