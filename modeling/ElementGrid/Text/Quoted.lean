import ElementGrid.Text.Unwritable
/-!
# Quoted text

Text is quoted so that each character can be told: a quote and a backslash get a backslash, the usual
blanks have letters, and what is not visible on its own is written by number.

## Main definitions

* `Quoted.ofChar` — how one character is written between quotes
* `Quoted.encode` — the text between quotes
-/

namespace ElementGrid.Quoted

/-- How a character is written between quotes. -/
def ofChar (c : Char) : List Char :=
  if c = '\x00' then ['\\', '0']
  else if c = '\t' then ['\\', 't']
  else if c = '\r' then ['\\', 'r']
  else if c = '\n' then ['\\', 'n']
  else if c = '\x22' then ['\\', '\x22']
  else if c = '\\' then ['\\', '\\']
  else if Unwritable.contains c then
    ['\\', 'u', '\x7b'] ++ Nat.toDigits 16 c.toNat ++ ['\x7d']
  else [c]

/-- The text between quotes. -/
def encode (s : String) : String :=
  String.ofList ('\x22' :: s.toList.flatMap ofChar ++ ['\x22'])

end ElementGrid.Quoted
