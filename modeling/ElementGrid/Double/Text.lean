import ElementGrid.Double.Basic
import ElementGrid.Decimal.Shortest
/-!
# Writing doubles

A double is written with the fewest digits that read back. Alone it is written without an exponent;
as the item of a list it shows that it is no integer, and takes an exponent when it is very large or
very small.

## Main definitions

* `Double.shortest` — the digits of a finite number
* `Decimal.positional`, `Decimal.scientific` — the two ways to write a decimal
* `DoubleStyle`, `DoubleStyle.alone`, `DoubleStyle.item` — which way is used when
* `Double.write` — the text
-/

namespace ElementGrid

/-- The shortest digits of a finite, nonzero number; its sign is left out. -/
def Double.shortest (d : Double) : Decimal :=
  (RoundingSpan.ofBinary d.significand d.scale
    (d.fraction == 0 && 1 < d.exponentField)).shortest

namespace Decimal

variable (d : Decimal)

/-- The digits as characters. -/
def chars : List Char := Nat.toDigits 10 d.digits

/-- The power of ten of the first digit. -/
def leading : Int := d.exponent + d.chars.length - 1

/-- The decimal without an exponent and with at least `places` decimal places. -/
def positional (places : Nat) : String :=
  let whole := d.chars ++ List.replicate d.exponent.toNat '0'
  let point := (d.leading + 1).toNat
  let padded := List.replicate (-d.leading - 1).toNat '0' ++ d.chars
  let front := if 0 ≤ d.leading then whole.take point else ['0']
  let back := if 0 ≤ d.leading then whole.drop point else padded
  let back := back ++ List.replicate (places - back.length) '0'
  String.ofList (if back.isEmpty then front else front ++ '.' :: back)

/-- The decimal with one digit before the point and an exponent. -/
def scientific : String :=
  let front := d.chars.take 1
  let back := d.chars.drop 1
  String.ofList (if back.isEmpty then front else front ++ '.' :: back) ++ s!"e{d.leading}"

end Decimal

/-- How doubles are written. -/
structure DoubleStyle where
  /-- The least number of decimal places of a text without exponent. -/
  places : Nat
  /-- The powers of ten of a first digit that are written without exponent. -/
  positional : Int → Bool

namespace DoubleStyle

/-- A double that stands alone is written without exponent and without needless places. -/
def alone : DoubleStyle := ⟨0, fun _ => true⟩

/-- A double in a list has a decimal place; from `10 ^ 16` on and below `10 ^ -4` it has an
exponent. -/
def item : DoubleStyle := ⟨1, fun e => -4 ≤ e && e < 16⟩

end DoubleStyle

namespace Double

/-- The text of a number without its sign. -/
def writeMagnitude (style : DoubleStyle) (d : Double) : String :=
  if d.isInfinite then "inf"
  else if d.isZero then (⟨0, 0⟩ : Decimal).positional style.places
  else
    let s := d.shortest
    if style.positional s.leading then s.positional style.places else s.scientific

/-- The text of a double. What is no number has no sign. -/
def write (style : DoubleStyle) (d : Double) : String :=
  if d.isNaN then "NaN"
  else if d.isNegative then "-" ++ d.writeMagnitude style
  else d.writeMagnitude style

end Double

end ElementGrid
