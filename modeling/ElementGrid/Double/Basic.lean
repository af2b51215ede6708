/-!
# Double-precision numbers

Properties, payloads and random draws hold 64-bit floating-point numbers, and their bits matter: a
payload is compared byte by byte, and a value that is not a number keeps its bits on the way through
the grid. `Double` is therefore the bit pattern; arithmetic goes through `Float`, which knows only one
value that is not a number, and `Double.map` puts the bits back.

## Main definitions

* `Double` — a 64-bit floating-point number, given by its bits
* `Double.isFinite`, `Double.isNaN`, `Double.isInfinite` — read off the exponent field
* `Double.map` — an operation on one number
* `Double.significand`, `Double.scale` — a finite number as `significand * 2 ^ scale`
-/

namespace ElementGrid

/-- A 64-bit floating-point number, given by its bits. -/
structure Double where
  bits : UInt64
  deriving DecidableEq, Inhabited, Repr

namespace Double

/-- The number that `Float` arithmetic works on. -/
def toFloat (d : Double) : Float := Float.ofBits d.bits

/-- What an operation on numbers makes that has no number for its result. -/
def undefined : Double := ⟨0xfff8000000000000⟩

/-- The bits of what was computed from numbers. -/
def ofFloat (f : Float) : Double := if f.isNaN then undefined else ⟨f.toBits⟩

/-- Positive zero. -/
def zero : Double := ⟨0⟩

/-- The nearest double of an integer. -/
def ofInt (i : Int) : Double := ofFloat (Float.ofInt i)

variable (d : Double)

/-- The weight `2 ^ 52` of the lowest bit of the exponent field. -/
def hiddenBit : Nat := 4503599627370496

/-- The sign bit is set. -/
def isNegative : Bool := d.bits.toNat.testBit 63

/-- The eleven bits of the exponent field. -/
def exponentField : Nat := d.bits.toNat / hiddenBit % 2048

/-- The low 52 bits. -/
def fraction : Nat := d.bits.toNat % hiddenBit

/-- The number is neither infinite nor undefined. -/
def isFinite : Bool := d.exponentField != 2047

/-- The bits stand for no number. -/
def isNaN : Bool := d.exponentField == 2047 && d.fraction != 0

/-- The number is one of the two infinities. -/
def isInfinite : Bool := d.exponentField == 2047 && d.fraction == 0

/-- The bit of a value that is not a number which says that operations may pass it on. -/
def quietBit : UInt64 := 0x0008000000000000

/-- A value that is not a number as operations pass it on: they set its quiet bit and keep the rest. -/
def quiet : Double := ⟨d.bits ||| quietBit⟩

/-- The result of an operation. A value that is not a number is passed on. -/
def map (f : Float → Float) : Double := if d.isNaN then d.quiet else ofFloat (f d.toFloat)

/-- The number is one of the two zeros. -/
def isZero : Bool := d.exponentField == 0 && d.fraction == 0

/-- The integer `m` of a finite number `±m * 2 ^ scale`. -/
def significand : Nat :=
  if d.exponentField = 0 then d.fraction else hiddenBit + d.fraction

/-- The power of two of a finite number. -/
def scale : Int := (max d.exponentField 1 : Nat) - 1075

end Double

end ElementGrid
