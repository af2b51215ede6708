/-!
# The exponential

`exp x` is `2 ^ k * exp r`, where `k * ln 2` is the multiple of `ln 2` next to `x` and `r` is what is
left. The remainder is small, and a quotient of polynomials gives its exponential. The result may be
off by one in the last place, so every step is part of the definition.

## Main definitions

* `Exponential.multiple` — the number `k`
* `Exponential.correction` — the polynomial of the remainder
* `Exponential.exp` — the exponential

## Design notes

The constants are given by their bits. The multiples of `ln 2` are taken off in two parts, and the
first part has so few bits that its multiples are exact.
-/

namespace ElementGrid.Exponential

/-- `ln 2` without its low bits. -/
def ln2High : Float := .ofBits 0x3fe62e42fee00000

/-- What `ln2High` lacks of `ln 2`. -/
def ln2Low : Float := .ofBits 0x3dea39ef35793c76

/-- The inverse of `ln 2`. -/
def perLn2 : Float := .ofBits 0x3ff71547652b82fe

/-- Beyond this number the exponential is infinite. -/
def greatest : Float := .ofBits 0x40862e42fefa39ef

/-- Below this number the exponential is zero. -/
def least : Float := .ofBits 0xc0874910d52d3051

/-- The exponential of a number `x` of a lesser size is `1 + x`. -/
def negligible : Float := .ofBits 0x3e30000100000000

/-- Numbers of a lesser size, about half of `ln 2`, are their own remainder. -/
def halfLn2 : Float := .ofBits 0x3fd62e4300000000

/-- Numbers of a lesser size, about one and a half times `ln 2`, are next to `ln 2` or `-ln 2`. -/
def threeHalvesLn2 : Float := .ofBits 0x3ff0a2b200000000

/-- The multiple of `ln 2` that is next to `x`. -/
def multiple (x : Float) : Int :=
  if x.abs < halfLn2 then 0
  else if x.abs < threeHalvesLn2 then if x < 0 then -1 else 1
  else (perLn2 * x + if x < 0 then -0.5 else 0.5).toInt32.toInt

/-- The coefficients of the even powers of the remainder, beginning with the second. -/
def coefficients : List Float :=
  [.ofBits 0x3fc555555555553e, .ofBits 0xbf66c16c16bebd93, .ofBits 0x3f11566aaf25de2c,
    .ofBits 0xbebbbd41c5d26bf1, .ofBits 0x3e66376972bea4d0]

/-- The polynomial in `s` with the given coefficients and no constant part. -/
def polynomial (s : Float) : List Float → Float
  | [] => 0
  | [c] => s * c
  | c :: cs => s * (c + polynomial s cs)

/-- The number `c` for which `exp r` is `1 + r + r * c / (2 - c)`. -/
def correction (r : Float) : Float := r - polynomial (r * r) coefficients

/-- The exponential of a number. -/
def exp (x : Float) : Float :=
  if x.isNaN then x
  else if greatest < x then 1 / 0
  else if x < least then 0
  else if x.abs < negligible then 1 + x
  else
    let k := multiple x
    let high := x - Float.ofInt k * ln2High
    let low := Float.ofInt k * ln2Low
    let r := high - low
    let c := correction r
    (1 + (r * c / (2 - c) - low + high)).scaleB k

end ElementGrid.Exponential
