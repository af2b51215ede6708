/-!
# Shortest decimals

A binary number is written with the fewest decimal digits that read back as the same number. The
reals that read back as it form an interval around it, so the question is which decimal grid is the
first to have a point in that interval; a grid with a point there has one next to the number itself.

## Main definitions

* `Decimal` — a digit string with a power of ten
* `RoundingSpan` — a positive number between the two ends of the interval that rounds to it
* `RoundingSpan.nearest?` — the point of a decimal grid in the interval that is next to the number
* `RoundingSpan.shortest` — the nearest point of the coarsest grid that has one in the interval

## Design notes

The three numbers share a denominator, so every comparison is one of natural numbers. When two
neighbouring points are equally near, the upper one is taken.
-/

namespace ElementGrid

/-- The number `digits * 10 ^ exponent`. -/
structure Decimal where
  digits : Nat
  exponent : Int
  deriving DecidableEq, Repr, Inhabited

namespace Decimal

/-- How many decimal digits `n` has. -/
def digitCount (n : Nat) : Nat := (Nat.toDigits 10 n).length

/-- The same number without zeros at the end of its digits; at most `fuel` are taken off. -/
def trimZeros : Nat → Decimal → Decimal
  | 0, d => d
  | fuel + 1, d =>
    if d.digits % 10 = 0 ∧ d.digits ≠ 0 then trimZeros fuel ⟨d.digits / 10, d.exponent + 1⟩ else d

end Decimal

/-- The positive number `mid / den` and the ends `low / den` and `high / den` of the interval of
numbers that round to it. -/
structure RoundingSpan where
  low : Nat
  mid : Nat
  high : Nat
  den : Nat
  /-- The ends themselves round to the number. -/
  closed : Bool
  deriving DecidableEq, Repr

namespace RoundingSpan

/-- The span of `m * 2 ^ q`: half a unit to each side, downwards a quarter if the numbers below are
twice as dense. An end rounds to the even neighbour. -/
def ofBinary (m : Nat) (q : Int) (denseBelow : Bool) : RoundingSpan :=
  let unit := Nat.pow 2 (q - 2).toNat
  { low := (4 * m - if denseBelow then 1 else 2) * unit
    mid := 4 * m * unit
    high := (4 * m + 2) * unit
    den := Nat.pow 2 (2 - q).toNat
    closed := m % 2 == 0 }

variable (s : RoundingSpan)

/-- The number lies in the interval: here the number `d * 10 ^ k`. -/
def contains (d : Nat) (k : Int) : Bool :=
  let x := d * s.den * Nat.pow 10 k.toNat
  let down := Nat.pow 10 (-k).toNat
  if s.closed then s.low * down ≤ x && x ≤ s.high * down
  else s.low * down < x && x < s.high * down

/-- The greatest point of the grid `10 ^ k` that does not exceed the number, in units of the grid. -/
def below (k : Int) : Nat := s.mid * Nat.pow 10 (-k).toNat / (s.den * Nat.pow 10 k.toNat)

/-- The point above `below` is at least as near as `below` itself. -/
def nearerAbove (k : Int) : Bool :=
  let b := s.below k
  (2 * b + 1) * (s.den * Nat.pow 10 k.toNat) ≤ 2 * (s.mid * Nat.pow 10 (-k).toNat)

/-- The point of the grid `10 ^ k` in the interval that is next to the number, if there is one. -/
def nearest? (k : Int) : Option Decimal :=
  let b := s.below k
  match s.contains b k, s.contains (b + 1) k with
  | true, true => some ⟨if s.nearerAbove k then b + 1 else b, k⟩
  | true, false => some ⟨b, k⟩
  | false, true => some ⟨b + 1, k⟩
  | false, false => none

/-- The power of ten of the first digit: the number lies between it and the next one. -/
def magnitude : Int :=
  if s.den ≤ s.mid then Decimal.digitCount (s.mid / s.den) - 1
  else -(Decimal.digitCount ((s.den - 1) / s.mid) : Nat)

/-- The shortest decimal in the interval, the nearest of that length. Seventeen digits always
suffice. -/
def shortest : Decimal :=
  let grids := (List.range 17).map fun n => s.magnitude - (n : Nat)
  ((grids.findSome? s.nearest?).getD ⟨s.below (s.magnitude - 16), s.magnitude - 16⟩).trimZeros 17

end RoundingSpan

end ElementGrid
