/-!
# Machine words

Counts, ordinals and positions of the grid are natural numbers that have to fit in 64 bits. Where
the grid multiplies or adds two of them the result wraps, and `Word.wrap` says so at that place.

## Main definitions

* `Word.modulus`, `Word.halfModulus` — the numbers of 64-bit words and of 32-bit half words
* `Word.wrap` — the remainder that a wrapping operation leaves
* `Word.toSigned` — a word read as a signed number
* `Word.Fits` — a number that a word holds exactly
-/

namespace ElementGrid.Word

/-- There are `2 ^ 64` words. -/
def modulus : Nat := 18446744073709551616

/-- There are `2 ^ 32` half words. -/
def halfModulus : Nat := 4294967296

/-- The word that a wrapping operation with exact result `n` leaves. -/
def wrap (n : Nat) : Nat := n % modulus

/-- The signed number with the same bits as the word `n`. -/
def toSigned (n : Nat) : Int := Int.bmod n modulus

/-- A word holds `n` exactly. -/
def Fits (n : Nat) : Prop := n < modulus

instance (n : Nat) : Decidable (Fits n) := inferInstanceAs (Decidable (n < modulus))

theorem fits_wrap (n : Nat) : Fits (wrap n) :=
  Nat.mod_lt n (by decide)

theorem wrap_of_fits {n : Nat} (h : Fits n) : wrap n = n :=
  Nat.mod_eq_of_lt h

end ElementGrid.Word
