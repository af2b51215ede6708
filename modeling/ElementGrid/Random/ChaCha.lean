/-!
# The ChaCha block function

Random words come from a block cipher run in counter mode: the block of a key, a counter and a stream
number is sixteen words, and streams with different numbers have nothing in common.

## Main definitions

* `ChaCha.quarterRound` — the mixing of four words
* `ChaCha.doubleRound` — all columns and then all diagonals
* `ChaCha.block` — the sixteen words of a block
* `ChaCha.word64` — the 64-bit word at a position of the stream

## Design notes

Eight rounds are enough for simulations.
-/

namespace ElementGrid.ChaCha

/-- The sixteen words that the cipher mixes. -/
abbrev State := Vector UInt32 16

/-- The words of a key. -/
abbrev Key := Vector UInt32 8

/-- `x` turned left by `n` bits, for `0 < n < 32`. -/
def rotateLeft (x n : UInt32) : UInt32 := (x <<< n) ||| (x >>> (32 - n))

/-- Mixes the words at four places. -/
def quarterRound (a b c d : Fin 16) (s : State) : State :=
  let s := s.set a (s[a] + s[b])
  let s := s.set d (rotateLeft (s[d] ^^^ s[a]) 16)
  let s := s.set c (s[c] + s[d])
  let s := s.set b (rotateLeft (s[b] ^^^ s[c]) 12)
  let s := s.set a (s[a] + s[b])
  let s := s.set d (rotateLeft (s[d] ^^^ s[a]) 8)
  let s := s.set c (s[c] + s[d])
  s.set b (rotateLeft (s[b] ^^^ s[c]) 7)

/-- Mixes every column of the four-by-four square of words, then every diagonal. -/
def doubleRound (s : State) : State :=
  let s := quarterRound 0 4 8 12 s
  let s := quarterRound 1 5 9 13 s
  let s := quarterRound 2 6 10 14 s
  let s := quarterRound 3 7 11 15 s
  let s := quarterRound 0 5 10 15 s
  let s := quarterRound 1 6 11 12 s
  let s := quarterRound 2 7 8 13 s
  quarterRound 3 4 9 14 s

/-- How often a block is mixed by `doubleRound`. -/
def doubleRounds : Nat := 4

/-- The square before mixing: four constants, the key, the counter and the stream number, low halves
first. -/
def initial (key : Key) (counter stream : UInt64) : State :=
  #v[0x61707865, 0x3320646e, 0x79622d32, 0x6b206574,
    key[0], key[1], key[2], key[3], key[4], key[5], key[6], key[7],
    counter.toUInt32, (counter >>> 32).toUInt32, stream.toUInt32, (stream >>> 32).toUInt32]

/-- The block of a counter: the mixed square plus the square before mixing. -/
def block (key : Key) (counter stream : UInt64) : State :=
  let s := initial key counter stream
  (Nat.repeat doubleRound doubleRounds s).zipWith (· + ·) s

/-- The 64-bit word at a position of the stream; a block holds eight, low halves first. -/
def word64 (key : Key) (stream : UInt64) (position : Nat) : UInt64 :=
  let b := block key (.ofNat (position / 8)) stream
  let k := position % 8
  let low := b.get ⟨2 * k, by omega⟩
  let high := b.get ⟨2 * k + 1, by omega⟩
  low.toUInt64 ||| (high.toUInt64 <<< 32)

end ElementGrid.ChaCha
