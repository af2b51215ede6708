import ElementGrid.Random.ChaCha
/-!
# Random streams

Every virtual process draws from a stream of its own. All streams of a run have the key that the seed
gives; they differ in their number, which is the linear number of the virtual process.

## Main definitions

* `Seed.key` — the key of a seed
* `Generator` — a stream and how far it is read
* `Generator.next` — the next word
-/

namespace ElementGrid

namespace Seed

/-- One step of the congruential generator that fills the key. -/
def advance (state : UInt64) : UInt64 := state * 6364136223846793005 + 11634580027462260723

/-- The word that a state yields: its high bits, turned by the highest ones. -/
def output (state : UInt64) : UInt32 :=
  let x := (((state >>> 18) ^^^ state) >>> 27).toUInt32
  let turn := (state >>> 59).toUInt32
  (x >>> turn) ||| (x <<< ((32 - turn) % 32))

/-- The state after `n` steps. -/
def stateAfter (seed : UInt64) (n : Nat) : UInt64 := Nat.repeat advance n seed

/-- The key of a seed: the outputs of its first eight successors. -/
def key (seed : UInt64) : ChaCha.Key :=
  .ofFn fun i => output (stateAfter seed (i + 1))

end Seed

/-- A stream and how many of its words have been read. -/
structure Generator where
  key : ChaCha.Key
  stream : UInt64
  position : Nat := 0
  deriving DecidableEq

namespace Generator

/-- The stream of the virtual process with linear number `vp`, unread. -/
def ofSeed (seed vp : Nat) : Generator :=
  { key := Seed.key (.ofNat seed), stream := .ofNat vp }

/-- The next word, and the stream after it. -/
def next (g : Generator) : UInt64 × Generator :=
  (ChaCha.word64 g.key g.stream g.position, { g with position := g.position + 1 })

end Generator

end ElementGrid
