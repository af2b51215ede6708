import ElementGrid.Bytes
/-!
# Gathered contributions

When every process has contributed a byte string, each of them gets all: the contributions one after
the other, with a table of where each begins.

## Main definitions

* `ExchangeError` — why an exchange fails, with its wording
* `Gathered` — the joined contributions with their table
* `Gathered.ofTable` — accepts a table that cuts its buffer into contributions
* `Gathered.ofContributions` — joins contributions
* `Gathered.contribution?`, `Gathered.contributions` — takes them apart again
-/

namespace ElementGrid

/-- What is wrong with a table. -/
inductive TableFault where
  /-- The table is empty. -/
  | noContributions
  /-- The first contribution does not begin at the beginning. -/
  | firstOffset (offset : Nat)
  /-- The contribution of a rank begins before that of the rank before it. -/
  | decreasing (rank : Nat)
  /-- The last contribution begins behind the end of the buffer. -/
  | beyondBuffer (offset size : Nat)
  /-- There are more or fewer contributions than participants. -/
  | wrongCount (found expected : Nat)
  /-- The transport says so. -/
  | reported (text : String)
  deriving DecidableEq, Repr

/-- The wording of a table fault. -/
def TableFault.text : TableFault → String
  | noContributions => "no contributions"
  | firstOffset offset => s!"first contribution starts at {offset}, expected 0"
  | decreasing rank => s!"displacement of rank {rank} precedes rank {rank - 1}"
  | beyondBuffer offset size => s!"displacement {offset} beyond buffer of {size} bytes"
  | wrongCount found expected => s!"{found} contributions for {expected} participants"
  | reported text => text

/-- Why an exchange fails. -/
inductive ExchangeError where
  /-- The table does not describe contributions. -/
  | malformedTable (fault : TableFault)
  /-- Someone tore the group down. -/
  | aborted (reason : String)
  deriving DecidableEq, Repr

/-- The wording of a failed exchange. -/
def ExchangeError.message : ExchangeError → String
  | malformedTable fault => s!"malformed displacement table: {fault.text}"
  | aborted reason => s!"collective aborted: {reason}"

/-- All contributions one after the other, and the offset at which each begins. -/
structure Gathered where
  buffer : Bytes
  displacements : List Nat
  deriving DecidableEq, Repr

namespace Gathered

/-- The first rank, counted from `rank`, whose offset is less than that of the rank before it. -/
def firstDecrease? (rank : Nat) : List Nat → Option Nat
  | a :: b :: rest => if b < a then some (rank + 1) else firstDecrease? (rank + 1) (b :: rest)
  | _ => none

/-- Accepts a table that is not empty, begins at zero, never decreases and ends within the buffer; the
first breach, in this order, is reported. -/
def ofTable (buffer : Bytes) (displacements : List Nat) : Except ExchangeError Gathered :=
  match displacements with
  | [] => .error (.malformedTable .noContributions)
  | first :: rest =>
    if first ≠ 0 then .error (.malformedTable (.firstOffset first))
    else
      match firstDecrease? 0 displacements with
      | some rank => .error (.malformedTable (.decreasing rank))
      | none =>
        let last := rest.getLastD first
        if buffer.length < last then .error (.malformedTable (.beyondBuffer last buffer.length))
        else .ok ⟨buffer, displacements⟩

/-- The offsets of parts that begin at `start`. -/
def offsets (start : Nat) : List Bytes → List Nat
  | [] => []
  | part :: parts => start :: offsets (start + part.length) parts

/-- The contributions of all ranks, in rank order, joined. -/
def ofContributions (parts : List Bytes) : Except ExchangeError Gathered :=
  ofTable parts.flatten (offsets 0 parts)

variable (g : Gathered)

/-- How many ranks contributed. -/
def size : Nat := g.displacements.length

/-- What `rank` contributed: its part reaches to the next offset or to the end of the buffer. -/
def contribution? (rank : Nat) : Option Bytes := do
  let start ← g.displacements[rank]?
  let stop := (g.displacements[rank + 1]?).getD g.buffer.length
  return (g.buffer.take stop).drop start

/-- The contributions that begin at the offsets `starts`, each with its rank. -/
def partsFrom (rank : Nat) : List Nat → List (Nat × Bytes)
  | [] => []
  | start :: rest =>
    (rank, (g.buffer.take (rest.headD g.buffer.length)).drop start) :: partsFrom (rank + 1) rest

/-- Every contribution in rank order, empty ones included. -/
def contributions : List (Nat × Bytes) := g.partsFrom 0 g.displacements

/-- The table cuts the buffer into contributions. -/
structure Valid : Prop where
  head_eq : g.displacements.head? = some 0
  ascending : g.displacements.Pairwise (· ≤ ·)
  within : ∀ d ∈ g.displacements, d ≤ g.buffer.length

@[simp]
theorem length_partsFrom (rank : Nat) (starts : List Nat) :
    (g.partsFrom rank starts).length = starts.length := by
  induction starts generalizing rank with
  | nil => rfl
  | cons _ _ ih => simp [partsFrom, ih]

@[simp]
theorem length_contributions : g.contributions.length = g.size := by
  simp [contributions, size]

end Gathered

end ElementGrid
