import ElementGrid.Exchange.Program
import ElementGrid.Text.Inspect
/-!
# Groups

The processes of a group meet in rounds. A round is complete when every rank has contributed; the
last one to come joins the contributions, and the others find the result when they wake up. The group
remembers one result only, that of the latest complete round.

## Main definitions

* `Group` — what the members of a group share
* `Group.enter` — a member comes with its contribution
* `Group.wake` — a waiting member looks whether its round is over
* `Group.abort` — the group is torn down

## Design notes

Each of these is one step: no other member acts while it is taken.
-/

namespace ElementGrid

/-- What the members of a group share. -/
structure Group where
  /-- How many ranks there are. -/
  size : Nat
  /-- How many rounds have been completed. -/
  generation : Nat := 0
  /-- What each rank has contributed to the round under way. -/
  slots : List (Option Bytes)
  /-- How many ranks have contributed to the round under way. -/
  arrived : Nat := 0
  /-- What came of the latest complete round. -/
  result : Option (Except ExchangeError Gathered) := none
  /-- Why the group was torn down first. -/
  aborted : Option String := none

/-- What becomes of a member that enters a round. -/
inductive Arrival where
  /-- It has its answer at once. -/
  | answered (reply : Except ExchangeError Gathered)
  /-- It waits for the round with this number to be over. -/
  | waiting (generation : Nat)

namespace Group

/-- A group of `size` ranks that has not met yet. -/
def ofSize (size : Nat) : Group := { size, slots := List.replicate size none }

variable (g : Group)

/-- The answer to a rank that has already contributed. -/
def reentry (rank : Nat) : ExchangeError :=
  .aborted s!"rank {rank} entered the same round twice"

/-- The group after its round is complete. -/
def complete (slots : List (Option Bytes)) : Except ExchangeError Gathered × Group :=
  let reply := Gathered.ofContributions (slots.map (·.getD []))
  (reply, { g with
    generation := g.generation + 1
    slots := slots.map fun _ => none
    arrived := 0
    result := some reply })

/-- A member comes with its contribution. It is turned away if the group has been torn down or its
rank has already contributed; the last rank to come completes the round. -/
def enter (rank : Nat) (contribution : Bytes) : Arrival × Group :=
  match g.aborted with
  | some reason => (.answered (.error (.aborted reason)), g)
  | none =>
    if ((g.slots[rank]?).getD none).isSome then (.answered (.error (reentry rank)), g)
    else
      let slots := g.slots.set rank (some contribution)
      if g.arrived + 1 = g.size then
        let (reply, g') := g.complete slots
        (.answered reply, g')
      else (.waiting g.generation, { g with slots, arrived := g.arrived + 1 })

/-- What a member finds that has waited for the round with number `generation`: nothing yet, that the
group was torn down before the round was over, or the latest result. -/
def wake (generation : Nat) : Option (Except ExchangeError Gathered) :=
  if g.generation = generation then g.aborted.map fun reason => .error (.aborted reason)
  else some (g.result.getD (.error (.aborted "round completed without a result")))

/-- The group is torn down; the first reason stands. -/
def abort (reason : String) : Group := { g with aborted := some (g.aborted.getD reason) }

/-- The group has been torn down. -/
def isAborted : Bool := g.aborted.isSome

/-- A rank's handle on the group as it is shown. -/
def inspect (rank : Nat) : String :=
  Inspect.record "MemoryCollective"
    [("rank", Inspect.number "Rank" rank), ("size", toString g.size)] true

end Group

end ElementGrid
