import ElementGrid.Exchange.Group
/-!
# Sessions

A session is a group together with the programs that its members run. It goes on step by step: a
schedule says whose turn it is, and a member that waits in a round may be given a turn in vain.

## Main definitions

* `Participant` — a member in the middle of its program
* `Session` — a group and its members
* `Session.step`, `Session.run` — one turn, and the turns of a schedule
* `Session.settle` — turns in rotation
* `Session.results?` — what the programs came to

## Design notes

Members are told apart by their place in the list and not by their rank, so several of them can act
for one rank.
-/

namespace ElementGrid

/-- A member in the middle of its program. -/
structure Participant (α : Type) where
  rank : Nat
  program : Exchange α
  /-- The round that it waits for, if its program is at a gathering that it has entered. -/
  awaited : Option Nat := none

/-- One turn of a member. -/
def Participant.step {α : Type} (g : Group) (p : Participant α) : Group × Participant α :=
  match p.program with
  | .done _ => (g, p)
  | .abort reason next => (g.abort reason, { p with program := next })
  | .poll next => (g, { p with program := next g.isAborted })
  | .gather contribution next =>
    match p.awaited with
    | some generation =>
      match g.wake generation with
      | some reply => (g, { p with program := next reply, awaited := none })
      | none => (g, p)
    | none =>
      match g.enter p.rank contribution with
      | (.answered reply, g') => (g', { p with program := next reply })
      | (.waiting generation, g') => (g', { p with awaited := some generation })

/-- A group and its members. -/
structure Session (α : Type) where
  group : Group
  participants : List (Participant α)

namespace Session

variable {α : Type}

/-- A session of a group in which the members at the given ranks start their programs. -/
def start (group : Group) (programs : List (Nat × Exchange α)) : Session α :=
  ⟨group, programs.map fun (rank, program) => { rank, program }⟩

/-- A session in which the programs are run by ranks `0`, `1`, …. -/
def ofPrograms (group : Group) (programs : List (Exchange α)) : Session α :=
  start group (programs.zipIdx.map fun (program, rank) => (rank, program))

variable (s : Session α)

/-- The turn of the `i`-th member. -/
def step (i : Nat) : Session α :=
  match s.participants[i]? with
  | none => s
  | some p =>
    let (g, p') := p.step s.group
    ⟨g, s.participants.set i p'⟩

/-- The turns of a schedule. -/
def run (schedule : List Nat) : Session α := schedule.foldl step s

/-- So many rotations, in each of which every member has one turn. -/
def settle : Nat → Session α → Session α
  | 0, s => s
  | rotations + 1, s => settle rotations (s.run (List.range s.participants.length))

/-- What a member's program came to. -/
def result? (p : Participant α) : Option α :=
  match p.program with
  | .done a => some a
  | _ => none

/-- What the programs came to, if all are over. -/
def results? : Option (List α) := s.participants.mapM result?

end Session

end ElementGrid
