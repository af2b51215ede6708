import ElementGrid.View.Canonical
import ElementGrid.Exchange.Program
import ElementGrid.SortedMap
/-!
# Gathering views

Each process contributes what it knows and gets the canonical view, the same on every process. If the
processes do not speak the same protocol the group is torn down, so that nobody waits for the others
in vain.

## Main definitions

* `View.gather` — one round of a view
* `View.gatherInto`, `View.gatherSorted` — a round that is delivered into a map or a list
-/

namespace ElementGrid.View

open Canonical (Outcome)

variable {P : Type}

/-- A gathered table has one contribution of each participant. -/
def checkParticipants (participants : Nat) (g : Gathered) : Except ViewError Unit :=
  if g.size = participants then .ok ()
  else .error (.exchange (.malformedTable (.wrongCount g.size participants)))

/-- The view of a round's reply, of which `sent` was this process's part. -/
def receive [Payload P] (policy : ConflictPolicy) (participants : Nat) (sent : Bytes) :
    Except ExchangeError Gathered → Outcome P
  | .error e => ⟨.error (.exchange e), []⟩
  | .ok g =>
    let arrived := Event.gathered sent.length g.buffer.length
    match checkParticipants participants g with
    | .error e => ⟨.error e, [arrived]⟩
    | .ok () =>
      let o := Canonical.resolve P policy g
      { o with events := arrived :: o.events }

/-- Tears the group down if the processes turn out to disagree on the protocol. -/
def conclude (o : Outcome P) : Exchange (Outcome P) :=
  match o.result with
  | .error e => if e.isViolation then do Exchange.raise e.message; return o else return o
  | .ok _ => return o

/-- One round of a view: contributes the local records and makes the canonical view of what comes
back. Records that cannot be contributed tear the group down, as the others are about to wait. -/
def gather [Payload P] (config : ViewConfig) (participants : Nat) (records : List (ViewRecord P)) :
    Exchange (Outcome P) :=
  match Contribution.encode records with
  | .error e => do
    Exchange.raise e.message
    return ⟨.error e, []⟩
  | .ok bytes => do
    conclude (receive config.policy participants bytes (← Exchange.allGather bytes))

/-- The outcome of a delivery: how many records were delivered, and the destination after it. -/
structure Delivery (D : Type) where
  result : Except ViewError Nat
  destination : D
  events : List Event

/-- Delivers an outcome to a destination; a failure leaves it alone. -/
def Delivery.of {D : Type} (add : D → List (ViewRecord P) → D) (destination : D) (o : Outcome P) :
    Delivery D :=
  match o.result with
  | .ok records => ⟨.ok records.length, add destination records, o.events⟩
  | .error e => ⟨.error e, destination, o.events⟩

/-- The map with every record added in turn. -/
def addToIndex (index : SortedMap Nat P) (records : List (ViewRecord P)) : SortedMap Nat P :=
  records.foldl (fun m r => m.insert r.gid r.payload) index

/-- The list with the records behind it, sorted by element; equal elements keep their order. -/
def addSorted (list records : List (ViewRecord P)) : List (ViewRecord P) :=
  (list ++ records).mergeSort fun a b => a.gid ≤ b.gid

/-- A round that is delivered into a map. -/
def gatherInto [Payload P] (config : ViewConfig) (participants : Nat)
    (records : List (ViewRecord P)) (index : SortedMap Nat P) :
    Exchange (Delivery (SortedMap Nat P)) :=
  Delivery.of addToIndex index <$> gather config participants records

/-- A round that is delivered into a list sorted by element. -/
def gatherSorted [Payload P] (config : ViewConfig) (participants : Nat)
    (records list : List (ViewRecord P)) : Exchange (Delivery (List (ViewRecord P))) :=
  Delivery.of addSorted list <$> gather config participants records

end ElementGrid.View
