import ElementGrid.View.Contribution
import ElementGrid.View.Policy
import ElementGrid.Event
/-!
# Canonical views

The records of all ranks are put in order by element and rank, and one record of each element is kept:
the first. A later one that says the same is a duplicate; one that says something else is a conflict.

## Main definitions

* `Canonical.sorted` — the order, which keeps what one rank sent in its order
* `Canonical.scan` — keeps one record of each element
* `Canonical.resolve` — the canonical view of gathered contributions, with its events
-/

namespace ElementGrid.Canonical

variable {P : Type}

/-- The order by element and then by rank. -/
def before (a b : Contributed P) : Bool := a.gid < b.gid || (a.gid == b.gid && a.rank ≤ b.rank)

/-- The records by element and rank; records of one element and rank keep their order. -/
def sorted (records : List (Contributed P)) : List (Contributed P) := records.mergeSort before

/-- What a scan keeps and drops. -/
structure Kept (P : Type) where
  records : List (ViewRecord P) := []
  /-- How many dropped records said nothing new. -/
  duplicates : Nat := 0
  /-- How many dropped records said something else. -/
  conflicts : Nat := 0

/-- One record of each element, where `kept` is the record kept last. A conflict fails under a
rejecting policy; else the kept record stands. -/
def scan (policy : ConflictPolicy) :
    Option (Contributed P) → List (Contributed P) → Except ViewError (Kept P)
  | _, [] => .ok {}
  | kept, r :: rest =>
    match kept.filter fun k => k.gid == r.gid with
    | none => do
      let k ← scan policy (some r) rest
      return { k with records := ⟨r.gid, r.payload⟩ :: k.records }
    | some k =>
      if k.raw = r.raw then do
        let k ← scan policy kept rest
        return { k with duplicates := k.duplicates + 1 }
      else
        match policy with
        | .reject => .error (.conflict r.gid k.rank r.rank)
        | .lowestRankWins => do
          let k ← scan policy kept rest
          return { k with conflicts := k.conflicts + 1 }

/-- What a scan reports: each conflict as it is met, and the duplicates at the end. -/
def Kept.events (k : Kept P) : List Event :=
  List.replicate k.conflicts .conflict ++
    if k.duplicates = 0 then [] else [.duplicates k.duplicates]

/-- The outcome of making a view: the canonical records, and what was reported on the way. -/
structure Outcome (P : Type) where
  result : Except ViewError (List (ViewRecord P))
  events : List Event := []

/-- The canonical view of records from all ranks. -/
def canonicalize (policy : ConflictPolicy) (records : List (Contributed P)) : Outcome P :=
  match scan policy none (sorted records) with
  | .ok k => ⟨.ok k.records, k.events⟩
  | .error e => ⟨.error e, []⟩

/-- The records of all ranks in rank order; the first contribution that cannot be read decides. -/
def decodeAll (P : Type) [Payload P] (g : Gathered) : Except ViewError (List (Contributed P)) :=
  List.flatten <$> g.contributions.mapM fun (rank, bytes) => Contribution.decode P rank bytes

/-- The canonical view of gathered contributions. -/
def resolve (P : Type) [Payload P] (policy : ConflictPolicy) (g : Gathered) : Outcome P :=
  match decodeAll P g with
  | .ok records => canonicalize policy records
  | .error e => ⟨.error e, []⟩

end ElementGrid.Canonical
