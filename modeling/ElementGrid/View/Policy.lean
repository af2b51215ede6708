import ElementGrid.Document
/-!
# View settings

What a view does when two processes send different payloads for one element.

## Main definitions

* `ConflictPolicy` — refuse the round, or keep the payload of the lowest rank
* `ViewConfig` — the settings of a view, with their document
-/

namespace ElementGrid

/-- What a view does with different payloads for one element. -/
inductive ConflictPolicy where
  /-- The round fails. -/
  | reject
  /-- The payload of the lowest rank is kept. -/
  | lowestRankWins
  deriving DecidableEq, Repr, Inhabited

namespace ConflictPolicy

/-- The name of a policy in settings documents. -/
def name : ConflictPolicy → String
  | reject => "reject"
  | lowestRankWins => "lowest_rank_wins"

/-- All policies. -/
def all : List ConflictPolicy := [reject, lowestRankWins]

/-- A policy is named in a document by its name. -/
def ofDocument? : Document → Option ConflictPolicy :=
  Document.variant? (all.map fun p => (p.name, p))

end ConflictPolicy

/-- The settings of a view. -/
structure ViewConfig where
  policy : ConflictPolicy := .reject
  deriving DecidableEq, Repr, Inhabited

namespace ViewConfig

/-- The settings that a document describes; a missing policy is the default. -/
def ofDocument? (d : Document) : Option ViewConfig := do
  let entries ← d.entries? ["conflict_policy"]
  return { policy :=
    ← Document.entryD entries "conflict_policy" ConflictPolicy.ofDocument? ({} : ViewConfig).policy }

/-- The document that describes the settings. -/
def toDocument (c : ViewConfig) : Document :=
  .object [("conflict_policy", .string c.policy.name)]

end ViewConfig

end ElementGrid
