import ElementGrid.Collection.Basic
/-!
# Building collections

Collections are built from runs, or from a list of numbers whose models are looked up. Neighbours
that continue each other are joined, so that two collections of the same entries are equal.

## Main definitions

* `CollectionError` — why a collection is refused, with its wording
* `Collection.ofRuns`, `Collection.ofEntries` — joining what belongs together
* `Collection.ofGids` — a collection of known, ascending numbers

## Main results

* `Collection.entries_ofRuns` — joining keeps every entry in its place
-/

namespace ElementGrid

/-- Why a collection is refused. -/
inductive CollectionError where
  /-- No element is named. -/
  | empty
  /-- The number `found` does not exceed the one before it. -/
  | notSorted (previous found : Nat)
  /-- No element has the number. -/
  | unknownGid (gid : Nat)
  /-- Both parts name the element. -/
  | overlap (gid : Nat)
  /-- There is no such position. -/
  | indexOutOfRange (index size : Nat)
  /-- The bounds or the stride name no positions. -/
  | invalidSlice (start stop step size : Nat)
  deriving DecidableEq, Repr

/-- The wording of a refused collection. -/
def CollectionError.message : CollectionError → String
  | empty => "collection must contain at least one element"
  | notSorted previous found =>
    s!"GIDs must be strictly increasing, found {found} after {previous}"
  | unknownGid gid => s!"GID {gid} does not name an existing element"
  | overlap gid => s!"collections overlap at GID {gid}"
  | indexOutOfRange index size =>
    s!"index {index} out of range for collection of {size} elements"
  | invalidSlice start stop step size =>
    s!"invalid slice [{start}:{stop}:{step}] for collection of {size} elements"

namespace Collection

/-- The run `r` before the joined runs `rs`: it is joined to the next if that continues it. -/
def joinRun (r : Run) : List Run → List Run
  | [] => [r]
  | s :: rs => if r.Continues s then ⟨r.first, s.last, r.model⟩ :: rs else r :: s :: rs

/-- The runs, each joined to the next where that continues it. -/
def ofRuns (rs : List Run) : Collection := ⟨rs.foldr joinRun []⟩

/-- The collection with the given entries. -/
def ofEntries (es : List (Nat × Nat)) : Collection := ofRuns (es.map fun e => Run.single e.1 e.2)

/-- The entries of a list of numbers that follow `previous`: every number has to exceed the one
before it and to have a model, in this order of complaint. -/
def resolveGids (modelOf : Nat → Option Nat) :
    Option Nat → List Nat → Except CollectionError (List (Nat × Nat))
  | _, [] => .ok []
  | previous, gid :: gids => do
    if let some p := previous then
      if gid ≤ p then throw (.notSorted p gid)
    match modelOf gid with
    | none => throw (.unknownGid gid)
    | some model => return (gid, model) :: (← resolveGids modelOf (some gid) gids)

/-- The collection of the given numbers, which have to be ascending and known. -/
def ofGids (gids : List Nat) (modelOf : Nat → Option Nat) : Except CollectionError Collection :=
  if gids.isEmpty then .error .empty else ofEntries <$> resolveGids modelOf none gids

/-- Every run holds a number. -/
def Nonvoid (rs : List Run) : Prop := ∀ r ∈ rs, r.first ≤ r.last

/-- Two runs of which the second continues the first hold what their union holds. -/
theorem entries_append_of_continues {r s : Run} (hr : r.first ≤ r.last) (hs : s.first ≤ s.last)
    (h : r.Continues s) :
    (⟨r.first, s.last, r.model⟩ : Run).entries = r.entries ++ s.entries := by
  obtain ⟨hm, hl⟩ := h
  simp only [Run.entries, Run.gids, Run.size, ← hm, ← hl, ← List.map_append]
  rw [show s.last + 1 - r.first = (r.last + 1 - r.first) + (s.last + 1 - (r.last + 1)) by omega,
    ← List.range'_append_1, show r.first + (r.last + 1 - r.first) = r.last + 1 by omega]

theorem entries_joinRun {r : Run} {rs : List Run} (hr : r.first ≤ r.last) (hrs : Nonvoid rs) :
    (joinRun r rs).flatMap Run.entries = r.entries ++ rs.flatMap Run.entries := by
  cases rs with
  | nil => simp [joinRun]
  | cons s rs =>
    by_cases h : r.Continues s
    · simp [joinRun, h, entries_append_of_continues hr (hrs s (by simp)) h]
    · simp [joinRun, h]

theorem nonvoid_joinRun {r : Run} {rs : List Run} (hr : r.first ≤ r.last) (hrs : Nonvoid rs) :
    Nonvoid (joinRun r rs) := by
  cases rs with
  | nil => simpa [joinRun, Nonvoid] using hr
  | cons s rs =>
    have hs := hrs s (by simp)
    have htail : Nonvoid rs := fun t ht => hrs t (by simp [ht])
    by_cases h : r.Continues s
    · have hl : r.last + 1 = s.first := h.2
      simp only [joinRun, h, if_true]
      intro t ht
      rcases List.mem_cons.1 ht with rfl | ht
      · show r.first ≤ s.last
        omega
      · exact htail t ht
    · simp only [joinRun, h, if_false]
      intro t ht
      rcases List.mem_cons.1 ht with rfl | ht
      · exact hr
      · exact hrs t ht

theorem nonvoid_ofRuns {rs : List Run} (h : Nonvoid rs) : Nonvoid (ofRuns rs).runs := by
  induction rs with
  | nil => simp [ofRuns, Nonvoid]
  | cons r rs ih =>
    exact nonvoid_joinRun (h r (by simp)) (ih fun s hs => h s (by simp [hs]))

/-- Joining keeps every entry in its place. -/
theorem entries_ofRuns {rs : List Run} (h : Nonvoid rs) :
    (ofRuns rs).entries = rs.flatMap Run.entries := by
  induction rs with
  | nil => simp [ofRuns, entries]
  | cons r rs ih =>
    have hrs : Nonvoid rs := fun s hs => h s (by simp [hs])
    have := entries_joinRun (h r (by simp)) (nonvoid_ofRuns hrs)
    rw [List.flatMap_cons, ← ih hrs]
    exact this

end Collection

end ElementGrid
