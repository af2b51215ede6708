import ElementGrid.Ident
/-!
# Collections of elements

A collection names elements by ascending global number, each with its model. Creation gives out
consecutive numbers, so a collection is stored as runs of consecutive numbers of one model.

## Main definitions

* `Run` — consecutive numbers of one model
* `Collection` — a list of runs
* `Collection.entries`, `Collection.gids` — the flat view: every element in turn
* `Collection.size`, `entryAt?`, `run?`, `modelOf?` — queries that work on the runs alone
* `Collection.Canonical` — the runs of a collection are as few as possible and in order

## Design notes

A query never expands a run, so a collection of all numbers is as cheap as a small one. The flat
view is what the queries mean.
-/

namespace ElementGrid

/-- The consecutive numbers from `first` to `last`, all of one model. -/
structure Run where
  first : Nat
  last : Nat
  model : Nat
  deriving DecidableEq, Repr, Inhabited

namespace Run

/-- The run of `count` numbers from `first` on; a run holds at least one number. -/
def ofCount (first count model : Nat) : Run := ⟨first, first + (count - 1), model⟩

/-- The run of one number. -/
def single (gid model : Nat) : Run := ⟨gid, gid, model⟩

variable (r : Run)

/-- How many numbers the run holds. -/
def size : Nat := r.last + 1 - r.first

/-- The run holds the number `gid`. -/
def contains (gid : Nat) : Bool := r.first ≤ gid && gid ≤ r.last

/-- The numbers of the run in order. -/
def gids : List Nat := List.range' r.first r.size

/-- The numbers of the run in order, each with the model. -/
def entries : List (Nat × Nat) := r.gids.map fun gid => (gid, r.model)

/-- The run `s` goes on where `r` ends, with elements of the same model. -/
def Continues (s : Run) : Prop := r.model = s.model ∧ r.last + 1 = s.first

instance (s : Run) : Decidable (r.Continues s) := inferInstanceAs (Decidable (_ ∧ _))

@[simp]
theorem length_gids : r.gids.length = r.size := by simp [gids]

@[simp]
theorem length_entries : r.entries.length = r.size := by simp [entries]

@[simp]
theorem map_fst_entries : r.entries.map Prod.fst = r.gids := by
  simp [entries, Function.comp_def]

theorem entries_single (gid model : Nat) : (single gid model).entries = [(gid, model)] := by
  simp [entries, gids, size, single]

theorem contains_eq_true {gid : Nat} :
    r.contains gid = true ↔ r.first ≤ gid ∧ gid ≤ r.last := by
  simp only [contains, Bool.and_eq_true, decide_eq_true_eq]

theorem mem_gids {gid : Nat} : gid ∈ r.gids ↔ r.contains gid = true := by
  rw [contains_eq_true, gids, size, List.mem_range'_1]
  omega

theorem last_ofCount (first model : Nat) {count : Nat} (h : count ≠ 0) :
    (ofCount first count model).last + 1 = first + count := by
  simp only [ofCount]
  omega

theorem gids_ofCount (first model : Nat) {count : Nat} (h : count ≠ 0) :
    (ofCount first count model).gids = List.range' first count := by
  rw [gids, size, last_ofCount first model h]
  exact congrArg (List.range' first) (Nat.add_sub_cancel_left first count)

end Run

/-- Elements by ascending number, stored as runs. -/
structure Collection where
  runs : List Run
  deriving DecidableEq, Repr, Inhabited

namespace Collection

/-- The collection of one run. -/
def ofRun (r : Run) : Collection := ⟨[r]⟩

variable (c : Collection)

/-- Every element in turn, with its model. -/
def entries : List (Nat × Nat) := c.runs.flatMap Run.entries

/-- Every element in turn. -/
def gids : List Nat := c.runs.flatMap Run.gids

/-- How many elements the collection names. -/
def size : Nat := c.runs.foldr (fun r n => r.size + n) 0

/-- The collection names no element. -/
def isEmpty : Bool := c.runs.isEmpty

/-- The collection is a single run. -/
def isPrimitive : Bool := c.runs.length == 1

/-- The first element. -/
def first? : Option Nat := c.runs.head?.map Run.first

/-- The last element. -/
def last? : Option Nat := c.runs.getLast?.map Run.last

/-- The element at a position of the runs, with its model: each run in turn takes its share of the
position. -/
def entryIn? : List Run → Nat → Option (Nat × Nat)
  | [], _ => none
  | r :: rs, i => if i < r.size then some (r.first + i, r.model) else entryIn? rs (i - r.size)

/-- The element at a position, with its model. -/
def entryAt? (i : Nat) : Option (Nat × Nat) := entryIn? c.runs i

/-- The run that holds `gid`: only the first run that does not end before `gid` can. -/
def run? (gid : Nat) : Option Run :=
  (c.runs.find? fun r => gid ≤ r.last).filter fun r => r.contains gid

/-- The collection names `gid`. -/
def contains (gid : Nat) : Bool := (c.run? gid).isSome

/-- The model under which the collection names `gid`. -/
def modelOf? (gid : Nat) : Option Nat := (c.run? gid).map Run.model

/-- The runs are in order and apart, none is void, and none continues the one before it. -/
structure Canonical : Prop where
  ne_nil : c.runs ≠ []
  first_le_last : ∀ r ∈ c.runs, r.first ≤ r.last
  apart : c.runs.Pairwise fun r s => r.last < s.first
  maximal : ∀ r s, [r, s] <:+: c.runs → ¬ r.Continues s

@[simp]
theorem gids_ofRun (r : Run) : (ofRun r).gids = r.gids := by
  simp [gids, ofRun]

theorem map_fst_entries : c.entries.map Prod.fst = c.gids := by
  simp [entries, gids, List.map_flatMap]

@[simp]
theorem length_entries : c.entries.length = c.size := by
  obtain ⟨rs⟩ := c
  induction rs with
  | nil => rfl
  | cons r rs ih =>
    simp only [entries, size, List.flatMap_cons, List.length_append, List.foldr_cons,
      Run.length_entries] at ih ⊢
    omega

@[simp]
theorem length_gids : c.gids.length = c.size := by
  rw [← map_fst_entries, List.length_map, length_entries]

end Collection

end ElementGrid
