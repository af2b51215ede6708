/-!
# Sorted maps

A map is the list of its entries by ascending key. Status dictionaries and view indexes are such
maps: they are shown in key order, and two of them are equal when they hold the same entries.

## Main definitions

* `SortedMap` — entries by ascending key
* `SortedMap.insert`, `SortedMap.find?`, `SortedMap.keys` — the operations
* `SortedMap.Sorted` — the order that `insert` keeps

## Main results

* `SortedMap.find?_insert_self`, `SortedMap.find?_insert_ne` — an insertion changes one key
-/

namespace ElementGrid

/-- Entries by ascending key. -/
structure SortedMap (K V : Type) where
  entries : List (K × V)
  deriving DecidableEq, Repr, Inhabited

namespace SortedMap

variable {K V : Type}

/-- The map without entries. -/
def empty : SortedMap K V := ⟨[]⟩

/-- The keys in order. -/
def keys (m : SortedMap K V) : List K := m.entries.map Prod.fst

section Order

variable [LT K] [DecidableLT K] [DecidableEq K]

/-- The entry of `k` among `entries` becomes `v`. -/
def insertIn (k : K) (v : V) : List (K × V) → List (K × V)
  | [] => [(k, v)]
  | (k', v') :: rest =>
    if k < k' then (k, v) :: (k', v') :: rest
    else if k = k' then (k, v) :: rest
    else (k', v') :: insertIn k v rest

/-- The map with the value `v` at `k`. -/
def insert (m : SortedMap K V) (k : K) (v : V) : SortedMap K V := ⟨insertIn k v m.entries⟩

/-- The map of a list of pairs; of two pairs with one key the later counts. -/
def ofList (pairs : List (K × V)) : SortedMap K V :=
  pairs.foldl (fun m p => m.insert p.1 p.2) empty

/-- The map with all pairs added in turn. -/
def insertAll (m : SortedMap K V) (pairs : List (K × V)) : SortedMap K V :=
  pairs.foldl (fun m p => m.insert p.1 p.2) m

end Order

section Lookup

variable [DecidableEq K]

/-- The value at `k` among `entries`. -/
def findIn? (k : K) : List (K × V) → Option V
  | [] => none
  | (k', v) :: rest => if k = k' then some v else findIn? k rest

/-- The value at `k`. -/
def find? (m : SortedMap K V) (k : K) : Option V := findIn? k m.entries

/-- The map has an entry at `k`. -/
def contains (m : SortedMap K V) (k : K) : Bool := (m.find? k).isSome

end Lookup

/-- The keys ascend. -/
def Sorted [LT K] (m : SortedMap K V) : Prop := m.entries.Pairwise fun a b => a.1 < b.1

section Lemmas

variable [LT K] [DecidableLT K] [DecidableEq K] (m : SortedMap K V)

theorem find?_insert_self (k : K) (v : V) : (m.insert k v).find? k = some v := by
  simp only [insert, find?]
  induction m.entries with
  | nil => simp [insertIn, findIn?]
  | cons e rest ih =>
    obtain ⟨k', v'⟩ := e
    unfold insertIn
    split
    · simp [findIn?]
    · split
      · simp [findIn?]
      · rename_i hne
        simp [findIn?, hne, ih]

theorem find?_insert_ne {k k' : K} (v : V) (h : k' ≠ k) : (m.insert k v).find? k' = m.find? k' := by
  simp only [insert, find?]
  induction m.entries with
  | nil => simp [insertIn, findIn?, h]
  | cons e rest ih =>
    obtain ⟨k'', v''⟩ := e
    unfold insertIn
    split
    · simp [findIn?, h]
    · split
      · rename_i heq
        subst heq
        simp [findIn?, h]
      · simp only [findIn?, ih]

end Lemmas

end SortedMap

end ElementGrid
