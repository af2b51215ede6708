import ElementGrid.Proofs.Collection.Canonical
import ElementGrid.Proofs.Collection.Halving
/-!
# Queries on runs

A query works on the runs of a collection and expands none of them. On runs that hold numbers and stand in
order and apart, it answers as a search of all elements would, one after the other.

## Main results

* `Collection.first?_eq`, `Collection.last?_eq` — the ends of a collection
* `Collection.get_eq_ok`, `Collection.get_eq_error` — the element at a position
* `Collection.run?_eq_some_iff` — the one run that holds a number
* `Collection.contains_iff`, `Collection.modelOf?_eq_some_iff` — the elements and their models
* `Collection.queries_flat` — all queries on a canonical collection
-/

namespace ElementGrid

namespace Run

variable {r : Run}

theorem head?_gids (h : r.first ≤ r.last) : r.gids.head? = some r.first := by
  have hsize : r.size ≠ 0 := by
    rw [size]
    omega
  rw [gids, List.head?_range', if_neg hsize]

theorem getLast?_gids (h : r.first ≤ r.last) : r.gids.getLast? = some r.last := by
  have hsize : r.size ≠ 0 := by
    rw [size]
    omega
  have hlast : r.first + r.size - 1 = r.last := by
    rw [size]
    omega
  rw [gids, List.getLast?_range', if_neg hsize, hlast]

theorem mem_entries {gid model : Nat} :
    (gid, model) ∈ r.entries ↔ r.contains gid = true ∧ r.model = model := by
  rw [entries, List.mem_map]
  constructor
  · rintro ⟨_, hmem, heq⟩
    cases heq
    exact ⟨mem_gids r |>.1 hmem, rfl⟩
  · rintro ⟨hcontains, rfl⟩
    exact ⟨gid, mem_gids r |>.2 hcontains, rfl⟩

end Run

namespace Collection

variable {c : Collection} {r : Run} {gid model : Nat}

/-! ## The ends -/

/-- A search that every element of a list ends, ends at the first. -/
theorem findSome?_eq_head? {α β : Type} {f : α → Option β} {g : α → β} {l : List α}
    (h : ∀ a ∈ l, f a = some (g a)) : l.findSome? f = l.head?.map g := by
  cases l with
  | nil => rfl
  | cons a l => simp [h a List.mem_cons_self]

theorem first?_eq (h : Nonvoid c.runs) : c.first? = c.gids.head? := by
  rw [gids, List.head?_flatMap, findSome?_eq_head? fun r hr => Run.head?_gids (h r hr)]
  rfl

theorem last?_eq (h : Nonvoid c.runs) : c.last? = c.gids.getLast? := by
  have hends : ∀ r ∈ c.runs.reverse, r.gids.getLast? = some r.last :=
    fun r hr => Run.getLast?_gids (h r (List.mem_reverse.1 hr))
  rw [gids, List.getLast?_flatMap, findSome?_eq_head? hends, List.head?_reverse]
  rfl

/-! ## By position -/

theorem get_eq_ok {i : Nat} (h : i < c.gids.length) : c.get i = .ok c.gids[i] := by
  have hentries : i < c.entries.length := by simpa using h
  have hgid : c.gids[i] = c.entries[i].1 := by simp [← map_fst_entries]
  rw [get, entryAt?_eq, List.getElem?_eq_getElem hentries, hgid]

theorem get_eq_error {i : Nat} (h : c.gids.length ≤ i) :
    c.get i = .error (.indexOutOfRange i c.gids.length) := by
  have hentries : c.entries.length ≤ i := by simpa using h
  rw [get, entryAt?_eq, List.getElem?_eq_none hentries, length_gids]

/-! ## By number -/

theorem mem_gids_iff : gid ∈ c.gids ↔ ∃ r ∈ c.runs, r.contains gid = true := by
  simp only [gids, List.mem_flatMap, Run.mem_gids]

theorem mem_entries_iff :
    (gid, model) ∈ c.entries ↔ ∃ r ∈ c.runs, r.contains gid = true ∧ r.model = model := by
  simp only [entries, List.mem_flatMap, Run.mem_entries]

section Apart

variable (hapart : c.runs.Pairwise fun r s => r.last < s.first)
include hapart

/-- The run that holds a number is the first that does not end before it. -/
theorem run?_eq_some_iff : c.run? gid = some r ↔ r ∈ c.runs ∧ r.contains gid = true := by
  rw [run?, Option.filter_eq_some_iff]
  refine and_congr_left fun hgid => ⟨List.mem_of_find?_eq_some, fun hr => ?_⟩
  obtain ⟨front, back, hruns⟩ := List.append_of_mem hr
  have hbefore : ∀ s ∈ front, s.last < r.first := by
    intro s hs
    rw [hruns, List.pairwise_append] at hapart
    exact hapart.2.2 s hs r List.mem_cons_self
  rw [Run.contains_eq_true] at hgid
  refine List.find?_eq_some_iff_append.2 ⟨decide_eq_true hgid.2, front, back, hruns, fun s hs => ?_⟩
  have := hbefore s hs
  simp only [Bool.not_eq_true', decide_eq_false_iff_not]
  omega

theorem contains_iff : c.contains gid = true ↔ gid ∈ c.gids := by
  rw [contains, Option.isSome_iff_exists, mem_gids_iff]
  simp only [run?_eq_some_iff hapart]

theorem modelOf?_eq_some_iff : c.modelOf? gid = some model ↔ (gid, model) ∈ c.entries := by
  rw [modelOf?, Option.map_eq_some_iff, mem_entries_iff]
  simp only [run?_eq_some_iff hapart, and_assoc]

theorem modelOf?_eq_none_iff : c.modelOf? gid = none ↔ gid ∉ c.gids := by
  rw [modelOf?, Option.map_eq_none_iff, ← contains_iff hapart, contains, Option.not_isSome_iff_eq_none]

end Apart

/-- Every query on a canonical collection answers as the list of all its elements does: how many there are,
which is the first and which the last, which is at a position, whether a number is among them, and of which
model it is then. The run that holds a number, if any does, is found by halving as well. -/
theorem queries_flat (hc : c.Canonical) :
    c.size = c.gids.length ∧ c.first? = c.gids.head? ∧ c.last? = c.gids.getLast? ∧
    (∀ i (h : i < c.gids.length), c.get i = .ok c.gids[i]) ∧
    (∀ i, c.gids.length ≤ i → c.get i = .error (.indexOutOfRange i c.gids.length)) ∧
    (∀ gid, c.contains gid = true ↔ gid ∈ c.gids) ∧
    (∀ gid model, c.modelOf? gid = some model ↔ (gid, model) ∈ c.entries) ∧
    (∀ gid, c.modelOf? gid = none ↔ gid ∉ c.gids) ∧
    ∀ gid, c.run? gid =
      (c.runs[Run.bisect c.runs gid 0 c.runs.length]?).filter fun r => r.contains gid := by
  have hapart := hc.apart
  refine ⟨c.length_gids.symm, first?_eq hc.first_le_last, last?_eq hc.first_le_last,
    fun i => get_eq_ok, fun i => get_eq_error, fun gid => contains_iff hapart,
    fun gid model => modelOf?_eq_some_iff hapart, fun gid => modelOf?_eq_none_iff hapart, fun gid => ?_⟩
  rw [run?, Run.getElem?_bisect hc.first_le_last hapart]

/-- Nine elements of two models with a gap among them and runs that touch. -/
theorem queries_flat_gap :
    let c : Collection := ⟨[⟨2, 4, 0⟩, ⟨5, 5, 1⟩, ⟨9, 13, 0⟩]⟩
    c.Canonical ∧ c.last? = some 13 ∧ c.get 4 = .ok 9 ∧ c.get 9 = .error (.indexOutOfRange 9 9) ∧
      c.contains 7 = false ∧ c.modelOf? 5 = some 1 ∧ c.modelOf? 8 = none := by
  intro c
  have hc : c.Canonical := canonical_iff.2 ⟨by decide, by simp [c, joined_cons_iff, joined_nil,
    Run.Continues]⟩
  have hgids : c.gids = [2, 3, 4, 5, 9, 10, 11, 12, 13] := rfl
  obtain ⟨-, -, hlast, hget, hbeyond, hcontains, hmodel, hnone, -⟩ := queries_flat hc
  refine ⟨hc, hlast, hget 4 (by decide), hbeyond 9 (by decide), ?_, (hmodel 5 1).2 (by decide),
    (hnone 8).2 (by decide)⟩
  rw [Bool.eq_false_iff, Ne, hcontains, hgids]
  decide

end Collection

end ElementGrid
