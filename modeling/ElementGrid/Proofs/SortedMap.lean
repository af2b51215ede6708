import ElementGrid.SortedMap
/-!
# Sorted maps stay sorted

Insertions keep the keys in order, so a key has one entry and a look-up finds it.

## Main results

* `SortedMap.sorted_insert` — an insertion keeps the order
* `SortedMap.find?_insert` — an insertion sets one key
* `SortedMap.eq_of_find?` — the look-ups determine the map
* `SortedMap.find?_eq_some_iff` — a look-up finds the entry of its key
* `SortedMap.find?_eq_none_iff` — and nothing if the key has none
* `SortedMap.contains_iff` — the keys are those that have an entry
-/

namespace ElementGrid.SortedMap

variable {K V : Type} [LT K] [DecidableEq K]

theorem mem_of_mem_insertIn [DecidableLT K] {k : K} {v : V} {entries : List (K × V)} {e : K × V}
    (h : e ∈ insertIn k v entries) : e = (k, v) ∨ e ∈ entries := by
  induction entries with
  | nil => exact .inl (List.mem_singleton.1 h)
  | cons e' rest ih =>
    rw [insertIn] at h
    split at h
    · exact List.mem_cons.1 h
    · split at h
      · exact (List.mem_cons.1 h).imp_right (List.mem_cons_of_mem e')
      · rcases List.mem_cons.1 h with rfl | h
        · exact .inr List.mem_cons_self
        · exact (ih h).imp_right (List.mem_cons_of_mem e')

theorem sorted_insert [DecidableLT K] [LE K] [Std.IsLinearOrder K] [Std.LawfulOrderLT K]
    {m : SortedMap K V} (h : m.Sorted) (k : K) (v : V) : (m.insert k v).Sorted := by
  obtain ⟨entries⟩ := m
  rw [Sorted] at h ⊢
  show (insertIn k v entries).Pairwise _
  induction entries with
  | nil => exact List.pairwise_singleton _ _
  | cons e rest ih =>
    obtain ⟨hfirst, hrest⟩ := List.pairwise_cons.1 h
    rw [insertIn]
    split
    · rename_i hlt
      refine List.pairwise_cons.2 ⟨fun a ha => ?_, h⟩
      rcases List.mem_cons.1 ha with rfl | ha
      · exact hlt
      · exact Std.lt_trans hlt (hfirst a ha)
    · split
      · rename_i heq
        refine List.pairwise_cons.2 ⟨fun a ha => ?_, hrest⟩
        rw [heq]
        exact hfirst a ha
      · rename_i hle hne
        refine List.pairwise_cons.2 ⟨fun a ha => ?_, ih hrest⟩
        rcases mem_of_mem_insertIn ha with rfl | ha
        · exact Std.lt_of_le_of_ne (Std.not_lt.1 hle) (Ne.symm hne)
        · exact hfirst a ha

theorem find?_eq_some_iff [LE K] [Std.LawfulOrderLT K] {m : SortedMap K V} (h : m.Sorted) {k : K}
    {v : V} : m.find? k = some v ↔ (k, v) ∈ m.entries := by
  obtain ⟨entries⟩ := m
  show findIn? k entries = some v ↔ (k, v) ∈ entries
  rw [Sorted] at h
  induction entries with
  | nil => simp [findIn?]
  | cons e rest ih =>
    obtain ⟨hfirst, hrest⟩ := List.pairwise_cons.1 h
    rw [findIn?]
    split
    · rename_i heq
      subst heq
      constructor
      · rintro ⟨⟩
        exact List.mem_cons_self
      · intro hmem
        rcases List.mem_cons.1 hmem with heq | hmem
        · rw [← heq]
        · exact absurd (hfirst _ hmem) Std.lt_irrefl
    · rename_i hne
      rw [ih hrest, List.mem_cons]
      constructor
      · exact .inr
      · rintro (rfl | hmem)
        · exact absurd rfl hne
        · exact hmem

/-- A sorted map is determined by its look-ups. -/
theorem eq_of_find? [LE K] [Std.IsLinearOrder K] [Std.LawfulOrderLT K] {m m' : SortedMap K V}
    (h : m.Sorted) (h' : m'.Sorted) (hfind : ∀ k, m.find? k = m'.find? k) : m = m' := by
  have hnodup : ∀ {m : SortedMap K V}, m.Sorted → m.entries.Nodup :=
    fun hm => List.Pairwise.imp (fun hlt heq => by subst heq; exact Std.lt_irrefl hlt) hm
  have hmem : ∀ e, e ∈ m.entries ↔ e ∈ m'.entries := fun (k, v) => by
    rw [← find?_eq_some_iff h, hfind k, find?_eq_some_iff h']
  have hperm := (List.perm_ext_iff_of_nodup (hnodup h) (hnodup h')).2 hmem
  have hentries := hperm.eq_of_pairwise
    (fun a b _ _ hab hba => absurd (Std.lt_trans hab hba) Std.lt_irrefl) h h'
  obtain ⟨entries⟩ := m
  exact congrArg mk hentries

/-- An insertion sets one key and leaves the others alone. -/
theorem find?_insert [DecidableLT K] (m : SortedMap K V) (k : K) (v : V) (key : K) :
    (m.insert k v).find? key = if key = k then some v else m.find? key := by
  split
  · rename_i heq
    rw [heq, find?_insert_self]
  · rename_i hne
    exact find?_insert_ne m v hne

omit [LT K] in
/-- A look-up finds nothing if and only if the key has no entry, in whatever order the entries are. -/
theorem find?_eq_none_iff {m : SortedMap K V} {k : K} : m.find? k = none ↔ k ∉ m.keys := by
  obtain ⟨entries⟩ := m
  show findIn? k entries = none ↔ k ∉ entries.map Prod.fst
  induction entries with
  | nil => simp [findIn?]
  | cons e rest ih =>
    rw [findIn?]
    split
    · rename_i heq
      simp [heq]
    · rename_i hne
      simp [ih, hne]

omit [LT K] in
theorem contains_iff {m : SortedMap K V} {k : K} : m.contains k = true ↔ k ∈ m.keys := by
  rw [contains, Option.isSome_iff_ne_none, ne_eq, find?_eq_none_iff, Classical.not_not]

omit [DecidableEq K] in
theorem Sorted.pairwise_keys {m : SortedMap K V} (h : m.Sorted) : m.keys.Pairwise (· < ·) :=
  List.pairwise_map.2 h

end ElementGrid.SortedMap
