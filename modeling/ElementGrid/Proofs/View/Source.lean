import Mathlib.Order.Basic
import ElementGrid.View.Source
import ElementGrid.Proofs.SortedMap
import ElementGrid.Proofs.View.Canonical
/-!
# What a process says

The records of a process say what its instances say: every payload that one of them has for an element,
and no other. Only repetitions by replicas are left out.

## Main definitions

* `Registry.Says` — some instance of a process says something of an element
* `Replicas.Holds` — a table has a payload of an element

## Main results

* `Registry.mem_localRecords_iff` — the records of a process say what its instances say
-/

namespace ElementGrid

variable {E P : Type} [Payload P]

/-- Some instance of the process has the payload with the bytes `raw` for the element `gid`, which the
collection names if one is given. -/
def Registry.Says (r : Registry E) (only : Option Collection) (accessor : Node E → Option P)
    (gid : Nat) (raw : Bytes) : Prop :=
  ∃ w ∈ r.workers, ∃ n ∈ w.store.nodes, n.gid = gid ∧ (only.all fun c => c.contains gid) = true ∧
    ∃ p, accessor n = some p ∧ Payload.encode p = raw

namespace Replicas

/-- The table has a payload of the element with the given bytes. -/
def Holds (table : SortedMap Nat (List P)) (gid : Nat) (raw : Bytes) : Prop :=
  ∃ payloads, table.find? gid = some payloads ∧ ∃ p ∈ payloads, Payload.encode p = raw

theorem exists_mem_add {known : List P} {payload : P} {raw : Bytes} :
    (∃ p ∈ add known payload, Payload.encode p = raw) ↔
      (∃ p ∈ known, Payload.encode p = raw) ∨ Payload.encode payload = raw := by
  rw [add]
  split
  · rename_i hknown
    obtain ⟨p, hp, hsame⟩ := List.any_eq_true.1 hknown
    constructor
    · exact .inl
    · rintro (hold | rfl)
      · exact hold
      · exact ⟨p, hp, by simpa using hsame⟩
  · simp only [List.mem_append, List.mem_singleton]
    constructor
    · rintro ⟨p, hp | rfl, hraw⟩
      · exact .inl ⟨p, hp, hraw⟩
      · exact .inr hraw
    · rintro (⟨p, hp, hraw⟩ | hraw)
      · exact ⟨p, .inl hp, hraw⟩
      · exact ⟨payload, .inr rfl, hraw⟩

/-- What an instance says is in the table from then on. -/
theorem holds_note {table : SortedMap Nat (List P)} {r : ViewRecord P} {gid : Nat} {raw : Bytes} :
    Holds (note table r) gid raw ↔
      Holds table gid raw ∨ (r.gid = gid ∧ Payload.encode r.payload = raw) := by
  by_cases hgid : gid = r.gid
  · subst hgid
    rw [Holds, note, SortedMap.find?_insert_self]
    simp only [Option.some.injEq, exists_eq_left', exists_mem_add, true_and, Holds]
    cases table.find? r.gid with
    | none => simp
    | some payloads => simp
  · rw [Holds, note, SortedMap.find?_insert_ne _ _ hgid]
    simp [Holds, Ne.symm hgid]

omit [Payload P] in
theorem sorted_empty : (.empty : SortedMap Nat (List P)).Sorted := List.Pairwise.nil

theorem sorted_collect (said : List (ViewRecord P)) : (collect said).Sorted := by
  have hfold : ∀ table : SortedMap Nat (List P), table.Sorted → (said.foldl note table).Sorted := by
    induction said with
    | nil => exact fun _ h => h
    | cons r said ih => exact fun table h => ih _ (SortedMap.sorted_insert h _ _)
  exact hfold .empty sorted_empty

theorem holds_collect {said : List (ViewRecord P)} {gid : Nat} {raw : Bytes} :
    Holds (collect said) gid raw ↔ ∃ r ∈ said, r.gid = gid ∧ Payload.encode r.payload = raw := by
  have hfold : ∀ table : SortedMap Nat (List P), Holds (said.foldl note table) gid raw ↔
      Holds table gid raw ∨ ∃ r ∈ said, r.gid = gid ∧ Payload.encode r.payload = raw := by
    induction said with
    | nil => simp
    | cons r said ih =>
      intro table
      rw [List.foldl_cons, ih, holds_note, or_assoc]
      simp only [List.mem_cons, exists_eq_or_imp]
  have hnone : ¬ Holds (.empty : SortedMap Nat (List P)) gid raw := by
    rintro ⟨payloads, hfind, -⟩
    cases hfind
  rw [collect, hfold, or_iff_right hnone]

/-- The records of a table say what the table holds. -/
theorem mem_records_iff {table : SortedMap Nat (List P)} (h : table.Sorted) {gid : Nat} {raw : Bytes} :
    ⟨gid, raw⟩ ∈ (records table).map RawRecord.ofRecord ↔ Holds table gid raw := by
  simp only [records, List.mem_map, List.mem_flatMap, Holds, SortedMap.find?_eq_some_iff h,
    RawRecord.ofRecord, RawRecord.mk.injEq, Prod.exists]
  constructor
  · rintro ⟨_, ⟨_, payloads, hmem, p, hp, rfl⟩, rfl, rfl⟩
    exact ⟨payloads, hmem, p, hp, rfl⟩
  · rintro ⟨payloads, hmem, p, hp, rfl⟩
    exact ⟨⟨gid, p⟩, ⟨gid, payloads, hmem, p, hp, rfl⟩, rfl, rfl⟩

end Replicas

namespace Registry

variable {r : Registry E} {only : Option Collection} {accessor : Node E → Option P}

omit [Payload P] in
theorem mem_sayings_iff {v : ViewRecord P} :
    v ∈ r.sayings only accessor ↔ ∃ w ∈ r.workers, ∃ n ∈ w.store.nodes, n.gid = v.gid ∧
      (only.all fun c => c.contains v.gid) = true ∧ accessor n = some v.payload := by
  obtain ⟨gid, payload⟩ := v
  simp only [sayings, List.mem_flatMap, List.mem_filterMap]
  refine exists_congr fun w => and_congr_right fun _ => exists_congr fun n => and_congr_right fun _ => ?_
  by_cases hnamed : (only.all fun c => c.contains n.gid) = true
  · simp only [hnamed, if_true, Option.map_eq_some_iff, ViewRecord.mk.injEq]
    constructor
    · rintro ⟨p, hp, rfl, rfl⟩
      exact ⟨rfl, hnamed, hp⟩
    · rintro ⟨rfl, -, hp⟩
      exact ⟨payload, hp, rfl, rfl⟩
  · simp only [hnamed]
    constructor
    · rintro ⟨⟩
    · rintro ⟨rfl, hnamed', -⟩
      exact absurd hnamed' hnamed

/-- The records of a process say what its instances say. -/
theorem mem_localRecords_iff {gid : Nat} {raw : Bytes} :
    ⟨gid, raw⟩ ∈ (r.localRecords only accessor).map RawRecord.ofRecord ↔
      r.Says only accessor gid raw := by
  rw [localRecords, Replicas.mem_records_iff (Replicas.sorted_collect _), Replicas.holds_collect]
  simp only [mem_sayings_iff, Says]
  constructor
  · rintro ⟨⟨_, p⟩, ⟨w, hw, n, hn, hgid, hnamed, hp⟩, rfl, rfl⟩
    exact ⟨w, hw, n, hn, hgid, hnamed, p, hp, rfl⟩
  · rintro ⟨w, hw, n, hn, hgid, hnamed, p, hp, rfl⟩
    exact ⟨⟨gid, p⟩, ⟨w, hw, n, hn, hgid, hnamed, hp⟩, rfl, rfl⟩

end Registry

end ElementGrid
