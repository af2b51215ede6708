import ElementGrid.Exchange.Gathered
/-!
# Joining and taking apart

Contributions that are joined come back, each with its rank, and joining fails only where there is
nobody to contribute.

## Main results

* `Gathered.ofContributions_eq_ok` — the table of joined contributions is accepted
* `Gathered.contributions_of_ofContributions` — joined contributions come back in rank order
* `Gathered.contribution?_of_ofContributions` — a rank finds in its place what it contributed
-/

namespace ElementGrid.Gathered

/-- No offset reaches behind the end of the joined parts. -/
theorem le_of_mem_offsets {start d : Nat} {parts : List Bytes} (h : d ∈ offsets start parts) :
    start ≤ d ∧ d ≤ start + parts.flatten.length := by
  induction parts generalizing start with
  | nil => simp [offsets] at h
  | cons part parts ih =>
    rw [List.flatten_cons, List.length_append]
    rcases List.mem_cons.1 h with rfl | h
    · omega
    · have := ih h
      omega

theorem firstDecrease?_offsets (rank start : Nat) (parts : List Bytes) :
    firstDecrease? rank (offsets start parts) = none := by
  induction parts generalizing rank start with
  | nil => rfl
  | cons part parts ih =>
    cases parts with
    | nil => rfl
    | cons next parts =>
      rw [offsets, offsets, firstDecrease?, if_neg (by omega)]
      exact ih (rank + 1) (start + part.length)

theorem ofContributions_eq_ok {parts : List Bytes} (h : parts ≠ []) :
    ofContributions parts = .ok ⟨parts.flatten, offsets 0 parts⟩ := by
  obtain ⟨part, rest, rfl⟩ := List.exists_cons_of_ne_nil h
  have hlast : (offsets (0 + part.length) rest).getLastD 0 ∈ offsets 0 (part :: rest) :=
    List.getLastD_mem_cons
  have hwithin := (le_of_mem_offsets hlast).2
  have hdec := firstDecrease?_offsets 0 0 (part :: rest)
  rw [ofContributions, offsets, ofTable]
  rw [offsets] at hdec
  simp only [ne_eq, not_true_eq_false, if_false, hdec]
  rw [if_neg (by omega)]

theorem ofContributions_nil : ofContributions [] = .error (.malformedTable .noContributions) := rfl

/-- Parts that stand one after the other behind `before` are cut out again at their offsets. -/
theorem partsFrom_offsets (before : Bytes) (displacements : List Nat) (rank : Nat)
    (parts : List Bytes) :
    partsFrom ⟨before ++ parts.flatten, displacements⟩ rank (offsets before.length parts) =
      (parts.zipIdx rank).map Prod.swap := by
  induction parts generalizing before rank with
  | nil => rfl
  | cons part parts ih =>
    have hcut : ((before ++ (part :: parts).flatten).take (before.length + part.length)).drop
        before.length = part := by
      rw [List.flatten_cons, ← List.append_assoc, ← List.length_append, List.take_left,
        List.drop_left]
    have hstop : (offsets (before.length + part.length) parts).headD
        (before ++ (part :: parts).flatten).length = before.length + part.length := by
      cases parts with
      | nil => simp [offsets]
      | cons next parts => rfl
    have hrest := ih (before ++ part) (rank + 1)
    rw [List.length_append, List.append_assoc, ← List.flatten_cons] at hrest
    rw [offsets, partsFrom, hstop, hcut, hrest, List.zipIdx_cons, List.map_cons]
    rfl

/-- Joined contributions come back in rank order. -/
theorem contributions_of_ofContributions {parts : List Bytes} {g : Gathered}
    (h : ofContributions parts = .ok g) : g.contributions = parts.zipIdx.map Prod.swap := by
  have hne : parts ≠ [] := by
    rintro rfl
    rw [ofContributions_nil] at h
    cases h
  rw [ofContributions_eq_ok hne] at h
  cases h
  exact partsFrom_offsets [] _ 0 parts

theorem map_snd_of_ofContributions {parts : List Bytes} {g : Gathered}
    (h : ofContributions parts = .ok g) : g.contributions.map Prod.snd = parts := by
  rw [contributions_of_ofContributions h, List.map_map]
  exact List.zipIdx_map_fst 0 parts

theorem size_of_ofContributions {parts : List Bytes} {g : Gathered}
    (h : ofContributions parts = .ok g) : g.size = parts.length := by
  rw [← length_contributions, contributions_of_ofContributions h, List.length_map,
    List.length_zipIdx]

/-- All contributions together are those of the single ranks. -/
theorem getElem?_partsFrom (g : Gathered) (rank : Nat) (starts : List Nat) (i : Nat) :
    (g.partsFrom rank starts)[i]? = starts[i]?.map fun start =>
      (rank + i, (g.buffer.take (starts[i + 1]?.getD g.buffer.length)).drop start) := by
  induction starts generalizing rank i with
  | nil => rfl
  | cons start rest ih =>
    cases i with
    | zero => cases rest <;> rfl
    | succ i =>
      rw [partsFrom, List.getElem?_cons_succ, List.getElem?_cons_succ, ih, List.getElem?_cons_succ]
      congr 1
      funext start'
      rw [Nat.add_assoc, Nat.add_comm 1 i]

theorem contribution?_eq (g : Gathered) (rank : Nat) :
    g.contribution? rank = g.contributions[rank]?.map Prod.snd := by
  rw [contributions, getElem?_partsFrom, contribution?]
  cases g.displacements[rank]? <;> rfl

/-- A rank finds in its place what it contributed. -/
theorem contribution?_of_ofContributions {parts : List Bytes} {g : Gathered}
    (h : ofContributions parts = .ok g) (rank : Nat) : g.contribution? rank = parts[rank]? := by
  rw [contribution?_eq, contributions_of_ofContributions h, List.getElem?_map, List.getElem?_zipIdx]
  cases parts[rank]? <;> rfl

end ElementGrid.Gathered
