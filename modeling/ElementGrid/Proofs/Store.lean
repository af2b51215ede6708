import ElementGrid.Store
/-!
# Look-ups in a store

The numbers of a store ascend, so a number has one place at most and the walk ends there, wherever it
began. A look-up therefore finds the instance if and only if it is stored.

## Main results

* `Store.index?_congr` — a search looks at numbers only
* `Store.indexFrom?_eq` — where the walk begins makes no difference
* `Store.find?_eq_some_iff` — a look-up finds the instance that is stored
* `Store.nodes_modify` — a change reaches the instance of its number and no other
-/

namespace ElementGrid.Store

variable {E : Type} {s : Store E} {gid i j : Nat}

theorem gidAt?_eq (s : Store E) (i : Nat) : s.gidAt? i = s.gids[i]? := by
  rw [gidAt?, gids, List.getElem?_map]

theorem length_gids (s : Store E) : s.gids.length = s.size := List.length_map _

theorem lt_size_of_gidAt? (h : s.gidAt? i = some gid) : i < s.size := by
  rw [gidAt?_eq] at h
  rw [← length_gids]
  exact (List.getElem?_eq_some_iff.1 h).1

theorem exists_of_gidAt? (h : s.gidAt? i = some gid) :
    ∃ n, s.nodes[i]? = some n ∧ n.gid = gid :=
  Option.map_eq_some_iff.1 h

theorem gidAt?_of_indexFrom? {start : Nat} (h : s.indexFrom? start gid = some i) :
    s.gidAt? i = some gid := by
  rw [indexFrom?] at h
  split at h
  · rename_i hfound
    cases h
    exact hfound
  · cases h

theorem gidAt?_of_index? (h : s.index? gid = some i) : s.gidAt? i = some gid := by
  rw [index?] at h
  split at h
  · split at h
    · cases h
    · exact gidAt?_of_indexFrom? h
  · cases h

theorem estimate_lt (first last gid : Nat) (h : 0 < s.size) : s.estimate first last gid < s.size := by
  rw [estimate]
  split
  · exact h
  · have := Nat.min_le_right ((gid - first) * (s.size - 1) / (last - first)) (s.size - 1)
    omega

/-- New instances take their places behind those that are there. -/
theorem nodes_appendAll (s : Store E) (ns : List (Node E)) :
    (s.appendAll ns).nodes =
      s.nodes ++ ns.mapIdx fun i n => { n with localId := i + s.size } := by
  induction ns generalizing s with
  | nil => simp [appendAll]
  | cons n ns ih =>
    show ((s.append n).appendAll ns).nodes = _
    rw [ih, size_append]
    simp [append, Nat.add_assoc, Nat.add_comm 1]

theorem index?_eq_gids (s : Store E) (gid : Nat) :
    s.index? gid =
      match s.gids.head?, s.gids.getLast? with
      | some a, some b => if gid < a ∨ b < gid then none else s.indexFrom? (s.estimate a b gid) gid
      | _, _ => none := by
  rw [index?, gids, List.head?_map, List.getLast?_map]
  cases s.nodes.head? <;> cases s.nodes.getLast? <;> rfl

/-! ## Stores with the same numbers -/

section Congr

variable {F : Type} {s' : Store F} (h : s.gids = s'.gids)
include h

theorem size_congr : s.size = s'.size := by
  rw [← length_gids, h, length_gids]

theorem gidAt?_congr (i : Nat) : s.gidAt? i = s'.gidAt? i := by
  rw [gidAt?_eq, h, gidAt?_eq]

theorem walkDown_congr (gid i : Nat) : s.walkDown gid i = s'.walkDown gid i := by
  induction i with
  | zero => rfl
  | succ i ih => rw [walkDown, walkDown, gidAt?_congr h, ih]

theorem walkUp_congr (gid steps i : Nat) : s.walkUp gid steps i = s'.walkUp gid steps i := by
  induction steps generalizing i with
  | zero => rfl
  | succ steps ih => simp only [walkUp, gidAt?_congr h, ih]

/-- A search looks at numbers only. -/
theorem index?_congr (gid : Nat) : s.index? gid = s'.index? gid := by
  have hfrom : ∀ start, s.indexFrom? start gid = s'.indexFrom? start gid := by
    intro start
    simp only [indexFrom?, walkDown_congr h, walkUp_congr h, size_congr h, gidAt?_congr h]
  simp only [index?_eq_gids, h, hfrom, estimate, size_congr h]

end Congr

/-! ## Stores whose numbers ascend -/

section Ascending

variable (hs : s.gids.Pairwise (· < ·))
include hs

theorem gid_lt_of_lt {a b : Nat} (hi : s.gidAt? i = some a) (hj : s.gidAt? j = some b)
    (hij : i < j) : a < b := by
  rw [gidAt?_eq] at hi hj
  obtain ⟨hlti, rfl⟩ := List.getElem?_eq_some_iff.1 hi
  obtain ⟨hltj, rfl⟩ := List.getElem?_eq_some_iff.1 hj
  exact List.pairwise_iff_getElem.1 hs i j hlti hltj hij

theorem gid_le_of_le {a b : Nat} (hi : s.gidAt? i = some a) (hj : s.gidAt? j = some b)
    (hij : i ≤ j) : a ≤ b := by
  rcases Nat.lt_or_eq_of_le hij with hlt | rfl
  · exact Nat.le_of_lt (gid_lt_of_lt hs hi hj hlt)
  · rw [hi] at hj
    cases hj
    exact Nat.le_refl _

/-- The way down does not stop behind the place of the number. -/
theorem walkDown_le (hj : s.gidAt? j = some gid) {start : Nat} (hstart : start < s.size) :
    s.walkDown gid start ≤ j := by
  induction start with
  | zero => exact Nat.zero_le j
  | succ i ih =>
    rw [walkDown]
    split
    · rename_i g hg
      split
      · exact ih (Nat.lt_of_succ_lt hstart)
      · rename_i hstop
        exact Nat.not_lt.1 fun hlt => hstop (gid_lt_of_lt hs hj hg hlt)
    · rename_i hnone
      rw [gidAt?_eq, List.getElem?_eq_none_iff, length_gids] at hnone
      omega

/-- The way up from a place before that of the number ends there. -/
theorem walkUp_eq (hj : s.gidAt? j = some gid) {steps : Nat} (hi : i ≤ j) (hsteps : j ≤ i + steps) :
    s.walkUp gid steps i = j := by
  induction steps generalizing i with
  | zero => exact Nat.le_antisymm hi hsteps
  | succ steps ih =>
    rw [walkUp]
    rcases Nat.lt_or_eq_of_le hi with hlt | rfl
    · obtain ⟨g, hg⟩ : ∃ g, s.gidAt? i = some g := by
        have hsize := lt_size_of_gidAt? hj
        rw [gidAt?_eq]
        exact ⟨_, List.getElem?_eq_getElem (by rw [length_gids]; omega)⟩
      have hless := gid_lt_of_lt hs hg hj hlt
      simp only [hg, hless, if_true]
      exact ih hlt (by omega)
    · simp only [hj, Nat.lt_irrefl, if_false]

/-- Where the walk begins makes no difference. -/
theorem indexFrom?_eq (hj : s.gidAt? j = some gid) {start : Nat} (hstart : start < s.size) :
    s.indexFrom? start gid = some j := by
  have hdown := walkDown_le hs hj hstart
  have hsize := lt_size_of_gidAt? hj
  have hup : s.walkUp gid s.size (s.walkDown gid start) = j := walkUp_eq hs hj hdown (by omega)
  rw [indexFrom?]
  simp only [hup, hj, if_true]

theorem index?_eq_some_iff : s.index? gid = some i ↔ s.gidAt? i = some gid := by
  refine ⟨gidAt?_of_index?, fun hi => ?_⟩
  have hsize : i < s.nodes.length := lt_size_of_gidAt? hi
  obtain ⟨a, ha⟩ : ∃ a, s.nodes[0]? = some a := ⟨_, List.getElem?_eq_getElem (by omega)⟩
  obtain ⟨b, hb⟩ : ∃ b, s.nodes[s.nodes.length - 1]? = some b :=
    ⟨_, List.getElem?_eq_getElem (by omega)⟩
  have hlo : a.gid ≤ gid := gid_le_of_le hs (by rw [gidAt?, ha]; rfl) hi (Nat.zero_le i)
  have hhi : gid ≤ b.gid := gid_le_of_le hs hi (by rw [gidAt?, hb]; rfl) (by omega)
  rw [index?, List.head?_eq_getElem?, List.getLast?_eq_getElem?, ha, hb]
  -- The number lies between the first and the last one, so the walk is tried.
  simp only
  rw [if_neg (by omega)]
  exact indexFrom?_eq hs hi (estimate_lt _ _ _ (Nat.zero_lt_of_lt hsize))

/-- A look-up finds the instance that is stored. -/
theorem find?_eq_some_iff {n : Node E} : s.find? gid = some n ↔ n ∈ s.nodes ∧ n.gid = gid := by
  simp only [find?, Option.bind_eq_some_iff, index?_eq_some_iff hs, get?]
  constructor
  · rintro ⟨i, hi, hn⟩
    obtain ⟨m, hm, hgid⟩ := exists_of_gidAt? hi
    rw [hn] at hm
    cases hm
    exact ⟨List.mem_of_getElem? hn, hgid⟩
  · rintro ⟨hn, rfl⟩
    obtain ⟨i, hi⟩ := List.getElem?_of_mem hn
    exact ⟨i, by rw [gidAt?, hi]; rfl, hi⟩

theorem find?_eq_none_iff : s.find? gid = none ↔ ∀ n ∈ s.nodes, n.gid ≠ gid := by
  rw [Option.eq_none_iff_forall_ne_some]
  constructor
  · exact fun h n hn hgid => h n ((find?_eq_some_iff hs).2 ⟨hn, hgid⟩)
  · rintro h n hn
    obtain ⟨hmem, hgid⟩ := (find?_eq_some_iff hs).1 hn
    exact h n hmem hgid

/-- A number has one instance at most. -/
theorem filter_nodes (gid : Nat) :
    s.nodes.filter (fun n => n.gid = gid) = (s.find? gid).toList := by
  have hone : (s.nodes.filter fun n => n.gid = gid).Pairwise fun a b => a.gid < b.gid :=
    (List.pairwise_map.1 hs).filter _
  have hmem : ∀ n, n ∈ s.nodes.filter (fun n => n.gid = gid) ↔ s.find? gid = some n := by
    intro n
    rw [List.mem_filter, decide_eq_true_eq, find?_eq_some_iff hs]
  cases hfilter : s.nodes.filter fun n => n.gid = gid with
  | nil =>
    cases hfind : s.find? gid with
    | none => rfl
    | some n => simpa [hfilter] using (hmem n).2 hfind
  | cons n rest =>
    rw [hfilter] at hone hmem
    cases rest with
    | nil => rw [(hmem n).1 List.mem_cons_self, Option.toList_some]
    | cons m rest =>
      have hn := ((find?_eq_some_iff hs).1 ((hmem n).1 (by simp))).2
      have hm := ((find?_eq_some_iff hs).1 ((hmem m).1 (by simp))).2
      have hlt := (List.pairwise_cons.1 hone).1 m (by simp)
      omega

/-- A change reaches the instance of its number and no other. -/
theorem nodes_modify (gid : Nat) (f : Node E → Node E) :
    (s.modify gid f).nodes = s.nodes.map fun n => if n.gid = gid then f n else n := by
  apply List.ext_getElem?
  intro j
  have hplace : ∀ n, s.nodes[j]? = some n → (n.gid = gid ↔ s.index? gid = some j) := by
    intro n hn
    rw [index?_eq_some_iff hs, gidAt?, hn]
    simp
  rw [List.getElem?_map, modify]
  split
  · rename_i i hi
    rw [modifyAt, List.getElem?_modify]
    cases hn : s.nodes[j]? with
    | none => simp
    | some n =>
      have := hplace n hn
      rw [hi, Option.some.injEq] at this
      by_cases hij : i = j
      · simp [hij, this.2 hij]
      · simp [hij, mt this.1 hij]
  · rename_i hnone
    cases hn : s.nodes[j]? with
    | none => rfl
    | some n =>
      have hother : n.gid ≠ gid := fun h => by simpa [hnone] using (hplace n hn).1 h
      simp [hother]

end Ascending

end ElementGrid.Store
