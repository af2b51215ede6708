import Mathlib.Data.List.Nodup
import ElementGrid.Proofs.Collection.Canonical
import ElementGrid.Proofs.Sorting
/-!
# Unions

The runs of two collections in the order of their first numbers are compared with their neighbours only.
That is enough: the first run that reaches into the next one begins with the least number that occurs
twice, and a number occurs twice just if both collections name it. Otherwise the runs are apart, and the
elements of the union are those of both collections in order.

## Main definitions

* `Collection.LeastCommon` — the least number that both collections name

## Main results

* `Collection.overlap?_eq_some` — an overlap is found at the least number that occurs twice
* `Collection.concat_of_disjoint`, `Collection.concat_of_common` — what a union comes to
* `Collection.concat_comm`, `Collection.concat_assoc` — the order of the parts makes no difference
* `Collection.concat_merges` — all of it, for canonical collections
-/

namespace ElementGrid.Collection

variable {c d e : Collection} {rs : List Run} {gid : Nat}

/-- The number `gid` is the least that both collections name. -/
structure LeastCommon (c d : Collection) (gid : Nat) : Prop where
  left : gid ∈ c.gids
  right : gid ∈ d.gids
  least : ∀ other ∈ c.gids, other ∈ d.gids → gid ≤ other

theorem LeastCommon.symm (h : LeastCommon c d gid) : LeastCommon d c gid :=
  ⟨h.right, h.left, fun other hd hc => h.least other hc hd⟩

theorem LeastCommon.unique {gid' : Nat} (h : LeastCommon c d gid) (h' : LeastCommon c d gid') :
    gid = gid' :=
  Nat.le_antisymm (h.least gid' h'.left h'.right) (h'.least gid h.left h.right)

/-! ## Overlaps -/

theorem count_gids_le_one (r : Run) (gid : Nat) : r.gids.count gid ≤ 1 :=
  List.nodup_iff_count_le_one.1 (List.nodup_range') gid

/-- A number that runs in order hold is not before the first of them. -/
theorem first_le_of_count_pos {r : Run} (hsorted : (r :: rs).Pairwise fun r s => r.first ≤ s.first)
    (h : 0 < ((r :: rs).flatMap Run.gids).count gid) : r.first ≤ gid := by
  obtain ⟨s, hs, hgid⟩ := List.mem_flatMap.1 (List.count_pos_iff.1 h)
  rw [Run.mem_gids, Run.contains_eq_true] at hgid
  rcases List.mem_cons.1 hs with rfl | hs
  · exact hgid.1
  · exact Nat.le_trans ((List.pairwise_cons.1 hsorted).1 s hs) hgid.1

/-- Of runs in the order of their first numbers, an overlap is found at the least number that occurs
twice. -/
theorem overlap?_eq_some (hnonvoid : Nonvoid rs) (hsorted : rs.Pairwise fun r s => r.first ≤ s.first)
    (h : overlap? rs = some gid) : 2 ≤ (rs.flatMap Run.gids).count gid ∧
      ∀ other, 2 ≤ (rs.flatMap Run.gids).count other → gid ≤ other := by
  induction rs using overlap?.induct with
  | case1 r s rs hreaches =>
    rw [overlap?, if_pos hreaches] at h
    cases h
    have hrs : r.first ≤ s.first := (List.pairwise_cons.1 hsorted).1 s List.mem_cons_self
    have hs : s.first ≤ s.last := hnonvoid s (by simp)
    refine ⟨?_, fun other hother => ?_⟩
    · have hinr : 0 < r.gids.count s.first := by
        rw [List.count_pos_iff, Run.mem_gids, Run.contains_eq_true]
        exact ⟨hrs, hreaches⟩
      have hins : 0 < s.gids.count s.first := by
        rw [List.count_pos_iff, Run.mem_gids, Run.contains_eq_true]
        exact ⟨Nat.le_refl _, hs⟩
      simp only [List.flatMap_cons, List.count_append]
      omega
    · -- The run `r` holds a number once, so a later one holds it as well.
      refine first_le_of_count_pos (List.pairwise_cons.1 hsorted).2 ?_
      have hr := count_gids_le_one r other
      rw [List.flatMap_cons, List.count_append] at hother
      omega
  | case2 r s rs hapart ih =>
    rw [overlap?, if_neg hapart] at h
    have hsorted' := (List.pairwise_cons.1 hsorted).2
    obtain ⟨htwice, hleast⟩ := ih (List.forall_mem_cons.1 hnonvoid).2 hsorted' h
    refine ⟨?_, fun other hother => hleast other ?_⟩
    · rw [List.flatMap_cons, List.count_append]
      omega
    · -- A number of the run `r` is before all that the others hold.
      rw [List.flatMap_cons, List.count_append] at hother
      have hr := count_gids_le_one r other
      by_cases hmem : other ∈ r.gids
      · rw [Run.mem_gids, Run.contains_eq_true] at hmem
        have : s.first ≤ other := first_le_of_count_pos hsorted' (by omega)
        omega
      · rw [List.count_eq_zero_of_not_mem hmem] at hother
        omega
  | case3 rs hshort =>
    rw [overlap?] at h
    · cases h
    · exact hshort

/-! ## Numbers that both collections name -/

/-- Runs that are in order and apart hold no number twice. -/
theorem nodup_of_apart (h : rs.Pairwise fun r s => r.last < s.first) : (rs.flatMap Run.gids).Nodup := by
  have hfst : (rs.flatMap Run.entries).map Prod.fst = rs.flatMap Run.gids := map_fst_entries ⟨rs⟩
  rw [← hfst]
  exact List.pairwise_map.2 ((ascending_of_apart h).imp Nat.ne_of_lt)

theorem Canonical.nodup_gids (h : c.Canonical) : c.gids.Nodup :=
  nodup_of_apart h.apart

theorem perm_gids_mergedRuns (c d : Collection) :
    ((c.mergedRuns d).flatMap Run.gids).Perm (c.gids ++ d.gids) := by
  rw [gids, gids, ← List.flatMap_append]
  exact (perm_mergedRuns c d).flatMap_right Run.gids

theorem pairwise_mergedRuns (c d : Collection) :
    (c.mergedRuns d).Pairwise fun r s => r.first ≤ s.first :=
  pairwise_mergeSort_key Run.first _

section Canonical

variable (hc : c.Canonical) (hd : d.Canonical)
include hc hd

/-- A number that two collections together name twice is named by both. -/
theorem two_le_count_mergedRuns_iff :
    2 ≤ ((c.mergedRuns d).flatMap Run.gids).count gid ↔ gid ∈ c.gids ∧ gid ∈ d.gids := by
  rw [(perm_gids_mergedRuns c d).count_eq, List.count_append, hc.nodup_gids.count, hd.nodup_gids.count]
  by_cases hleft : gid ∈ c.gids <;> by_cases hright : gid ∈ d.gids <;> simp [hleft, hright]

/-- Collections with an element in common have no union. -/
theorem concat_of_common (hcommon : ¬ c.gids.Disjoint d.gids) :
    ∃ gid, c.concat d = .error (.overlap gid) ∧ LeastCommon c d gid := by
  have hnonvoid := nonvoid_mergedRuns hc.first_le_last hd.first_le_last
  cases hoverlap : overlap? (c.mergedRuns d) with
  | none =>
    have hnodup := nodup_of_apart (apart_of_overlap? hnonvoid hoverlap)
    have hdisjoint := List.disjoint_of_nodup_append ((perm_gids_mergedRuns c d).nodup_iff.1 hnodup)
    exact absurd hdisjoint hcommon
  | some gid =>
    obtain ⟨htwice, hleast⟩ := overlap?_eq_some hnonvoid (pairwise_mergedRuns c d) hoverlap
    obtain ⟨hleft, hright⟩ := (two_le_count_mergedRuns_iff hc hd).1 htwice
    refine ⟨gid, by rw [concat, hoverlap], hleft, hright, fun other hleft' hright' => ?_⟩
    exact hleast other ((two_le_count_mergedRuns_iff hc hd).2 ⟨hleft', hright'⟩)

/-- Collections without a common element have a union, of the elements of both. -/
theorem concat_of_disjoint (hdisjoint : c.gids.Disjoint d.gids) :
    ∃ u, c.concat d = .ok u ∧ u.Canonical ∧ u.entries.Perm (c.entries ++ d.entries) := by
  have hnonvoid := nonvoid_mergedRuns hc.first_le_last hd.first_le_last
  cases hoverlap : overlap? (c.mergedRuns d) with
  | none =>
    have hconcat : c.concat d = .ok (ofRuns (c.mergedRuns d)) := by rw [concat, hoverlap]
    refine ⟨_, hconcat, hc.concat hd hconcat, ?_⟩
    rw [entries_ofRuns hnonvoid, entries, entries, ← List.flatMap_append]
    exact (perm_mergedRuns c d).flatMap_right Run.entries
  | some gid =>
    obtain ⟨htwice, -⟩ := overlap?_eq_some hnonvoid (pairwise_mergedRuns c d) hoverlap
    obtain ⟨hleft, hright⟩ := (two_le_count_mergedRuns_iff hc hd).1 htwice
    exact absurd hright (hdisjoint hleft)

end Canonical

/-! ## The order of the parts -/

/-- Canonical collections of the same elements are the same. -/
theorem Canonical.eq_of_perm (hc : c.Canonical) (hd : d.Canonical) (h : c.entries.Perm d.entries) :
    c = d := by
  refine (hc.eq_iff_entries hd).2 ?_
  exact h.eq_of_pairwise (fun a b _ _ hab hba => absurd hab (Nat.lt_asymm hba))
    (ascending_of_apart hc.apart) (ascending_of_apart hd.apart)

/-- The union of two collections has their elements in order. -/
theorem Canonical.entries_eq_merge {u : Collection} (hc : c.Canonical) (hd : d.Canonical)
    (hu : u.Canonical) (h : u.entries.Perm (c.entries ++ d.entries)) :
    u.entries = c.entries.merge d.entries fun a b => a.1 ≤ b.1 := by
  have hperm : u.entries.Perm (c.entries.merge d.entries fun a b => a.1 ≤ b.1) :=
    h.trans (List.merge_perm_append _).symm
  have hascending : ∀ {f : Collection}, f.Canonical → f.entries.Pairwise fun a b => a.1 ≤ b.1 :=
    fun hf => (ascending_of_apart hf.apart).imp Nat.le_of_lt
  have hmerge : (c.entries.merge d.entries fun a b => a.1 ≤ b.1).Pairwise fun a b => a.1 ≤ b.1 := by
    refine (List.pairwise_merge (fun x y z hxy hyz => ?_) (fun x y => ?_) _ _
      ((hascending hc).imp decide_eq_true) ((hascending hd).imp decide_eq_true)).imp of_decide_eq_true
    · simp only [decide_eq_true_eq] at hxy hyz ⊢
      omega
    · simp only [Bool.or_eq_true, decide_eq_true_eq]
      omega
  -- Elements of one number are the same element, because the union names no number twice.
  have hkeys : (u.entries.map Prod.fst).Nodup := u.map_fst_entries ▸ hu.nodup_gids
  refine hperm.eq_of_pairwise (fun a b ha hb hab hba => ?_) (hascending hu) hmerge
  exact List.inj_on_of_nodup_map hkeys ha (hperm.mem_iff.2 hb) (Nat.le_antisymm hab hba)

theorem concat_comm (hc : c.Canonical) (hd : d.Canonical) : c.concat d = d.concat c := by
  by_cases hdisjoint : c.gids.Disjoint d.gids
  · obtain ⟨u, hu, hcanonical, hperm⟩ := concat_of_disjoint hc hd hdisjoint
    obtain ⟨u', hu', hcanonical', hperm'⟩ := concat_of_disjoint hd hc (List.disjoint_symm hdisjoint)
    have hswap := hperm.trans (List.perm_append_comm.trans hperm'.symm)
    rw [hu, hu', hcanonical.eq_of_perm hcanonical' hswap]
  · obtain ⟨gid, hgid, hleast⟩ := concat_of_common hc hd hdisjoint
    obtain ⟨gid', hgid', hleast'⟩ := concat_of_common hd hc fun h => hdisjoint (List.disjoint_symm h)
    rw [hgid, hgid', hleast.unique hleast'.symm]

/-- A union has no element in common with a third collection with which neither part has one. -/
theorem disjoint_of_perm {u : Collection} (h : u.entries.Perm (c.entries ++ d.entries))
    (hc : c.gids.Disjoint e.gids) (hd : d.gids.Disjoint e.gids) : u.gids.Disjoint e.gids := by
  have hgids : u.gids.Perm (c.gids ++ d.gids) := by
    simp only [← map_fst_entries, ← List.map_append]
    exact h.map Prod.fst
  exact hgids.disjoint_left.2 (List.disjoint_append_left.2 ⟨hc, hd⟩)

/-- Three collections of which no two have a common element have one union, whichever two come first. -/
theorem concat_assoc (hc : c.Canonical) (hd : d.Canonical) (he : e.Canonical)
    (hcd : c.gids.Disjoint d.gids) (hce : c.gids.Disjoint e.gids) (hde : d.gids.Disjoint e.gids) :
    ∃ cd de all, c.concat d = .ok cd ∧ cd.concat e = .ok all ∧
      d.concat e = .ok de ∧ c.concat de = .ok all := by
  obtain ⟨cd, hcd', hcanonical, hperm⟩ := concat_of_disjoint hc hd hcd
  obtain ⟨de, hde', hcanonical', hperm'⟩ := concat_of_disjoint hd he hde
  obtain ⟨left, hleft, hleft', hpermLeft⟩ :=
    concat_of_disjoint hcanonical he (disjoint_of_perm hperm hce hde)
  obtain ⟨right, hright, hright', hpermRight⟩ := concat_of_disjoint hc hcanonical'
    (List.disjoint_symm (disjoint_of_perm hperm' (List.disjoint_symm hcd) (List.disjoint_symm hce)))
  have hsame : left.entries.Perm right.entries := by
    refine hpermLeft.trans ((hperm.append_right e.entries).trans ?_)
    rw [List.append_assoc]
    exact ((hperm'.append_left c.entries).symm).trans hpermRight.symm
  obtain rfl := hleft'.eq_of_perm hright' hsame
  exact ⟨cd, de, left, hcd', hleft, hde', hright⟩

/-- Two canonical collections without a common element have a union, which is canonical and has the elements
of both in order, each of its own model. Two collections with a common element have none, and the refusal
tells the least number that both name. The order of the parts makes no difference, nor does it make one
which two of three disjoint collections come first. -/
theorem concat_merges (hc : c.Canonical) (hd : d.Canonical) :
    (c.gids.Disjoint d.gids → ∃ u, c.concat d = .ok u ∧ u.Canonical ∧
      u.entries = c.entries.merge d.entries fun a b => a.1 ≤ b.1) ∧
    (¬ c.gids.Disjoint d.gids → ∃ gid, c.concat d = .error (.overlap gid) ∧ LeastCommon c d gid) ∧
    c.concat d = d.concat c ∧
    ∀ e, e.Canonical → c.gids.Disjoint d.gids → c.gids.Disjoint e.gids → d.gids.Disjoint e.gids →
      ∃ cd de all, c.concat d = .ok cd ∧ cd.concat e = .ok all ∧
        d.concat e = .ok de ∧ c.concat de = .ok all := by
  refine ⟨fun hdisjoint => ?_, concat_of_common hc hd, concat_comm hc hd,
    fun e he => concat_assoc hc hd he⟩
  obtain ⟨u, hu, hcanonical, hperm⟩ := concat_of_disjoint hc hd hdisjoint
  exact ⟨u, hu, hcanonical, hc.entries_eq_merge hd hcanonical hperm⟩

/-- Three collections whose runs alternate, and one that has two elements in common with the first. -/
theorem concat_merges_alternating :
    let c : Collection := ⟨[⟨1, 2, 0⟩, ⟨7, 9, 0⟩]⟩
    let d : Collection := ⟨[⟨3, 4, 0⟩, ⟨10, 10, 1⟩]⟩
    let e : Collection := ⟨[⟨5, 6, 0⟩]⟩
    let f : Collection := ⟨[⟨5, 5, 1⟩, ⟨8, 12, 1⟩]⟩
    (∀ g ∈ [c, d, e, f], g.Canonical) ∧
      (∃ u, c.concat d = .ok u ∧
        u.entries = [(1, 0), (2, 0), (3, 0), (4, 0), (7, 0), (8, 0), (9, 0), (10, 1)]) ∧
      (∃ cd de all, c.concat d = .ok cd ∧ cd.concat e = .ok all ∧
        d.concat e = .ok de ∧ c.concat de = .ok all) ∧
      c.concat f = .error (.overlap 8) := by
  intro c d e f
  have hall : ∀ g ∈ [c, d, e, f], g.Canonical := by
    simp [c, d, e, f, canonical_iff, joined_cons_iff, joined_nil, Run.Continues]
  obtain ⟨hunion, -, -, hassoc⟩ := concat_merges (hall c (by simp)) (hall d (by simp))
  obtain ⟨-, hrefused, -⟩ := concat_merges (hall c (by simp)) (hall f (by simp))
  have hcd : c.gids.Disjoint d.gids := List.disjoint_left.2 (by decide)
  have hce : c.gids.Disjoint e.gids := List.disjoint_left.2 (by decide)
  have hde : d.gids.Disjoint e.gids := List.disjoint_left.2 (by decide)
  have hcf : ¬ c.gids.Disjoint f.gids := fun h => h (show 8 ∈ c.gids by decide) (by decide)
  obtain ⟨u, hu, -, hentries⟩ := hunion hcd
  obtain ⟨gid, hgid, hleast⟩ := hrefused hcf
  obtain rfl : gid = 8 := hleast.unique ⟨by decide, by decide, by decide⟩
  refine ⟨hall, ⟨u, hu, hentries.trans ?_⟩, hassoc e (hall e (by simp)) hcd hce hde, hgid⟩
  cbv

end ElementGrid.Collection
