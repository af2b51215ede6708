import ElementGrid.Collection.Algebra
import ElementGrid.Proofs.Except
import Mathlib.Data.List.Chain
/-!
# Canonical collections

However a collection was made, its runs are in order and as few as possible. There is only one way to
cut a list of entries into such runs: joining the entries one by one gives the runs back. So two
collections are equal exactly if they name the same elements of the same models.

## Main definitions

* `Collection.Joined` — runs in order of which none continues the one before it
* `Collection.Built` — the collections that can be made

## Main results

* `Collection.joined_ofRuns` — joining runs in order leaves none that continues the one before it
* `Collection.ofEntries_entries` — the entries of joined runs give the runs back
* `Collection.Built.canonical` — whatever is made is canonical
* `Collection.eq_iff_entries_eq` — collections are equal exactly if their entries are
-/

namespace ElementGrid.Collection

/-- Runs that hold numbers, in order and apart, of which none continues the one before it. -/
structure Joined (rs : List Run) : Prop where
  nonvoid : Nonvoid rs
  apart : rs.Pairwise fun r s => r.last < s.first
  maximal : rs.IsChain fun r s => ¬ r.Continues s

variable {c d : Collection} {r s : Run} {rs : List Run}

theorem joined_nil : Joined [] := ⟨by simp [Nonvoid], .nil, .nil⟩

theorem joined_cons_iff :
    Joined (r :: rs) ↔ r.first ≤ r.last ∧ (∀ s ∈ rs, r.last < s.first) ∧
      (∀ s ∈ rs.head?, ¬ r.Continues s) ∧ Joined rs := by
  constructor
  · rintro ⟨hnonvoid, hapart, hmaximal⟩
    obtain ⟨hr, hrs⟩ := List.forall_mem_cons.1 hnonvoid
    obtain ⟨hlt, hapart⟩ := List.pairwise_cons.1 hapart
    obtain ⟨hhead, hmaximal⟩ := List.isChain_cons.1 hmaximal
    exact ⟨hr, hlt, hhead, hrs, hapart, hmaximal⟩
  · rintro ⟨hr, hlt, hhead, hrs⟩
    exact ⟨List.forall_mem_cons.2 ⟨hr, hrs.nonvoid⟩, List.pairwise_cons.2 ⟨hlt, hrs.apart⟩,
      List.isChain_cons.2 ⟨hhead, hrs.maximal⟩⟩

theorem canonical_iff : c.Canonical ↔ c.runs ≠ [] ∧ Joined c.runs := by
  have hchain : (∀ r s, [r, s] <:+: c.runs → ¬ r.Continues s) ↔
      c.runs.IsChain fun r s => ¬ r.Continues s := by
    rw [List.isChain_iff_forall_rel_of_append_cons_cons]
    constructor
    · intro h r s front back hruns
      exact h r s ⟨front, back, by simp [hruns]⟩
    · rintro h r s ⟨front, back, hruns⟩
      have hsplit : c.runs = front ++ r :: s :: back := by simp [← hruns]
      exact h hsplit
  constructor
  · exact fun h => ⟨h.ne_nil, h.first_le_last, h.apart, hchain.1 h.maximal⟩
  · exact fun ⟨hne, h⟩ => ⟨hne, h.nonvoid, h.apart, hchain.2 h.maximal⟩

/-! ## Joining runs -/

theorem joinRun_of_not_continues (h : ∀ s ∈ rs.head?, ¬ r.Continues s) :
    joinRun r rs = r :: rs := by
  cases rs with
  | nil => rfl
  | cons s rs => simp [joinRun, h s rfl]

theorem joinRun_of_continues (h : r.Continues s) :
    joinRun r (s :: rs) = ⟨r.first, s.last, r.model⟩ :: rs := by
  simp [joinRun, h]

/-- Whether runs are joined or not, those that come out begin where one of them began. -/
theorem first_of_mem_joinRun {t : Run} (ht : t ∈ joinRun r rs) :
    t.first = r.first ∨ ∃ s ∈ rs, t.first = s.first := by
  by_cases h : ∃ s ∈ rs.head?, r.Continues s
  · obtain ⟨s, hs, hcontinues⟩ := h
    obtain ⟨rest, rfl⟩ := List.head?_eq_some_iff.1 hs
    rw [joinRun_of_continues hcontinues] at ht
    rcases List.mem_cons.1 ht with rfl | ht
    · exact .inl rfl
    · exact .inr ⟨t, List.mem_cons_of_mem s ht, rfl⟩
  · rw [joinRun_of_not_continues fun s hs hcontinues => h ⟨s, hs, hcontinues⟩] at ht
    rcases List.mem_cons.1 ht with rfl | ht
    · exact .inl rfl
    · exact .inr ⟨t, ht, rfl⟩

theorem first_of_mem_ofRuns {t : Run} (ht : t ∈ (ofRuns rs).runs) :
    ∃ s ∈ rs, t.first = s.first := by
  induction rs generalizing t with
  | nil => cases ht
  | cons r rs ih =>
    rcases first_of_mem_joinRun ht with hfirst | ⟨s, hs, hfirst⟩
    · exact ⟨r, List.mem_cons_self, hfirst⟩
    · obtain ⟨s', hs', hfirst'⟩ := ih hs
      exact ⟨s', List.mem_cons_of_mem r hs', hfirst.trans hfirst'⟩

theorem Joined.joinRun (hr : r.first ≤ r.last) (hlt : ∀ s ∈ rs, r.last < s.first)
    (hrs : Joined rs) : Joined (joinRun r rs) := by
  by_cases h : ∃ s ∈ rs.head?, r.Continues s
  · obtain ⟨s, hs, hcontinues⟩ := h
    obtain ⟨rest, rfl⟩ := List.head?_eq_some_iff.1 hs
    obtain ⟨hs, hslt, hshead, hrest⟩ := joined_cons_iff.1 hrs
    have hrs' := hlt s List.mem_cons_self
    rw [joinRun_of_continues hcontinues]
    -- The joined run ends where `s` ends and is of the model of `s`.
    refine joined_cons_iff.2 ⟨?_, hslt, fun t ht hjoined => hshead t ht ⟨?_, hjoined.2⟩, hrest⟩
    · show r.first ≤ s.last
      omega
    · exact hcontinues.1.symm.trans hjoined.1
  · have hhead : ∀ s ∈ rs.head?, ¬ r.Continues s := fun s hs hcontinues => h ⟨s, hs, hcontinues⟩
    rw [joinRun_of_not_continues hhead]
    exact joined_cons_iff.2 ⟨hr, hlt, hhead, hrs⟩

/-- Joining runs in order leaves none that continues the one before it. -/
theorem joined_ofRuns (hnonvoid : Nonvoid rs) (hapart : rs.Pairwise fun r s => r.last < s.first) :
    Joined (ofRuns rs).runs := by
  induction rs with
  | nil => exact joined_nil
  | cons r rs ih =>
    obtain ⟨hr, hrs⟩ := List.forall_mem_cons.1 hnonvoid
    obtain ⟨hlt, hapart⟩ := List.pairwise_cons.1 hapart
    refine (ih hrs hapart).joinRun hr fun t ht => ?_
    obtain ⟨s, hs, hfirst⟩ := first_of_mem_ofRuns ht
    rw [hfirst]
    exact hlt s hs

theorem runs_ofRuns_ne_nil (hne : rs ≠ []) : (ofRuns rs).runs ≠ [] := by
  cases rs with
  | nil => exact absurd rfl hne
  | cons r rs =>
    show joinRun r (ofRuns rs).runs ≠ []
    rw [joinRun.eq_def]
    split
    · simp
    · split <;> simp

theorem canonical_ofRuns (hne : rs ≠ []) (hnonvoid : Nonvoid rs)
    (hapart : rs.Pairwise fun r s => r.last < s.first) : (ofRuns rs).Canonical :=
  canonical_iff.2 ⟨runs_ofRuns_ne_nil hne, joined_ofRuns hnonvoid hapart⟩

theorem nonvoid_singles (es : List (Nat × Nat)) : Nonvoid (es.map fun e => Run.single e.1 e.2) := by
  intro r hr
  obtain ⟨e, -, rfl⟩ := List.mem_map.1 hr
  exact Nat.le_refl e.1

theorem canonical_ofEntries {es : List (Nat × Nat)} (hne : es ≠ [])
    (hes : es.Pairwise fun a b => a.1 < b.1) : (ofEntries es).Canonical :=
  canonical_ofRuns (by simpa using hne) (nonvoid_singles es) (List.pairwise_map.2 hes)

/-- The collection with the given entries has these entries. -/
theorem entries_ofEntries (es : List (Nat × Nat)) : (ofEntries es).entries = es := by
  rw [ofEntries, entries_ofRuns (nonvoid_singles es), List.flatMap_map]
  simp [Run.entries_single]

/-! ## Entries determine runs -/

/-- The entries of a run, joined one by one, give the run back if what follows does not continue it. -/
theorem foldr_joinRun_entries (hr : r.first ≤ r.last) (hhead : ∀ s ∈ rs.head?, ¬ r.Continues s) :
    (r.entries.map fun e => Run.single e.1 e.2).foldr joinRun rs = r :: rs := by
  obtain ⟨a, z, m⟩ := r
  obtain ⟨n, rfl⟩ : ∃ n, z = a + n := ⟨z - a, by simp only at hr; omega⟩
  -- The run grows from its last number down to its first one.
  induction n generalizing a with
  | zero => simpa [Run.entries, Run.gids, Run.size, Run.single] using joinRun_of_not_continues hhead
  | succ n ih =>
    have hentries : (⟨a, a + (n + 1), m⟩ : Run).entries =
        (a, m) :: (⟨a + 1, a + 1 + n, m⟩ : Run).entries := by
      have hsize : a + (n + 1) + 1 - a = (a + 1 + n + 1 - (a + 1)) + 1 := by omega
      simp only [Run.entries, Run.gids, Run.size, hsize, List.range'_succ, List.map_cons]
    have hlast : a + 1 + n = a + (n + 1) := by omega
    have hcontinues : (Run.single a m).Continues ⟨a + 1, a + 1 + n, m⟩ := ⟨rfl, rfl⟩
    have hrest := ih (a + 1) (Nat.le_add_right (a + 1) n) (by rw [hlast]; exact hhead)
    rw [hentries, List.map_cons, List.foldr_cons, hrest, joinRun_of_continues hcontinues, hlast]
    rfl

/-- The entries of joined runs give the runs back. -/
theorem ofEntries_entries (h : Joined c.runs) : ofEntries c.entries = c := by
  obtain ⟨rs⟩ := c
  induction rs with
  | nil => rfl
  | cons r rs ih =>
    obtain ⟨hr, -, hhead, hrs⟩ := joined_cons_iff.1 h
    have hrest : ((entries ⟨rs⟩).map fun e => Run.single e.1 e.2).foldr joinRun [] = rs :=
      congrArg runs (ih hrs)
    have hentries : entries ⟨r :: rs⟩ = r.entries ++ entries ⟨rs⟩ := List.flatMap_cons
    simp only [ofEntries, ofRuns, hentries, List.map_append, List.foldr_append, hrest,
      foldr_joinRun_entries hr hhead]

theorem Canonical.eq_iff_entries (hc : c.Canonical) (hd : d.Canonical) :
    c = d ↔ c.entries = d.entries := by
  constructor
  · exact congrArg entries
  · intro h
    rw [← ofEntries_entries (canonical_iff.1 hc).2, h, ofEntries_entries (canonical_iff.1 hd).2]

/-! ## The ways to make a collection -/

theorem resolveGids_cons_eq_ok {modelOf : Nat → Option Nat} {previous : Option Nat} {gid : Nat}
    {gids : List Nat} {es : List (Nat × Nat)}
    (h : resolveGids modelOf previous (gid :: gids) = .ok es) :
    (∀ p ∈ previous, p < gid) ∧ ∃ model rest,
      resolveGids modelOf (some gid) gids = .ok rest ∧ es = (gid, model) :: rest := by
  -- A number that is checked against the one before it, if there is one, is then looked up.
  obtain ⟨hprevious, h⟩ : (∀ p ∈ previous, p < gid) ∧
      resolveGids modelOf none (gid :: gids) = .ok es := by
    cases previous with
    | none => exact ⟨by simp, h⟩
    | some p =>
      by_cases hle : gid ≤ p
      · simp only [resolveGids, hle, if_true] at h
        cases h
      · simp only [resolveGids, hle, if_false] at h
        exact ⟨by simpa using hle, h⟩
  refine ⟨hprevious, ?_⟩
  cases hmodel : modelOf gid with
  | none =>
    simp only [resolveGids, hmodel] at h
    cases h
  | some model =>
    simp only [resolveGids, hmodel] at h
    obtain ⟨rest, hrest, h⟩ := Except.bind_eq_ok_iff.1 h
    cases h
    exact ⟨model, rest, hrest, rfl⟩

theorem resolveGids_eq_ok {modelOf : Nat → Option Nat} {previous : Option Nat} {gids : List Nat}
    {es : List (Nat × Nat)} (h : resolveGids modelOf previous gids = .ok es) :
    es.map Prod.fst = gids ∧ (∀ p ∈ previous, ∀ e ∈ es, p < e.1) ∧
      es.Pairwise fun a b => a.1 < b.1 := by
  induction gids generalizing previous es with
  | nil =>
    cases h
    simp
  | cons gid gids ih =>
    obtain ⟨hprevious, model, rest, hrest, rfl⟩ := resolveGids_cons_eq_ok h
    obtain ⟨hfst, hbehind, hascending⟩ := ih hrest
    refine ⟨by simp [hfst], ?_, List.pairwise_cons.2 ⟨hbehind gid rfl, hascending⟩⟩
    intro p hp e he
    rcases List.mem_cons.1 he with rfl | he
    · exact hprevious p hp
    · exact (hprevious p hp).trans (hbehind gid rfl e he)

theorem entryAt?_eq (c : Collection) (i : Nat) : c.entryAt? i = c.entries[i]? := by
  obtain ⟨rs⟩ := c
  show entryIn? rs i = (rs.flatMap Run.entries)[i]?
  induction rs generalizing i with
  | nil => rfl
  | cons r rs ih =>
    rw [entryIn?, List.flatMap_cons, List.getElem?_append, Run.length_entries]
    split
    · rename_i hi
      simp [Run.entries, Run.gids, hi]
    · exact ih (i - r.size)

/-- The elements of runs that are in order and apart ascend. -/
theorem ascending_of_apart (h : rs.Pairwise fun r s => r.last < s.first) :
    (rs.flatMap Run.entries).Pairwise fun a b => a.1 < b.1 := by
  refine List.pairwise_flatMap.2 ⟨fun r _ => ?_, h.imp fun {r s} hlt a ha b hb => ?_⟩
  · exact List.pairwise_map.2 List.pairwise_lt_range'
  · obtain ⟨x, hx, rfl⟩ := List.mem_map.1 ha
    obtain ⟨y, hy, rfl⟩ := List.mem_map.1 hb
    rw [Run.mem_gids, Run.contains_eq_true] at hx hy
    show x < y
    omega

theorem entries_ascending (h : Joined c.runs) : c.entries.Pairwise fun a b => a.1 < b.1 :=
  ascending_of_apart h.apart

/-- Runs in the order of their first numbers of which none reaches into the next one are apart. -/
theorem apart_of_overlap? (hnonvoid : Nonvoid rs) (h : overlap? rs = none) :
    rs.Pairwise fun r s => r.last < s.first := by
  induction rs with
  | nil => exact .nil
  | cons r rs ih =>
    cases rs with
    | nil => exact List.pairwise_singleton _ r
    | cons s rs =>
      rw [overlap?] at h
      split at h
      · cases h
      · rename_i hrs
        have htail := ih (List.forall_mem_cons.1 hnonvoid).2 h
        refine List.pairwise_cons.2 ⟨fun t ht => ?_, htail⟩
        rcases List.mem_cons.1 ht with rfl | ht
        · omega
        · have hst := (List.pairwise_cons.1 htail).1 t ht
          have hs := hnonvoid s (by simp)
          omega

/-- The collections that can be made. -/
inductive Built : Collection → Prop
  | ofCount (first count model : Nat) : 1 ≤ count → Built (.ofRun (.ofCount first count model))
  | ofGids {gids : List Nat} {modelOf : Nat → Option Nat} {c : Collection} :
    ofGids gids modelOf = .ok c → Built c
  | concat {c d e : Collection} : Built c → Built d → c.concat d = .ok e → Built e
  | slice {c d : Collection} {start stop step : Nat} :
    Built c → c.slice start stop step = .ok d → Built d

theorem canonical_ofGids {gids : List Nat} {modelOf : Nat → Option Nat}
    (h : Collection.ofGids gids modelOf = .ok c) : c.Canonical := by
  rw [Collection.ofGids] at h
  split at h
  · cases h
  · rename_i hgids
    obtain ⟨es, hes, rfl⟩ := Except.map_eq_ok_iff.1 h
    obtain ⟨hfst, -, hascending⟩ := resolveGids_eq_ok hes
    refine canonical_ofEntries ?_ hascending
    rintro rfl
    simp [← hfst] at hgids

theorem perm_mergedRuns (c d : Collection) : (c.mergedRuns d).Perm (c.runs ++ d.runs) :=
  List.mergeSort_perm _ _

theorem nonvoid_mergedRuns (hc : Nonvoid c.runs) (hd : Nonvoid d.runs) : Nonvoid (c.mergedRuns d) := by
  intro r hr
  rcases List.mem_append.1 ((perm_mergedRuns c d).mem_iff.1 hr) with hr | hr
  · exact hc r hr
  · exact hd r hr

theorem Canonical.concat {e : Collection} (hc : c.Canonical) (hd : d.Canonical)
    (h : c.concat d = .ok e) : e.Canonical := by
  have hnonvoid := nonvoid_mergedRuns hc.first_le_last hd.first_le_last
  have hne : c.mergedRuns d ≠ [] := by
    intro hnil
    have hperm := perm_mergedRuns c d
    rw [hnil, List.nil_perm, List.append_eq_nil_iff] at hperm
    exact hc.ne_nil hperm.1
  rw [Collection.concat] at h
  split at h
  · cases h
  · rename_i hoverlap
    cases h
    exact canonical_ofRuns hne hnonvoid (apart_of_overlap? hnonvoid hoverlap)

theorem Canonical.slice {start stop step : Nat} (hc : c.Canonical)
    (h : c.slice start stop step = .ok d) : d.Canonical := by
  have hascending := entries_ascending (canonical_iff.1 hc).2
  rw [Collection.slice] at h
  split at h
  · cases h
  · rename_i hbounds
    cases h
    have hstep : 0 < step := by omega
    refine canonical_ofEntries ?_ ?_
    · -- The first position has an entry.
      have hstart : start ∈ positions start stop step := by
        have hcount : 0 < (stop - start + step - 1) / step := Nat.div_pos (by omega) hstep
        rw [positions, List.mem_range']
        exact ⟨0, hcount, by simp⟩
      have hlt : start < c.entries.length := by
        rw [length_entries]
        omega
      refine List.ne_nil_of_mem (a := c.entries[start]) (List.mem_filterMap.2 ⟨start, hstart, ?_⟩)
      rw [entryAt?_eq, List.getElem?_eq_getElem hlt]
    · refine List.pairwise_filterMap.2 ((List.pairwise_lt_range' step hstep).imp ?_)
      intro i j hij a ha b hb
      rw [entryAt?_eq] at ha hb
      obtain ⟨hi, rfl⟩ := List.getElem?_eq_some_iff.1 ha
      obtain ⟨hj, rfl⟩ := List.getElem?_eq_some_iff.1 hb
      exact List.pairwise_iff_getElem.1 hascending i j hi hj hij

/-- Whatever is made is canonical. -/
theorem Built.canonical (h : Built c) : c.Canonical := by
  induction h with
  | ofCount first count model _ =>
    refine canonical_iff.2 ⟨by simp [ofRun], joined_cons_iff.2 ⟨?_, by simp, by simp, joined_nil⟩⟩
    exact Nat.le_add_right first (count - 1)
  | ofGids h => exact canonical_ofGids h
  | concat _ _ h hc hd => exact hc.concat hd h
  | slice _ h hc => exact hc.slice h

/-- However collections are made, their runs are in order, apart and as few as possible; and two of them
are equal exactly if they name the same elements of the same models. -/
theorem eq_iff_entries_eq (hc : Built c) (hd : Built d) :
    c.Canonical ∧ d.Canonical ∧ (c = d ↔ c.entries = d.entries) :=
  ⟨hc.canonical, hd.canonical, hc.canonical.eq_iff_entries hd.canonical⟩

/-- Six elements of two models, made from three creations of which the middle one goes first, and picked
by number. -/
theorem eq_iff_entries_eq_picked :
    ∃ c d, Built c ∧ Built d ∧ c.entries = d.entries ∧ c = d ∧ c.Canonical := by
  have hleft : Built (ofRun (.ofCount 4 2 0)) := .ofCount 4 2 0 (by decide)
  have hright : Built (ofRun (.ofCount 1 3 0)) := .ofCount 1 3 0 (by decide)
  have hlast : Built (ofRun (.ofCount 6 1 1)) := .ofCount 6 1 1 (by decide)
  have hboth : Built ⟨[⟨1, 5, 0⟩]⟩ := by
    have hmerged : (ofRun (.ofCount 4 2 0)).mergedRuns (ofRun (.ofCount 1 3 0)) =
        [⟨1, 3, 0⟩, ⟨4, 5, 0⟩] := by
      simp [mergedRuns, ofRun, Run.ofCount, List.mergeSort]
    exact hleft.concat hright (by rw [concat, hmerged]; rfl)
  have hc : Built ⟨[⟨1, 5, 0⟩, ⟨6, 6, 1⟩]⟩ := by
    have hmerged : mergedRuns ⟨[⟨1, 5, 0⟩]⟩ (ofRun (.ofCount 6 1 1)) = [⟨1, 5, 0⟩, ⟨6, 6, 1⟩] := by
      simp [mergedRuns, ofRun, Run.ofCount, List.mergeSort]
    exact hboth.concat hlast (by rw [concat, hmerged]; rfl)
  have hpicked : ofGids [1, 2, 3, 4, 5, 6] (fun gid => some (if gid = 6 then 1 else 0)) =
      .ok ⟨[⟨1, 5, 0⟩, ⟨6, 6, 1⟩]⟩ := rfl
  have hd : Built ⟨[⟨1, 5, 0⟩, ⟨6, 6, 1⟩]⟩ := .ofGids hpicked
  have h := eq_iff_entries_eq hc hd
  exact ⟨_, _, hc, hd, rfl, h.2.2.2 rfl, h.1⟩

end ElementGrid.Collection
