import Mathlib.Data.List.Induction
import ElementGrid.Proofs.Collection.Queries
/-!
# Collections picked by number

A list of numbers makes a collection if it names something, ascends, and names only what has a model. The
numbers are looked at one after the other, each first compared with the one before it and then looked up, so
a list that makes none is refused for the first number that is at fault.

## Main definitions

* `Collection.Known` — numbers that ascend and have models
* `Collection.Offends` — what is wrong with the first number of a list that is at fault

## Main results

* `Collection.resolveGids_append` — numbers without fault are passed over
* `Collection.known_or_offends` — a list is without fault or has a first number at fault
* `Collection.ofGids_gids` — the numbers of a canonical collection make it again
* `Collection.ofGids_exact` — which lists make a collection, and what comes of the others
-/

namespace ElementGrid.Collection

variable {modelOf : Nat → Option Nat} {previous : Option Nat} {gids front rest : List Nat}
  {gid model : Nat} {e : CollectionError} {c : Collection}

/-- The numbers ascend, and each has a model. -/
structure Known (modelOf : Nat → Option Nat) (gids : List Nat) : Prop where
  ascending : gids.Pairwise (· < ·)
  known : ∀ gid ∈ gids, ∃ model, modelOf gid = some model

/-- Some number of the list is at fault, none before it is, and this is what is wrong with it. -/
inductive Offends (modelOf : Nat → Option Nat) : List Nat → CollectionError → Prop
  /-- The number `gid` does not exceed the number `p` before it. -/
  | notSorted {front : List Nat} {p gid : Nat} (rest : List Nat) :
    Known modelOf (front ++ [p]) → gid ≤ p →
    Offends modelOf (front ++ p :: gid :: rest) (.notSorted p gid)
  /-- The number `gid` exceeds the one before it, if there is one, but has no model. -/
  | unknownGid {front : List Nat} {gid : Nat} (rest : List Nat) :
    Known modelOf front → (∀ p ∈ front.getLast?, p < gid) → modelOf gid = none →
    Offends modelOf (front ++ gid :: rest) (.unknownGid gid)

/-- The numbers of a list that have a model, each with its model. -/
def withModels (modelOf : Nat → Option Nat) (gids : List Nat) : List (Nat × Nat) :=
  gids.filterMap fun gid => (modelOf gid).map fun model => (gid, model)

/-! ## Numbers without fault -/

theorem known_nil : Known modelOf [] := ⟨.nil, by simp⟩

theorem known_concat_iff : Known modelOf (front ++ [gid]) ↔
    Known modelOf front ∧ (∀ p ∈ front.getLast?, p < gid) ∧ ∃ model, modelOf gid = some model := by
  have hascending : (front ++ [gid]).Pairwise (· < ·) ↔
      front.Pairwise (· < ·) ∧ ∀ p ∈ front.getLast?, p < gid := by
    simp [← List.isChain_iff_pairwise, List.isChain_append]
  constructor
  · rintro ⟨hpairwise, hknown⟩
    obtain ⟨hfront, hlast⟩ := hascending.1 hpairwise
    obtain ⟨hknown, hmodel⟩ := List.forall_mem_append.1 hknown
    exact ⟨⟨hfront, hknown⟩, hlast, hmodel gid (List.mem_singleton_self gid)⟩
  · rintro ⟨⟨hfront, hknown⟩, hlast, hmodel⟩
    refine ⟨hascending.2 ⟨hfront, hlast⟩, List.forall_mem_append.2 ⟨hknown, ?_⟩⟩
    simpa using hmodel

/-! ## One number after the other -/

theorem resolveGids_cons_of_le {p : Nat} (h : gid ≤ p) :
    resolveGids modelOf (some p) (gid :: rest) = .error (.notSorted p gid) := by
  simp only [resolveGids, h, if_true]
  rfl

section Ascending

variable (hprevious : ∀ p ∈ previous, p < gid)
include hprevious

/-- A number that exceeds the one before it is looked up. -/
theorem resolveGids_cons_of_lt : resolveGids modelOf previous (gid :: rest) =
    match modelOf gid with
    | none => .error (.unknownGid gid)
    | some model => ((gid, model) :: ·) <$> resolveGids modelOf (some gid) rest := by
  cases previous with
  | none =>
    simp only [resolveGids]
    cases modelOf gid <;> rfl
  | some p =>
    have hlt : ¬ gid ≤ p := Nat.not_le.2 (hprevious p rfl)
    simp only [resolveGids, hlt, if_false]
    cases modelOf gid <;> rfl

theorem resolveGids_cons_of_unknown (hmodel : modelOf gid = none) :
    resolveGids modelOf previous (gid :: rest) = .error (.unknownGid gid) := by
  rw [resolveGids_cons_of_lt hprevious, hmodel]

theorem resolveGids_cons_of_known (hmodel : modelOf gid = some model) :
    resolveGids modelOf previous (gid :: rest) =
      ((gid, model) :: ·) <$> resolveGids modelOf (some gid) rest := by
  rw [resolveGids_cons_of_lt hprevious, hmodel]

end Ascending

/-- Numbers without fault are passed over, and the next is compared with the last of them. -/
theorem resolveGids_append (h : Known modelOf front) (rest : List Nat) :
    resolveGids modelOf none (front ++ rest) =
      (withModels modelOf front ++ ·) <$> resolveGids modelOf front.getLast? rest := by
  induction front using List.reverseRecOn generalizing rest with
  | nil => simp [withModels]
  | append_singleton front gid ih =>
    obtain ⟨hfront, hlast, model, hmodel⟩ := known_concat_iff.1 h
    rw [List.append_assoc, List.singleton_append, ih hfront, resolveGids_cons_of_known hlast hmodel]
    simp [withModels, hmodel]

theorem Known.resolveGids_eq (h : Known modelOf gids) :
    resolveGids modelOf none gids = .ok (withModels modelOf gids) := by
  have happend := resolveGids_append h []
  rw [List.append_nil] at happend
  rw [happend, resolveGids]
  simp

theorem Offends.resolveGids_eq (h : Offends modelOf gids e) : resolveGids modelOf none gids = .error e := by
  cases h with
  | @notSorted front p gid rest hknown hle =>
    have hsplit : front ++ p :: gid :: rest = (front ++ [p]) ++ gid :: rest := by simp
    rw [hsplit, resolveGids_append hknown, List.getLast?_concat, resolveGids_cons_of_le hle]
    rfl
  | unknownGid rest hknown hlast hmodel =>
    rw [resolveGids_append hknown, resolveGids_cons_of_unknown hlast hmodel]
    rfl

/-- What follows the first number at fault makes no difference. -/
theorem Offends.append (h : Offends modelOf gids e) (further : List Nat) :
    Offends modelOf (gids ++ further) e := by
  cases h with
  | notSorted rest hknown hle =>
    rw [List.append_assoc]
    exact .notSorted (rest ++ further) hknown hle
  | unknownGid rest hknown hlast hmodel =>
    rw [List.append_assoc]
    exact .unknownGid (rest ++ further) hknown hlast hmodel

/-- A list is without fault or has a first number at fault. -/
theorem known_or_offends (modelOf : Nat → Option Nat) (gids : List Nat) :
    Known modelOf gids ∨ ∃ e, Offends modelOf gids e := by
  induction gids using List.reverseRecOn with
  | nil => exact .inl known_nil
  | append_singleton front gid ih =>
    rcases ih with hfront | ⟨e, he⟩
    · by_cases hlast : ∀ p ∈ front.getLast?, p < gid
      · cases hmodel : modelOf gid with
        | none => exact .inr ⟨_, .unknownGid [] hfront hlast hmodel⟩
        | some model => exact .inl (known_concat_iff.2 ⟨hfront, hlast, model, hmodel⟩)
      · -- There is a last number then, and `gid` does not exceed it.
        push Not at hlast
        obtain ⟨p, hp, hle⟩ := hlast
        obtain ⟨init, rfl⟩ := List.getLast?_eq_some_iff.1 hp
        rw [List.append_assoc]
        exact .inr ⟨_, .notSorted [] hfront hle⟩
    · exact .inr ⟨e, he.append [gid]⟩

/-! ## Collections -/

theorem Known.ofGids_eq (h : Known modelOf gids) (hne : gids ≠ []) :
    ofGids gids modelOf = .ok (ofEntries (withModels modelOf gids)) := by
  rw [ofGids, if_neg (by simpa using hne), h.resolveGids_eq]
  rfl

theorem Offends.ofGids_eq (h : Offends modelOf gids e) : ofGids gids modelOf = .error e := by
  have hne : gids ≠ [] := by cases h <;> simp
  rw [ofGids, if_neg (by simpa using hne), h.resolveGids_eq]
  rfl

theorem ofGids_eq_ok_iff : ofGids gids modelOf = .ok c ↔
    gids ≠ [] ∧ Known modelOf gids ∧ c = ofEntries (withModels modelOf gids) := by
  constructor
  · intro h
    have hne : gids ≠ [] := by
      rintro rfl
      cases h
    rcases known_or_offends modelOf gids with hknown | ⟨e, he⟩
    · rw [hknown.ofGids_eq hne] at h
      exact ⟨hne, hknown, (Except.ok.inj h).symm⟩
    · rw [he.ofGids_eq] at h
      cases h
  · rintro ⟨hne, hknown, rfl⟩
    exact hknown.ofGids_eq hne

theorem ofGids_eq_error_iff :
    ofGids gids modelOf = .error e ↔ gids = [] ∧ e = .empty ∨ Offends modelOf gids e := by
  constructor
  · intro h
    by_cases hempty : gids = []
    · subst hempty
      cases h
      exact .inl ⟨rfl, rfl⟩
    rcases known_or_offends modelOf gids with hknown | ⟨e', he'⟩
    · rw [hknown.ofGids_eq hempty] at h
      cases h
    · rw [he'.ofGids_eq] at h
      cases h
      exact .inr he'
  · rintro (⟨rfl, rfl⟩ | h)
    · rfl
    · exact h.ofGids_eq

/-! ## Entries -/

/-- Every known number is paired with its model. -/
theorem Known.map_withModels (h : Known modelOf gids) :
    (withModels modelOf gids).map (fun entry => (entry.1, some entry.2)) =
      gids.map fun gid => (gid, modelOf gid) := by
  have hmodels : ∀ gid ∈ gids,
      ((modelOf gid).map fun model => (gid, model)).map (fun entry => (entry.1, some entry.2)) =
        some (gid, modelOf gid) := by
    intro gid hgid
    obtain ⟨model, hmodel⟩ := h.known gid hgid
    rw [hmodel]
    rfl
  rw [withModels, List.map_filterMap, List.filterMap_congr hmodels]
  exact congrFun List.filterMap_eq_map gids

section Canonical

variable (hc : c.Canonical)
include hc

theorem Canonical.gids_ne_nil : c.gids ≠ [] := by
  obtain ⟨r, hr⟩ := List.exists_mem_of_ne_nil _ hc.ne_nil
  have hcontains : r.contains r.first = true :=
    r.contains_eq_true.2 ⟨Nat.le_refl _, hc.first_le_last r hr⟩
  exact List.ne_nil_of_mem (mem_gids_iff.2 ⟨r, hr, hcontains⟩)

theorem Canonical.known_gids : Known c.modelOf? c.gids := by
  constructor
  · rw [← map_fst_entries]
    exact List.pairwise_map.2 (ascending_of_apart hc.apart)
  · intro gid hgid
    exact Option.ne_none_iff_exists'.1 fun hnone => (modelOf?_eq_none_iff hc.apart).1 hnone hgid

/-- The numbers of a canonical collection, each with the model that the collection tells, are its entries. -/
theorem Canonical.withModels_gids : withModels c.modelOf? c.gids = c.entries := by
  have hinjective : Function.Injective fun entry : Nat × Nat => (entry.1, some entry.2) := by
    rintro ⟨gid, model⟩ ⟨gid', model'⟩ heq
    cases heq
    rfl
  refine List.map_injective_iff.2 hinjective (hc.known_gids.map_withModels.trans ?_)
  rw [← map_fst_entries, List.map_map]
  refine List.map_congr_left fun entry hentry => ?_
  exact congrArg (Prod.mk entry.1) ((modelOf?_eq_some_iff hc.apart).2 hentry)

/-- The numbers of a canonical collection make it again. -/
theorem Canonical.ofGids_gids : ofGids c.gids c.modelOf? = .ok c := by
  refine ofGids_eq_ok_iff.2 ⟨hc.gids_ne_nil, hc.known_gids, ?_⟩
  rw [hc.withModels_gids, ofEntries_entries (canonical_iff.1 hc).2]

end Canonical

/-- A list of numbers makes a collection just if it names something, ascends, and each of its numbers has a
model; the collection is canonical then and pairs each number with its model. Every other list is refused,
an empty one as such and any other for its first number at fault, which is compared with the one before it
first and looked up then. The numbers of a canonical collection make the same collection again. -/
theorem ofGids_exact (modelOf : Nat → Option Nat) (gids : List Nat) :
    ((∃ c, ofGids gids modelOf = .ok c) ↔
      gids ≠ [] ∧ gids.Pairwise (· < ·) ∧ ∀ gid ∈ gids, ∃ model, modelOf gid = some model) ∧
    (∀ c, ofGids gids modelOf = .ok c → c.Canonical ∧
      c.entries.map (fun entry => (entry.1, some entry.2)) = gids.map fun gid => (gid, modelOf gid)) ∧
    (∀ e, ofGids gids modelOf = .error e ↔ gids = [] ∧ e = .empty ∨ Offends modelOf gids e) ∧
    ∀ c : Collection, c.Canonical → ofGids c.gids c.modelOf? = .ok c := by
  refine ⟨⟨?known, ?made⟩, fun c hc => ⟨canonical_ofGids hc, ?entries⟩, fun e => ofGids_eq_error_iff,
    fun c hc => hc.ofGids_gids⟩
  case known =>
    rintro ⟨c, hc⟩
    obtain ⟨hne, hknown, -⟩ := ofGids_eq_ok_iff.1 hc
    exact ⟨hne, hknown.ascending, hknown.known⟩
  case made =>
    rintro ⟨hne, hascending, hmodels⟩
    exact ⟨_, ofGids_eq_ok_iff.2 ⟨hne, ⟨hascending, hmodels⟩, rfl⟩⟩
  case entries =>
    obtain ⟨-, hknown, rfl⟩ := ofGids_eq_ok_iff.1 hc
    rw [entries_ofEntries, hknown.map_withModels]

/-- Numbers looked up in a collection of two models with a gap. Of two numbers at fault the first counts, and
a number that does not ascend is not looked up. -/
theorem ofGids_exact_gap :
    let c : Collection := ⟨[⟨2, 4, 0⟩, ⟨5, 5, 1⟩, ⟨9, 11, 0⟩]⟩
    c.Canonical ∧ ofGids c.gids c.modelOf? = .ok c ∧
      (∃ d, ofGids [3, 4, 5, 9] c.modelOf? = .ok d ∧ d.entries.map (fun entry => (entry.1, some entry.2)) =
        [(3, some 0), (4, some 0), (5, some 1), (9, some 0)]) ∧
      ofGids [] c.modelOf? = .error .empty ∧
      ofGids [2, 5, 1, 12] c.modelOf? = .error (.notSorted 5 1) ∧
      ofGids [2, 5, 12, 1] c.modelOf? = .error (.unknownGid 12) := by
  intro c
  have hc : c.Canonical := canonical_iff.2 ⟨by decide, by simp [c, joined_cons_iff, joined_nil,
    Run.Continues]⟩
  have hknown : Known c.modelOf? ([2] ++ [5]) := by
    obtain ⟨-, hascending, hmodels⟩ := (ofGids_exact c.modelOf? [2, 5]).1.1 ⟨_, rfl⟩
    exact ⟨hascending, hmodels⟩
  have hunsorted : Offends c.modelOf? [2, 5, 1, 12] (.notSorted 5 1) := .notSorted [12] hknown (by decide)
  have hunknown : Offends c.modelOf? [2, 5, 12, 1] (.unknownGid 12) :=
    .unknownGid [1] hknown (by decide) (by decide)
  obtain ⟨-, hentries, -, hagain⟩ := ofGids_exact c.modelOf? [3, 4, 5, 9]
  exact ⟨hc, hagain c hc, ⟨_, rfl, (hentries _ rfl).2⟩, ((ofGids_exact _ _).2.2.1 _).2 (.inl ⟨rfl, rfl⟩),
    ((ofGids_exact _ _).2.2.1 _).2 (.inr hunsorted), ((ofGids_exact _ _).2.2.1 _).2 (.inr hunknown)⟩

end ElementGrid.Collection
