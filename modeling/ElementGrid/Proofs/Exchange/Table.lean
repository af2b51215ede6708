import Mathlib.Data.List.Chain
import Mathlib.Data.List.Pairwise
import ElementGrid.Proofs.Exchange.Gathered
/-!
# Tables of offsets

A table is accepted if it begins at zero, never decreases and ends within the buffer. It cuts the buffer into
parts then: each part ends where the next one begins and the last at the end of the buffer, so all parts in
order are the buffer again, and their offsets are the table.

## Main definitions

* `Bytes.between?` — the bytes between two positions, if there are such positions
* `Gathered.stopOf` — where the part of a rank ends
* `Gathered.checkedContribution` — what a rank contributed, cut out by positions that are checked

## Main results

* `Gathered.ofTable_eq_ok_iff` — which tables are accepted
* `Gathered.Valid.flatten_contributions` — all parts in order are the buffer
* `Gathered.Valid.checkedContribution_eq` — no part is cut out beyond the end or with a negative length
* `Gathered.ofContributions_eq_ok_iff` — joining and taking apart are inverse to each other
* `Gathered.tables_faithful` — all of it together
-/

namespace ElementGrid

/-- The bytes from `start` up to `stop`, if there are such positions. -/
def Bytes.between? (bs : Bytes) (start stop : Nat) : Option Bytes :=
  if start ≤ stop ∧ stop ≤ bs.length then some ((bs.take stop).drop start) else none

namespace Gathered

variable {g : Gathered} {buffer : Bytes} {displacements starts : List Nat} {parts : List Bytes} {rank : Nat}

/-- Where the part of a rank ends. -/
def stopOf (g : Gathered) (rank : Nat) : Nat := (g.displacements[rank + 1]?).getD g.buffer.length

/-- What `rank` contributed, cut out by positions that are checked; nothing comes of it if the check fails. -/
def checkedContribution (g : Gathered) (rank : Nat) : Option (Option Bytes) :=
  match g.displacements[rank]? with
  | none => some none
  | some start => (g.buffer.between? start (g.stopOf rank)).map some

/-! ## Which tables are accepted -/

theorem firstDecrease?_eq_none_iff :
    firstDecrease? rank displacements = none ↔ displacements.IsChain (· ≤ ·) := by
  induction displacements generalizing rank with
  | nil => simp [firstDecrease?]
  | cons a rest ih =>
    cases rest with
    | nil => simp [firstDecrease?]
    | cons b rest =>
      rw [firstDecrease?, List.isChain_cons_cons]
      split
      · rename_i hlt
        simp [Nat.not_le.2 hlt]
      · rename_i hle
        simp [ih, Nat.not_lt.1 hle]

/-- The last offset of a table that never decreases bounds all of them. -/
theorem getLastD_le_iff {first n : Nat} {rest : List Nat} (h : (first :: rest).Pairwise (· ≤ ·)) :
    rest.getLastD first ≤ n ↔ ∀ d ∈ first :: rest, d ≤ n := by
  constructor
  · intro hlast d hd
    have hle := h.rel_getLast hd
    rw [List.getLast_eq_getLastD] at hle
    exact Nat.le_trans hle hlast
  · exact fun hall => hall _ List.getLastD_mem_cons

/-- A table is accepted just if it cuts its buffer into contributions. -/
theorem ofTable_eq_ok_iff :
    ofTable buffer displacements = .ok g ↔ g = ⟨buffer, displacements⟩ ∧ g.Valid := by
  constructor
  · intro h
    cases displacements with
    | nil => cases h
    | cons first rest =>
      rw [ofTable] at h
      split at h
      · cases h
      · rename_i hfirst
        split at h
        · cases h
        · rename_i hdecrease
          have hascending := List.isChain_iff_pairwise.1 (firstDecrease?_eq_none_iff.1 hdecrease)
          simp only at h
          split at h
          · cases h
          · rename_i hlast
            cases h
            refine ⟨rfl, ?_, hascending, (getLastD_le_iff hascending).1 (Nat.not_lt.1 hlast)⟩
            simpa using hfirst
  · rintro ⟨rfl, hhead, hascending, hwithin⟩
    obtain ⟨rest, hrest⟩ := List.head?_eq_some_iff.1 hhead
    simp only at hrest hascending hwithin
    subst hrest
    have hdecrease : firstDecrease? 0 (0 :: rest) = none :=
      firstDecrease?_eq_none_iff.2 (List.isChain_iff_pairwise.2 hascending)
    have hlast := (getLastD_le_iff hascending).2 hwithin
    simp only [ofTable, ne_eq, not_true_eq_false, if_false, hdecrease]
    exact if_neg (Nat.not_lt.2 hlast)

/-! ## Parts -/

/-- A part ends within the buffer, and not before it begins. -/
theorem headD_bounds {start n : Nat} {rest : List Nat} (hascending : (start :: rest).Pairwise (· ≤ ·))
    (hwithin : ∀ d ∈ start :: rest, d ≤ n) : start ≤ rest.headD n ∧ rest.headD n ≤ n := by
  cases rest with
  | nil => exact ⟨hwithin start List.mem_cons_self, Nat.le_refl n⟩
  | cons next rest =>
    exact ⟨(List.pairwise_cons.1 hascending).1 next List.mem_cons_self, hwithin next (by simp)⟩

/-- The bytes up to a position and those from there on are all bytes. -/
theorem drop_take_append_drop {start stop : Nat} {bs : Bytes} (hle : start ≤ stop)
    (hstop : stop ≤ bs.length) : (bs.take stop).drop start ++ bs.drop stop = bs.drop start := by
  have hlength : start ≤ (bs.take stop).length := by rwa [List.length_take_of_le hstop]
  rw [← List.drop_append_of_le_length hlength, List.take_append_drop]

section Parts

variable (hascending : starts.Pairwise (· ≤ ·)) (hwithin : ∀ d ∈ starts, d ≤ g.buffer.length)
include hascending hwithin

/-- The parts that begin at some offsets are the buffer from the first of them on. -/
theorem flatten_partsFrom : ((g.partsFrom rank starts).map Prod.snd).flatten =
    g.buffer.drop (starts.headD g.buffer.length) := by
  induction starts generalizing rank with
  | nil => simp [partsFrom]
  | cons start rest ih =>
    obtain ⟨hle, hstop⟩ := headD_bounds hascending hwithin
    have hrest : ((g.partsFrom (rank + 1) rest).map Prod.snd).flatten =
        g.buffer.drop (rest.headD g.buffer.length) :=
      ih hascending.of_cons (List.forall_mem_cons.1 hwithin).2
    rw [partsFrom, List.map_cons, List.flatten_cons, hrest]
    exact drop_take_append_drop hle hstop

/-- The parts that begin at some offsets have these offsets. -/
theorem offsets_partsFrom :
    offsets (starts.headD g.buffer.length) ((g.partsFrom rank starts).map Prod.snd) = starts := by
  induction starts generalizing rank with
  | nil => rfl
  | cons start rest ih =>
    obtain ⟨hle, hstop⟩ := headD_bounds hascending hwithin
    have hrest : offsets (rest.headD g.buffer.length) ((g.partsFrom (rank + 1) rest).map Prod.snd) = rest :=
      ih hascending.of_cons (List.forall_mem_cons.1 hwithin).2
    have hlength : start + ((g.buffer.take (rest.headD g.buffer.length)).drop start).length =
        rest.headD g.buffer.length := by
      rw [List.length_drop, List.length_take_of_le hstop]
      omega
    rw [partsFrom, List.map_cons, List.headD_cons, offsets, hlength, hrest]

end Parts

namespace Valid

variable (hg : g.Valid)
include hg

theorem headD_eq : g.displacements.headD g.buffer.length = 0 := by
  rw [List.headD_eq_head?_getD, hg.head_eq]
  rfl

/-- All parts in order are the buffer. -/
theorem flatten_contributions : (g.contributions.map Prod.snd).flatten = g.buffer := by
  rw [contributions, flatten_partsFrom hg.ascending hg.within, hg.headD_eq, List.drop_zero]

theorem offsets_contributions : offsets 0 (g.contributions.map Prod.snd) = g.displacements := by
  have hoffsets : offsets (g.displacements.headD g.buffer.length) (g.contributions.map Prod.snd) =
      g.displacements := offsets_partsFrom hg.ascending hg.within
  rwa [hg.headD_eq] at hoffsets

theorem contributions_ne_nil : g.contributions.map Prod.snd ≠ [] := by
  intro hnil
  have hempty := hg.offsets_contributions
  rw [hnil] at hempty
  have hhead := hg.head_eq
  rw [← hempty] at hhead
  cases hhead

/-- The parts of a table give the table again. -/
theorem ofContributions_contributions : ofContributions (g.contributions.map Prod.snd) = .ok g := by
  rw [ofContributions_eq_ok hg.contributions_ne_nil, hg.flatten_contributions, hg.offsets_contributions]

/-- The part of a rank is within the buffer. -/
theorem stopOf_bounds {start : Nat} (h : g.displacements[rank]? = some start) :
    start ≤ g.stopOf rank ∧ g.stopOf rank ≤ g.buffer.length := by
  obtain ⟨hrank, rfl⟩ := List.getElem?_eq_some_iff.1 h
  have hdrop : g.displacements.drop rank = g.displacements[rank] :: g.displacements.drop (rank + 1) :=
    List.drop_eq_getElem_cons hrank
  have hascending := hg.ascending.sublist (List.drop_sublist rank g.displacements)
  have hwithin : ∀ d ∈ g.displacements.drop rank, d ≤ g.buffer.length :=
    fun d hd => hg.within d (List.mem_of_mem_drop hd)
  rw [hdrop] at hascending hwithin
  have hbounds := headD_bounds hascending hwithin
  rwa [List.headD_eq_head?_getD, List.head?_drop] at hbounds

/-- No part is cut out beyond the end or backwards. -/
theorem checkedContribution_eq (rank : Nat) : g.checkedContribution rank = some (g.contribution? rank) := by
  rw [checkedContribution, contribution?]
  cases hstart : g.displacements[rank]? with
  | none => rfl
  | some start =>
    simp only [Bytes.between?, if_pos (hg.stopOf_bounds hstart)]
    rfl

end Valid

/-! ## Joining and taking apart -/

/-- Every rank has one part, in rank order. -/
theorem map_fst_partsFrom (g : Gathered) (rank : Nat) (starts : List Nat) :
    (g.partsFrom rank starts).map Prod.fst = List.range' rank starts.length := by
  induction starts generalizing rank with
  | nil => rfl
  | cons start rest ih => rw [partsFrom, List.map_cons, ih, List.length_cons, List.range'_succ]

theorem map_fst_contributions (g : Gathered) :
    g.contributions.map Prod.fst = List.range g.displacements.length := by
  rw [contributions, map_fst_partsFrom, List.range_eq_range']

theorem exists_contribution?_iff :
    (∃ part, g.contribution? rank = some part) ↔ rank < g.displacements.length := by
  rw [contribution?_eq, ← Option.isSome_iff_exists, Option.isSome_map]
  simp [size]

/-- Joining and taking apart are inverse to each other. -/
theorem ofContributions_eq_ok_iff :
    ofContributions parts = .ok g ↔ g.Valid ∧ g.contributions.map Prod.snd = parts := by
  constructor
  · exact fun h => ⟨(ofTable_eq_ok_iff.1 h).2, map_snd_of_ofContributions h⟩
  · rintro ⟨hg, rfl⟩
    exact hg.ofContributions_contributions

theorem exists_ofContributions_eq_error_iff : (∃ e, ofContributions parts = .error e) ↔ parts = [] := by
  constructor
  · rintro ⟨e, he⟩
    by_contra hne
    rw [ofContributions_eq_ok hne] at he
    cases he
  · rintro rfl
    exact ⟨_, ofContributions_nil⟩

/-- The table ends within the buffer if its last offset does. -/
theorem valid_iff : Valid ⟨buffer, displacements⟩ ↔ displacements.head? = some 0 ∧
    displacements.IsChain (· ≤ ·) ∧ ∀ last ∈ displacements.getLast?, last ≤ buffer.length := by
  constructor
  · rintro ⟨hhead, hascending, hwithin⟩
    exact ⟨hhead, List.isChain_iff_pairwise.2 hascending,
      fun last hlast => hwithin last (List.mem_of_getLast? hlast)⟩
  · rintro ⟨hhead, hchain, hlast⟩
    have hascending := List.isChain_iff_pairwise.1 hchain
    obtain ⟨rest, rfl⟩ := List.head?_eq_some_iff.1 hhead
    refine ⟨hhead, hascending, (getLastD_le_iff hascending).1 (hlast _ ?_)⟩
    rw [List.getLast?_cons, List.getLastD_eq_getLast?]
    rfl

/-- A table is accepted just if it is not empty, begins at zero, never decreases and ends within the buffer.
The parts of an accepted table are one for each entry, some of them perhaps empty, and together they are the
buffer; a rank has a part just if the table has an entry for it, and no part is cut out beyond the end or
backwards. The parts of an accepted table give it again, any parts are those of the accepted table that they
give, and only of no parts at all there is none. -/
theorem tables_faithful :
    (∀ buffer displacements, (∃ g, ofTable buffer displacements = .ok g) ↔ displacements.head? = some 0 ∧
      displacements.IsChain (· ≤ ·) ∧ ∀ last ∈ displacements.getLast?, last ≤ buffer.length) ∧
    (∀ buffer displacements g, ofTable buffer displacements = .ok g →
      g = ⟨buffer, displacements⟩ ∧
      (g.contributions.map Prod.snd).flatten = buffer ∧
      g.contributions.map Prod.fst = List.range displacements.length ∧
      (∀ rank, g.contribution? rank = (g.contributions.map Prod.snd)[rank]? ∧
        ((∃ part, g.contribution? rank = some part) ↔ rank < displacements.length) ∧
        g.checkedContribution rank = some (g.contribution? rank)) ∧
      ofContributions (g.contributions.map Prod.snd) = .ok g) ∧
    ∀ parts : List Bytes,
      (parts ≠ [] → ∃ g, ofContributions parts = .ok g ∧ ofTable g.buffer g.displacements = .ok g ∧
        g.contributions.map Prod.snd = parts) ∧
      ((∃ e, ofContributions parts = .error e) ↔ parts = []) := by
  refine ⟨fun buffer displacements => ?accepted, fun buffer displacements g h => ?parts,
    fun parts => ⟨fun hne => ?joined, exists_ofContributions_eq_error_iff⟩⟩
  case accepted =>
    rw [← valid_iff]
    constructor
    · rintro ⟨g, h⟩
      obtain ⟨rfl, hg⟩ := ofTable_eq_ok_iff.1 h
      exact hg
    · exact fun hg => ⟨_, ofTable_eq_ok_iff.2 ⟨rfl, hg⟩⟩
  case parts =>
    obtain ⟨rfl, hg⟩ := ofTable_eq_ok_iff.1 h
    refine ⟨rfl, hg.flatten_contributions, map_fst_contributions _, fun rank => ⟨?_,
      exists_contribution?_iff, hg.checkedContribution_eq rank⟩, hg.ofContributions_contributions⟩
    rw [contribution?_eq, List.getElem?_map]
  case joined =>
    have hok := ofContributions_eq_ok hne
    obtain ⟨hg, hparts⟩ := ofContributions_eq_ok_iff.1 hok
    exact ⟨_, hok, ofTable_eq_ok_iff.2 ⟨rfl, hg⟩, hparts⟩

/-- Five parts of which three are empty, one of them at the beginning and one at the end. -/
theorem tables_faithful_empty :
    ∃ g, ofTable [7, 8, 9] [0, 0, 2, 2, 3] = .ok g ∧ (g.contributions.map Prod.snd).flatten = [7, 8, 9] ∧
      g.contributions.map Prod.fst = [0, 1, 2, 3, 4] ∧ g.checkedContribution 4 = some (some []) ∧
      g.checkedContribution 5 = some none ∧ ofContributions [[], [7, 8], [], [9], []] = .ok g := by
  obtain ⟨haccepted, hparts, -⟩ := tables_faithful
  obtain ⟨g, hg⟩ := (haccepted [7, 8, 9] [0, 0, 2, 2, 3]).2 ⟨rfl, by decide, by decide⟩
  obtain ⟨rfl, hflatten, hranks, hpart, hagain⟩ := hparts _ _ g hg
  exact ⟨_, hg, hflatten, hranks, (hpart 4).2.2, (hpart 5).2.2, hagain⟩

end Gathered

end ElementGrid
