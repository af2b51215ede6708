import Mathlib.Data.List.Permutation
import ElementGrid.Proofs.SortedMap
import ElementGrid.Proofs.Sorting
import ElementGrid.Proofs.View.Agreement
/-!
# Delivered views

A view is delivered into a map or into a list that may hold anything already. The map is overridden by the
view; the list takes it in where the elements belong, behind what it holds of the same elements. A round
that fails, for whatever reason, delivers nothing.

## Main definitions

* `View.Overridden` — a map as it was, but for what a view says
* `View.TakenIn` — a list in order that holds what a list and a view held, as it came

## Main results

* `View.ascending_gather` — the records of a view come in order, one of each element
* `View.eq_addToIndex_iff`, `View.eq_addSorted_iff` — what is delivered is what these say, and nothing else
* `View.delivery_exact` — what comes of a delivery
-/

namespace ElementGrid

/-! ## Programs that go on with a result -/

theorem Exchange.against_map {α β : Type} (f : α → β) (x : Exchange α)
    (reply : Except ExchangeError Gathered) :
    (f <$> x).against reply = (f (x.against reply).1, (x.against reply).2) := by
  change (x.bind fun a => .done (f a)).against reply = _
  induction x with
  | done a => rfl
  | gather bytes next ih => simp only [bind, against, ih]
  | abort reason next ih => simp only [bind, against, ih]
  | poll next ih => simp only [bind, against, ih]

namespace View

variable {P : Type}

/-! ## The order of a view -/

/-- The records come by ascending element, so there is one of each at most. -/
def Ascending (view : List (ViewRecord P)) : Prop := view.Pairwise fun u v => u.gid < v.gid

section Round

variable [Payload P] {reply : Except ExchangeError Gathered} {view : List (ViewRecord P)}

omit [Payload P] in
theorem ascending_canonicalize {policy : ConflictPolicy} {records : List (Contributed P)}
    (h : (Canonical.canonicalize policy records).result = .ok view) : Ascending view := by
  rw [Canonical.canonicalize] at h
  split at h
  · rename_i out hout
    cases h
    exact (Canonical.scan_records (Canonical.pairwise_sorted records) (by simp) hout).ascending
  · cases h

theorem ascending_receive {policy : ConflictPolicy} {participants : Nat} {sent : Bytes}
    (h : (receive policy participants sent reply).result = .ok view) : Ascending view := by
  cases reply with
  | error e => cases h
  | ok g =>
    rw [receive] at h
    cases hcount : checkParticipants participants g with
    | error e =>
      rw [hcount] at h
      cases h
    | ok _ =>
      simp only [hcount, Canonical.resolve] at h
      cases hread : Canonical.decodeAll P g with
      | error e =>
        rw [hread] at h
        cases h
      | ok records =>
        rw [hread] at h
        exact ascending_canonicalize h

omit [Payload P] in
/-- Tearing the group down does not change what a round came to. -/
theorem against_conclude (o : Canonical.Outcome P) : ((conclude o).against reply).1 = o := by
  rw [conclude]
  split
  · split <;> rfl
  · rfl

/-- The records of a view come in order, one of each element. -/
theorem ascending_gather {config : ViewConfig} {participants : Nat} {records : List (ViewRecord P)}
    (h : ((gather config participants records).against reply).1.result = .ok view) :
    Ascending view := by
  cases hencode : Contribution.encode records with
  | error e =>
    rw [gather, hencode] at h
    cases h
  | ok bytes =>
    rw [gather_eq hencode, Exchange.against] at h
    dsimp only at h
    rw [against_conclude] at h
    exact ascending_receive h

end Round

/-! ## Maps -/

/-- The map says what the view says, and of all other elements what it said before. -/
structure Overridden (index : SortedMap Nat P) (view : List (ViewRecord P)) (index' : SortedMap Nat P) :
    Prop where
  sorted : index'.Sorted
  find?_of_mem : ∀ r ∈ view, index'.find? r.gid = some r.payload
  find?_of_not_mem : ∀ gid, (∀ r ∈ view, r.gid ≠ gid) → index'.find? gid = index.find? gid

theorem Overridden.unique {index index' index'' : SortedMap Nat P} {view : List (ViewRecord P)}
    (h : Overridden index view index') (h' : Overridden index view index'') : index' = index'' := by
  refine SortedMap.eq_of_find? h.sorted h'.sorted fun gid => ?_
  by_cases hgid : ∃ r ∈ view, r.gid = gid
  · obtain ⟨r, hr, rfl⟩ := hgid
    rw [h.find?_of_mem r hr, h'.find?_of_mem r hr]
  · have hne : ∀ r ∈ view, r.gid ≠ gid := fun r hr heq => hgid ⟨r, hr, heq⟩
    rw [h.find?_of_not_mem gid hne, h'.find?_of_not_mem gid hne]

/-- A view that is delivered into a map overrides it. -/
theorem overridden_addToIndex {index : SortedMap Nat P} {view : List (ViewRecord P)}
    (hindex : index.Sorted) (hview : Ascending view) : Overridden index view (addToIndex index view) := by
  induction view generalizing index with
  | nil => exact ⟨hindex, by simp, fun _ _ => rfl⟩
  | cons r rest ih =>
    obtain ⟨hfirst, hrest⟩ := List.pairwise_cons.1 hview
    have h := ih (SortedMap.sorted_insert hindex r.gid r.payload) hrest
    refine ⟨h.sorted, fun s hs => ?_, fun gid hgid => ?_⟩
    · rcases List.mem_cons.1 hs with rfl | hs
      · -- What follows is about greater elements and leaves the first record in place.
        have hlater := h.find?_of_not_mem s.gid fun t ht => (hfirst t ht).ne'
        exact hlater.trans (SortedMap.find?_insert_self index s.gid s.payload)
      · exact h.find?_of_mem s hs
    · have hlater := h.find?_of_not_mem gid fun t ht => hgid t (List.mem_cons_of_mem r ht)
      exact hlater.trans (SortedMap.find?_insert_ne index r.payload (hgid r List.mem_cons_self).symm)

theorem eq_addToIndex_iff {index index' : SortedMap Nat P} {view : List (ViewRecord P)}
    (hindex : index.Sorted) (hview : Ascending view) :
    index' = addToIndex index view ↔ Overridden index view index' := by
  have hadd := overridden_addToIndex hindex hview
  constructor
  · rintro rfl
    exact hadd
  · intro h
    exact h.unique hadd

theorem addToIndex_eq_insertAll (index : SortedMap Nat P) (view : List (ViewRecord P)) :
    addToIndex index view = index.insertAll (view.map fun r => (r.gid, r.payload)) := by
  rw [SortedMap.insertAll, List.foldl_map]
  rfl

/-! ## Lists -/

/-- The list holds what a list and a view held, by element; of each element it holds what the list held,
and then what the view held, in their order. -/
structure TakenIn (list view list' : List (ViewRecord P)) : Prop where
  perm : list'.Perm (list ++ view)
  ordered : list'.Pairwise fun u v => u.gid ≤ v.gid
  stable : ∀ gid, list'.filter (fun r => r.gid == gid) =
    list.filter (fun r => r.gid == gid) ++ view.filter fun r => r.gid == gid

/-- A view that is delivered into a list is taken in by it. -/
theorem takenIn_addSorted (list view : List (ViewRecord P)) : TakenIn list view (addSorted list view) where
  perm := List.mergeSort_perm _ _
  ordered := pairwise_mergeSort_key ViewRecord.gid _
  stable gid := (filter_mergeSort_key ViewRecord.gid _ gid).trans (List.filter_append _ _)

theorem eq_addSorted_iff {list view list' : List (ViewRecord P)} :
    list' = addSorted list view ↔ TakenIn list view list' := by
  have hadd := takenIn_addSorted list view
  constructor
  · rintro rfl
    exact hadd
  · intro h
    exact eq_of_filter_key h.ordered hadd.ordered fun gid => (h.stable gid).trans (hadd.stable gid).symm

/-! ## Deliveries -/

/-- Whatever a process contributes to a round, and however the round ends:

If it leads to a view, its records come in order and one of each element. Delivered into a map, each of them
is inserted once in that order, which leaves the one map that is overridden by the view. Delivered into a
list, in order or not, they leave the one list that has taken in the view. Both tell how many records the
view has.

If it fails, both fail likewise and leave the map or the list as it was. The traffic and the events are those
of the round in either case. -/
theorem delivery_exact [Payload P] (config : ViewConfig) (participants : Nat)
    (records : List (ViewRecord P)) (reply : Except ExchangeError Gathered) :
    let round := (gather config participants records).against reply
    (∀ view, round.1.result = .ok view → Ascending view ∧
      (∀ index : SortedMap Nat P, index.Sorted →
        ∃ index', (gatherInto config participants records index).against reply =
            (⟨.ok view.length, index', round.1.events⟩, round.2) ∧
          index' = index.insertAll (view.map fun r => (r.gid, r.payload)) ∧
          ∀ other, other = index' ↔ Overridden index view other) ∧
      ∀ list : List (ViewRecord P),
        ∃ list', (gatherSorted config participants records list).against reply =
            (⟨.ok view.length, list', round.1.events⟩, round.2) ∧
          ∀ other, other = list' ↔ TakenIn list view other) ∧
    ∀ e, round.1.result = .error e →
      (∀ index : SortedMap Nat P, (gatherInto config participants records index).against reply =
        (⟨.error e, index, round.1.events⟩, round.2)) ∧
      ∀ list : List (ViewRecord P), (gatherSorted config participants records list).against reply =
        (⟨.error e, list, round.1.events⟩, round.2) := by
  intro round
  simp only [gatherInto, gatherSorted, Exchange.against_map, Delivery.of]
  refine ⟨fun view hview => ⟨ascending_gather hview, fun index hindex => ?_, fun list => ?_⟩,
    fun e he => ⟨fun index => ?_, fun list => ?_⟩⟩
  · rw [hview]
    exact ⟨_, rfl, addToIndex_eq_insertAll index view,
      fun other => eq_addToIndex_iff hindex (ascending_gather hview)⟩
  · rw [hview]
    exact ⟨_, rfl, fun other => eq_addSorted_iff⟩
  · rw [he]
  · rw [he]

/-- Two processes agree on the element `2`, which the list holds already; the map knows the element `7` by
another value. A round that somebody leaves changes neither of them. -/
theorem delivery_exact_overlapping :
    let config : ViewConfig := ⟨.reject⟩
    let mine : List (ViewRecord UInt64) := [⟨7, 70⟩, ⟨2, 20⟩]
    let theirs : List (ViewRecord UInt64) := [⟨2, 20⟩, ⟨9, 90⟩]
    let reply := Gathered.ofContributions <| [mine, theirs].map fun records =>
      Contribution.header UInt64 records.length ++ records.flatMap Contribution.encodeRecord
    let index : SortedMap Nat UInt64 := ⟨[(7, 1), (8, 2)]⟩
    let list : List (ViewRecord UInt64) := [⟨9, 1⟩, ⟨2, 2⟩, ⟨9, 3⟩]
    let left : Except ExchangeError Gathered := .error (.aborted "rank 1 left")
    ((gather config 2 mine).against reply).1.result = .ok [⟨2, 20⟩, ⟨7, 70⟩, ⟨9, 90⟩] ∧
      index.Sorted ∧
      ((gatherInto config 2 mine index).against reply).1.destination =
        ⟨[(2, 20), (7, 70), (8, 2), (9, 90)]⟩ ∧
      ((gatherSorted config 2 mine list).against reply).1.destination =
        [⟨2, 2⟩, ⟨2, 20⟩, ⟨7, 70⟩, ⟨9, 1⟩, ⟨9, 3⟩, ⟨9, 90⟩] ∧
      ((gatherInto config 2 mine index).against left).1.destination = index ∧
      ((gatherSorted config 2 mine list).against left).1.destination = list := by
  intro config mine theirs reply index list left
  have hview : ((gather config 2 mine).against reply).1.result = .ok [⟨2, 20⟩, ⟨7, 70⟩, ⟨9, 90⟩] := by
    cbv
  have hindex : index.Sorted := by simp [SortedMap.Sorted, index]
  obtain ⟨hdelivered, -⟩ := delivery_exact config 2 mine reply
  obtain ⟨-, hmap, hlist⟩ := hdelivered _ hview
  obtain ⟨index', hinto, rfl, -⟩ := hmap index hindex
  obtain ⟨list', hsorted, htaken⟩ := hlist list
  have hstable : TakenIn list [⟨2, 20⟩, ⟨7, 70⟩, ⟨9, 90⟩]
      [⟨2, 2⟩, ⟨2, 20⟩, ⟨7, 70⟩, ⟨9, 1⟩, ⟨9, 3⟩, ⟨9, 90⟩] := by
    refine ⟨by decide, by simp, fun gid => ?_⟩
    by_cases h2 : 2 = gid
    · subst h2
      rfl
    by_cases h9 : 9 = gid
    · subst h9
      rfl
    simp [list, List.filter_cons, h2, h9]
  obtain ⟨-, hfailed⟩ := delivery_exact config 2 mine left
  obtain ⟨hmap, hlist⟩ := hfailed (.exchange (.aborted "rank 1 left")) rfl
  refine ⟨hview, hindex, ?_, ?_, ?_, ?_⟩
  · rw [hinto]
    rfl
  · rw [hsorted, (htaken _).2 hstable]
  · rw [hmap index]
  · rw [hlist list]

end View

end ElementGrid
