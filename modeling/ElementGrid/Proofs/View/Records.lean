import ElementGrid.Element.Catalogs
import ElementGrid.Proofs.Collection.Queries
import ElementGrid.Proofs.Registry.Hosting
import ElementGrid.Proofs.View.Source
/-!
# Records, element by element

The records of a process stand in the order of their elements. Those of one element are what its instances
on the process say, thread by thread, less what has the bytes of something said before. So an element has
one record just if all who say something of it say the same, and replicas that disagree all have theirs.

## Main definitions

* `ViewRecord.payloadsOf` — what some records say of an element
* `Replicas.distinct` — payloads without repetitions
* `Registry.replicas`, `Registry.saidOf` — the instances of an element on a process, and what they say

## Main results

* `Replicas.find?_collect` — a table holds of each element what was said, without repetitions
* `Replicas.length_distinct_eq_one_iff` — when all payloads are repetitions of one
* `Registry.Sound.map_vp_replicas` — an element has an instance on each thread that the placement rule names
* `Registry.payloadsOf_localRecords` — the records of an element
* `Registry.localRecords_exact` — all of it, in every state that a registry can come to
-/

namespace ElementGrid

variable {E P : Type}

namespace ViewRecord

/-- What some records say of an element, in order. -/
def payloadsOf (records : List (ViewRecord P)) (gid : Nat) : List P :=
  (records.filter fun v => v.gid = gid).map payload

variable {records : List (ViewRecord P)} {gid : Nat}

theorem payloadsOf_append (records others : List (ViewRecord P)) (gid : Nat) :
    payloadsOf (records ++ others) gid = payloadsOf records gid ++ payloadsOf others gid := by
  simp [payloadsOf]

theorem payloadsOf_cons_self (records : List (ViewRecord P)) (gid : Nat) (p : P) :
    payloadsOf (⟨gid, p⟩ :: records) gid = p :: payloadsOf records gid := by
  simp [payloadsOf]

theorem payloadsOf_cons_ne {v : ViewRecord P} (h : v.gid ≠ gid) :
    payloadsOf (v :: records) gid = payloadsOf records gid := by
  simp [payloadsOf, h]

theorem payloadsOf_flatMap {α : Type} (l : List α) (f : α → List (ViewRecord P)) (gid : Nat) :
    payloadsOf (l.flatMap f) gid = l.flatMap fun a => payloadsOf (f a) gid := by
  simp only [payloadsOf, List.filter_flatMap, List.map_flatMap]

/-- Records that all name one element say their payloads of it. -/
theorem payloadsOf_map_self (ps : List P) (gid : Nat) : payloadsOf (ps.map (mk gid)) gid = ps := by
  simp [payloadsOf, List.filter_map, Function.comp_def]

theorem payloadsOf_map_ne {other : Nat} (ps : List P) (h : other ≠ gid) :
    payloadsOf (ps.map (mk other)) gid = [] := by
  simp [payloadsOf, List.filter_map, Function.comp_def, h]

end ViewRecord

open ViewRecord

/-! ## The table of what is said -/

namespace Replicas

variable [Payload P]

/-- The payloads in order, less those that have the bytes of an earlier one. -/
def distinct (ps : List P) : List P :=
  ps.eraseDupsBy fun p q => Payload.encode p == Payload.encode q

theorem foldl_add_nil (ps : List P) : ps.foldl add [] = distinct ps := by
  -- The library keeps what it has seen in reverse.
  have hfold : ∀ known : List P, ps.foldl add known.reverse =
      List.eraseDupsBy.loop (fun p q => Payload.encode p == Payload.encode q) ps known := by
    induction ps with
    | nil => exact fun _ => rfl
    | cons p ps ih =>
      intro known
      have hsymm : ∀ q : P, (Payload.encode q == Payload.encode p) =
          (Payload.encode p == Payload.encode q) := fun _ => BEq.comm
      rw [List.foldl_cons, List.eraseDupsBy.loop, add, List.any_reverse]
      simp only [hsymm]
      split
      · rename_i hknown
        rw [hknown]
        exact ih known
      · rename_i hnew
        rw [Bool.not_eq_true] at hnew
        rw [hnew, ← List.reverse_cons]
        exact ih (p :: known)
  exact hfold []

theorem distinct_cons (p : P) (ps : List P) : distinct (p :: ps) =
    p :: distinct (ps.filter fun q => Payload.encode q ≠ Payload.encode p) := by
  rw [distinct, List.eraseDupsBy_cons]
  simp [distinct, beq_eq_false_iff_ne]

theorem distinct_eq_nil_iff {ps : List P} : distinct ps = [] ↔ ps = [] := by
  cases ps with
  | nil => simp [distinct]
  | cons p ps => simp [distinct_cons]

theorem distinct_of_length_le_one {ps : List P} (h : ps.length ≤ 1) : distinct ps = ps := by
  match ps, h with
  | [], _ => rfl
  | [_], _ => rfl

/-- One payload is left of several just if all have the same bytes. -/
theorem length_distinct_eq_one_iff {ps : List P} : (distinct ps).length = 1 ↔
    ps ≠ [] ∧ ∀ p ∈ ps, ∀ q ∈ ps, Payload.encode p = Payload.encode q := by
  cases ps with
  | nil => simp [distinct]
  | cons p ps =>
    have hrest : (distinct (p :: ps)).length = 1 ↔ ∀ q ∈ ps, Payload.encode q = Payload.encode p := by
      simp [distinct_cons, distinct_eq_nil_iff]
    rw [hrest]
    constructor
    · intro h
      have hall : ∀ q ∈ p :: ps, Payload.encode q = Payload.encode p :=
        List.forall_mem_cons.2 ⟨rfl, h⟩
      exact ⟨List.cons_ne_nil p ps, fun a ha b hb => (hall a ha).trans (hall b hb).symm⟩
    · exact fun h q hq => h.2 q (List.mem_cons_of_mem p hq) p List.mem_cons_self

/-- A table holds of each element what was said of it, without repetitions. -/
theorem find?_collect (said : List (ViewRecord P)) (gid : Nat) :
    ((collect said).find? gid).getD [] = distinct (payloadsOf said gid) := by
  have hfold : ∀ table : SortedMap Nat (List P), ((said.foldl note table).find? gid).getD [] =
      (payloadsOf said gid).foldl add ((table.find? gid).getD []) := by
    induction said with
    | nil => exact fun _ => rfl
    | cons v said ih =>
      intro table
      rw [List.foldl_cons, ih, note]
      by_cases hgid : v.gid = gid
      · obtain ⟨_, p⟩ := v
        obtain rfl := hgid
        rw [SortedMap.find?_insert_self, payloadsOf_cons_self]
        rfl
      · rw [SortedMap.find?_insert_ne _ _ (Ne.symm hgid), payloadsOf_cons_ne hgid]
  rw [← foldl_add_nil]
  exact hfold .empty

omit [Payload P] in
/-- The records of a table are what it holds of each element. -/
theorem payloadsOf_records {table : SortedMap Nat (List P)} (h : table.Sorted) (gid : Nat) :
    payloadsOf (records table) gid = (table.find? gid).getD [] := by
  obtain ⟨entries⟩ := table
  induction entries with
  | nil => rfl
  | cons entry rest ih =>
    obtain ⟨key, payloads⟩ := entry
    obtain ⟨hfirst, hrest⟩ := List.pairwise_cons.1 h
    have hsplit : records ⟨(key, payloads) :: rest⟩ =
        payloads.map (ViewRecord.mk key) ++ records ⟨rest⟩ := List.flatMap_cons
    rw [hsplit, payloadsOf_append, ih hrest]
    by_cases hkey : key = gid
    · subst hkey
      -- The keys behind are greater, so the rest of the table has nothing of the element.
      have hnone : (⟨rest⟩ : SortedMap Nat (List P)).find? key = none := by
        rw [SortedMap.find?_eq_none_iff]
        intro hmem
        obtain ⟨e, he, heq⟩ := List.mem_map.1 hmem
        exact absurd (hfirst e he) (by simp [heq])
      rw [hnone, payloadsOf_map_self]
      simp [SortedMap.find?, SortedMap.findIn?]
    · rw [payloadsOf_map_ne payloads hkey]
      simp [SortedMap.find?, SortedMap.findIn?, Ne.symm hkey]

omit [Payload P] in
/-- The records of a table are in the order of their elements. -/
theorem pairwise_records {table : SortedMap Nat (List P)} (h : table.Sorted) :
    (records table).Pairwise fun u v => u.gid ≤ v.gid := by
  refine List.pairwise_flatMap.2 ⟨fun entry _ => ?_, h.imp fun hlt u hu v hv => ?_⟩
  · exact List.pairwise_map.2 (List.pairwise_of_forall fun _ _ => Nat.le_refl _)
  · obtain ⟨p, -, rfl⟩ := List.mem_map.1 hu
    obtain ⟨q, -, rfl⟩ := List.mem_map.1 hv
    exact Nat.le_of_lt hlt

end Replicas

/-! ## The instances of an element -/

namespace Registry

/-- The instances of an element on a process, thread by thread. -/
def replicas (r : Registry E) (gid : Nat) : List (Node E) :=
  r.workers.flatMap fun w => w.store.nodes.filter fun n => n.gid = gid

/-- What the instances of an element on a process say, thread by thread. -/
def saidOf (r : Registry E) (accessor : Node E → Option P) (gid : Nat) : List P :=
  (r.replicas gid).filterMap accessor

variable {r : Registry E} {config : GridConfig} {catalog : Catalog E} {only : Option Collection}
  {accessor : Node E → Option P} {gid : Nat}

section Sound

variable (hr : Sound config catalog r) {category : Category}
  (hcategory : r.categoryOf gid = .ok category)
include hr

theorem Sound.replicas_eq (gid : Nat) : r.replicas gid = r.workers.filterMap fun w => w.store.find? gid := by
  rw [replicas, List.filterMap_eq_flatMap_toList]
  exact List.flatMap_congr fun w hw => Store.filter_nodes (hr.ascending_of_mem hw) gid

include hcategory

/-- An element has one instance on each thread that the placement rule names, and they stand in the order
of the threads. -/
theorem Sound.map_vp_replicas : (r.replicas gid).map Node.vp =
    ((List.range config.threads).filter fun t => config.shape.hosts gid category ⟨config.rank, t⟩).map
      (Vp.mk config.rank) := by
  let hosts (t : Nat) : Bool := config.shape.hosts gid category ⟨config.rank, t⟩
  have hfound : ∀ t w, r.workers[t]? = some w →
      (w.store.find? gid).map Node.vp = (Option.guard hosts t).map (Vp.mk config.rank) := by
    intro t w hw
    cases hhosts : hosts t with
    | false =>
      simp [hr.find?_of_not_hosts hw hcategory hhosts, Option.guard, hhosts]
    | true =>
      obtain ⟨n, hfind, -, hvp⟩ := hr.exists_find?_of_hosts hw hcategory hhosts
      simp [hfind, Option.guard, hhosts, hvp]
  calc (r.replicas gid).map Node.vp
    _ = (r.workers.map fun w => (w.store.find? gid).map Node.vp).filterMap id := by
      rw [hr.replicas_eq, List.map_filterMap, List.filterMap_map]
      rfl
    _ = ((List.range config.threads).map fun t =>
        (Option.guard hosts t).map (Vp.mk config.rank)).filterMap id := by
      rw [map_eq_map_range hfound, hr.length_workers]
    _ = ((List.range config.threads).filter hosts).map (Vp.mk config.rank) := by
      rw [List.filterMap_map, ← List.filterMap_eq_filter, List.map_filterMap]
      rfl

/-- An element that is not replicated has one instance on the process at most. -/
theorem Sound.length_replicas_le_one (hsingle : category ≠ .device) : (r.replicas gid).length ≤ 1 := by
  let home := config.shape.home gid category
  have hthread : ∀ t ∈ (List.range config.threads).filter fun t =>
      config.shape.hosts gid category ⟨config.rank, t⟩, t = home.thread := by
    intro t ht
    have hhosts := (List.mem_filter.1 ht).2
    rw [GridShape.hosts_eq_home hsingle, decide_eq_true_eq] at hhosts
    show t = (config.shape.home gid category).thread
    rw [hhosts]
  have hnodup := List.nodup_range (n := config.threads) |>.filter fun t =>
    config.shape.hosts gid category ⟨config.rank, t⟩
  rw [List.eq_replicate_of_mem hthread, List.nodup_replicate] at hnodup
  rwa [← List.length_map Node.vp, hr.map_vp_replicas hcategory, List.length_map]

end Sound

/-! ## The records of a process -/

/-- What the instances of a thread say of an element. -/
theorem payloadsOf_nodes (named : Nat → Bool) (accessor : Node E → Option P) (nodes : List (Node E))
    (gid : Nat) :
    payloadsOf (nodes.filterMap fun n =>
        if named n.gid then (accessor n).map (ViewRecord.mk n.gid) else none) gid =
      if named gid then (nodes.filter fun n => n.gid = gid).filterMap accessor else [] := by
  induction nodes with
  | nil => simp [payloadsOf]
  | cons n nodes ih =>
    rw [List.filterMap_cons]
    by_cases hgid : n.gid = gid
    · subst hgid
      rw [List.filter_cons_of_pos (by simp)]
      cases hnamed : named n.gid with
      | false => simpa [hnamed] using ih
      | true =>
        cases haccessor : accessor n with
        | none => simpa [hnamed, haccessor] using ih
        | some p => simpa [hnamed, haccessor, payloadsOf_cons_self] using ih
    · rw [List.filter_cons_of_neg (by simpa using hgid), ← ih]
      split
      · rfl
      · rename_i v hv
        refine payloadsOf_cons_ne ?_
        split at hv
        · obtain ⟨p, -, rfl⟩ := Option.map_eq_some_iff.1 hv
          exact hgid
        · cases hv

/-- What the instances of a process say of an element is what its replicas say, if the element is named. -/
theorem payloadsOf_sayings (r : Registry E) (only : Option Collection) (accessor : Node E → Option P)
    (gid : Nat) : payloadsOf (r.sayings only accessor) gid =
      if only.all fun c => c.contains gid then r.saidOf accessor gid else [] := by
  rw [sayings, payloadsOf_flatMap, saidOf, replicas, List.filterMap_flatMap]
  simp only [payloadsOf_nodes fun gid => only.all fun c => c.contains gid]
  split
  · rfl
  · simp

variable [Payload P]

/-- The records of an element are what its replicas say, without repetitions, if the element is named. -/
theorem payloadsOf_localRecords (r : Registry E) (only : Option Collection)
    (accessor : Node E → Option P) (gid : Nat) : payloadsOf (r.localRecords only accessor) gid =
      if only.all fun c => c.contains gid then Replicas.distinct (r.saidOf accessor gid) else [] := by
  rw [localRecords, Replicas.payloadsOf_records (Replicas.sorted_collect _), Replicas.find?_collect,
    payloadsOf_sayings]
  split <;> rfl

theorem all_contains_iff (honly : ∀ c ∈ only, c.Canonical) :
    (only.all fun c => c.contains gid) = true ↔ ∀ c ∈ only, gid ∈ c.gids := by
  cases only with
  | none => simp
  | some c => simpa using Collection.contains_iff (honly c rfl).apart

/-- Whoever is named in a record is named by the collection, if one is given, and has an instance on the
process that says something. -/
theorem exists_replica_of_mem (honly : ∀ c ∈ only, c.Canonical) {v : ViewRecord P}
    (hv : v ∈ r.localRecords only accessor) : (∀ c ∈ only, v.gid ∈ c.gids) ∧
      ∃ n ∈ r.replicas v.gid, ∃ p, accessor n = some p := by
  have hmem : RawRecord.ofRecord v ∈ (r.localRecords only accessor).map RawRecord.ofRecord :=
    List.mem_map_of_mem hv
  obtain ⟨w, hw, n, hn, hgid, hnamed, p, hp, -⟩ := mem_localRecords_iff.1 hmem
  exact ⟨(all_contains_iff honly).1 hnamed, n,
    List.mem_flatMap.2 ⟨w, hw, List.mem_filter.2 ⟨hn, decide_eq_true hgid⟩⟩, p, hp⟩

/-- In every state that a registry can come to, the records of a process stand in the order of their
elements. Those of an element that the collection names, if one is given, are what its instances on the
process say, thread by thread, less what has the bytes of something said before; so it has one record just if
something is said and all say the same. An element that is not replicated has one record at most, and none
has an element that has no instance on the process, that the collection does not name, or of which nothing
is said. -/
theorem localRecords_exact [Element E] {dispatch : Dispatch} (hcatalog : catalog.Formed)
    (h : Reachable config catalog dispatch r) (honly : ∀ c ∈ only, c.Canonical)
    (accessor : Node E → Option P) :
    let records := r.localRecords only accessor
    records.Pairwise (fun u v => u.gid ≤ v.gid) ∧
    (∀ gid, (∀ c ∈ only, gid ∈ c.gids) →
      payloadsOf records gid = Replicas.distinct (r.saidOf accessor gid) ∧
      ((payloadsOf records gid).length = 1 ↔ r.saidOf accessor gid ≠ [] ∧
        ∀ p ∈ r.saidOf accessor gid, ∀ q ∈ r.saidOf accessor gid,
          Payload.encode p = Payload.encode q)) ∧
    (∀ gid category, r.categoryOf gid = .ok category →
      (r.replicas gid).map Node.vp = ((List.range config.threads).filter fun t =>
        config.shape.hosts gid category ⟨config.rank, t⟩).map (Vp.mk config.rank) ∧
      (category ≠ .device → (payloadsOf records gid).length ≤ 1)) ∧
    ∀ v ∈ records, (∀ c ∈ only, v.gid ∈ c.gids) ∧ r.saidOf accessor v.gid ≠ [] ∧
      ∃ category t, r.categoryOf v.gid = .ok category ∧ t < config.threads ∧
        config.shape.hosts v.gid category ⟨config.rank, t⟩ = true := by
  intro records
  have hr := h.sound hcatalog.numbered
  refine ⟨Replicas.pairwise_records (Replicas.sorted_collect _), fun gid hgid => ?named,
    fun gid category hcategory => ⟨hr.map_vp_replicas hcategory, fun hsingle => ?single⟩,
    fun v hv => ?held⟩
  case named =>
    have hpayloads : payloadsOf records gid = Replicas.distinct (r.saidOf accessor gid) := by
      rw [payloadsOf_localRecords, if_pos ((all_contains_iff honly).2 hgid)]
    exact ⟨hpayloads, hpayloads ▸ Replicas.length_distinct_eq_one_iff⟩
  case single =>
    have hsaid : (r.saidOf accessor gid).length ≤ 1 :=
      Nat.le_trans (List.length_filterMap_le _ _) (hr.length_replicas_le_one hcategory hsingle)
    rw [payloadsOf_localRecords]
    split
    · rwa [Replicas.distinct_of_length_le_one hsaid]
    · exact Nat.zero_le 1
  case held =>
    obtain ⟨hnamed, n, hn, p, hp⟩ := exists_replica_of_mem honly hv
    refine ⟨hnamed, List.ne_nil_of_mem (List.mem_filterMap.2 ⟨n, hn, hp⟩), ?_⟩
    rw [hr.replicas_eq, List.mem_filterMap] at hn
    obtain ⟨w, hw, hfind⟩ := hn
    obtain ⟨t, ht⟩ := List.getElem?_of_mem hw
    obtain ⟨category, hcategory, hhosts⟩ := hr.hosts_of_find? ht hfind
    exact ⟨category, t, hcategory, hr.length_workers ▸ (List.getElem?_eq_some_iff.1 ht).1, hhosts⟩

/-- Two elements on one thread each, of which the first says nothing, and two that are replicated on three
threads, of which the first is not told the same by all and the second is not named. -/
theorem localRecords_exact_divergent :
    let only : Option Collection := some ⟨[⟨1, 3, 0⟩]⟩
    let accessor (n : Node StandardElement) : Option UInt64 :=
      if n.gid = 1 then none else some (.ofNat (n.vp.thread / 2))
    (∀ c ∈ only, c.Canonical) ∧
    ∃ r, Reachable { processes := 1, threads := 3 } StandardElement.catalog .inTurn r ∧
      r.saidOf accessor 3 = [0, 0, 1] ∧
      payloadsOf (r.localRecords only accessor) 3 = [0, 1] ∧
      (payloadsOf (r.localRecords only accessor) 2).length = 1 ∧
      ∀ v ∈ r.localRecords only accessor, v.gid ≠ 1 ∧ v.gid ≠ 4 := by
  intro only accessor
  have honly : ∀ c ∈ only, c.Canonical := by
    intro c hc
    obtain rfl : ⟨[⟨1, 3, 0⟩]⟩ = c := Option.some.inj hc
    exact Collection.canonical_iff.2 ⟨by decide, by simp [Collection.joined_cons_iff,
      Collection.joined_nil]⟩
  obtain ⟨r, hr, hfirst, hsecond, hthird⟩ :
      ∃ r, Reachable { processes := 1, threads := 3 } StandardElement.catalog .inTurn r ∧
        r.saidOf accessor 1 = [] ∧ r.saidOf accessor 2 = [1] ∧ r.saidOf accessor 3 = [0, 0, 1] :=
    ⟨_, ⟨_, [.create "counter" 2, .create "recorder" 2], rfl, rfl⟩, by decide +kernel,
      by decide +kernel, by decide +kernel⟩
  obtain ⟨-, hnamed, -, hheld⟩ :=
    localRecords_exact (Catalog.formed_ofEntries (by decide)) hr honly accessor
  refine ⟨honly, r, hr, hthird, ?_, ?_, fun v hv => ?_⟩
  · rw [(hnamed 3 (by decide)).1, hthird]
    decide +kernel
  · rw [(hnamed 2 (by decide)).2, hsecond]
    simp
  · obtain ⟨hin, hsaid, -⟩ := hheld v hv
    refine ⟨fun hgid => hsaid (hgid ▸ hfirst), fun hgid => ?_⟩
    have hfourth : ∀ c ∈ only, 4 ∈ c.gids := hgid ▸ hin
    exact absurd hfourth (by decide)

end Registry

end ElementGrid
