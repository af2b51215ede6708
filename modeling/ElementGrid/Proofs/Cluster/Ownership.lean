import ElementGrid.Proofs.Cluster.Creation
import ElementGrid.Proofs.Registry.Hosting
import ElementGrid.Proofs.Sorting
/-!
# Who owns an element

Each process stores its share of an element, and the shares of all processes together are what the placement
rule says. They come rank by rank and are put in linear order, in which the rank changes first.

## Main definitions

* `Cluster.Owned` — what a cluster answers of an element that was given out

## Main results

* `Cluster.Uniform.owners_eq` — the virtual processes that hold an element
* `Cluster.ownership` — what a cluster answers after any list of creations
-/

namespace ElementGrid

variable {E : Type} {catalog : Catalog E}

/-! ## The share of one process -/

namespace Registry

variable {r : Registry E} {config : GridConfig} {gid id : Nat} {m : Model E}

theorem ownersOn_of_unknown (h : ∀ id, r.modelOf gid ≠ .ok id) : Cluster.ownersOn gid r = [] := by
  rw [Cluster.ownersOn, List.filterMap_eq_nil_iff]
  intro t _
  cases hid : r.modelOf gid with
  | error e =>
    simp only [get, hid, bind, Except.bind]
    rfl
  | ok id => exact absurd hid (h id)

variable (hid : r.modelOf gid = .ok id) (hm : r.model id = .ok m)
include hid hm

/-- The threads of a process on which an element is found are those that the placement rule gives it to. -/
theorem Sound.ownersOn_eq (hr : Sound config catalog r) : Cluster.ownersOn gid r =
    ((List.range config.threads).map (Vp.mk config.rank)).filter
      (config.shape.hosts gid m.category) := by
  have hthreads : r.threads = config.threads := hr.length_workers
  rw [Cluster.ownersOn, hthreads, ← List.filterMap_eq_filter, List.filterMap_map]
  refine List.filterMap_congr fun t ht => ?_
  have ht := List.mem_range.1 ht
  rw [get_eq hid hm (some t)]
  cases hhosts : config.shape.hosts gid m.category ⟨config.rank, t⟩ with
  | false =>
    simp only [hr.slotOn_of_not_hosts hid hm ht hhosts]
    simp [Option.guard, hhosts, Except.toOption, Slot.node?]
  | true =>
    obtain ⟨n, hslot, -, hvp⟩ := hr.slotOn_of_hosts hid hm ht hhosts
      ⟨gid, id, r.shape.home gid m.category⟩
    simp only [hslot]
    simp [Option.guard, hhosts, Except.toOption, Slot.node?, hvp]

theorem siblings_of_ne_device (hcategory : m.category ≠ .device) :
    r.siblings gid = .error (.notReplicated gid) := by
  simp only [siblings, categoryOf_of_model hid hm, bind, Except.bind, if_pos hcategory]
  rfl

/-- A process stores one instance of a replicated element on each thread. -/
theorem Sound.map_vp_siblings (hr : Sound config catalog r) (hcategory : m.category = .device) :
    (r.workers.filterMap fun w => w.store.find? gid).map Node.vp =
      (List.range config.threads).map (Vp.mk config.rank) := by
  have hstored : (r.workers.map fun w => (w.store.find? gid).map Node.vp) =
      (List.range config.threads).map fun t => some (Vp.mk config.rank t) := by
    rw [← hr.length_workers]
    refine map_eq_map_range fun t w hw => ?_
    obtain ⟨n, hfind, -, hvp⟩ := hr.exists_find?_of_hosts hw
      ((categoryOf_of_model hid hm).trans (congrArg _ hcategory)) rfl
    rw [hfind, Option.map_some, hvp]
  calc (r.workers.filterMap fun w => w.store.find? gid).map Node.vp
      = (r.workers.map fun w => (w.store.find? gid).map Node.vp).filterMap fun vp => vp := by
        rw [List.map_filterMap, List.filterMap_map]
        rfl
    _ = (List.range config.threads).map (Vp.mk config.rank) := by
        rw [hstored, List.filterMap_map]
        exact congrFun List.filterMap_eq_map _

end Registry

namespace Cluster

variable {c : Cluster E}

namespace Uniform

variable {config : GridConfig} {batches : List Run} {next : Nat}

theorem shape_eq (hc : Uniform config catalog batches next c) (hpos : 0 < config.processes) :
    c.shape = config.shape := by
  obtain ⟨r, rs, hrs⟩ := List.exists_cons_of_ne_nil (hc.registries_ne_nil hpos)
  have hr := hc.sound 0 r (by rw [hrs]; rfl)
  rw [shape, processes, threads, hc.length, hrs]
  simp [hr.config_eq, GridConfig.forRank, GridConfig.shape]

/-- The same pass over all processes is a pass over their ranks. -/
theorem flatMap_eq {α : Type} (hc : Uniform config catalog batches next c) {f : Registry E → List α}
    {g : Nat → List α} (h : ∀ rank r, c.registries[rank]? = some r → f r = g rank) :
    c.registries.flatMap f = (List.range config.processes).flatMap g := by
  rw [List.flatMap_def, List.flatMap_def, ← hc.length, map_eq_map_range h]

section Owned

variable (hc : Uniform config catalog batches next c) {b : Run} {m : Model E} {gid : Nat}
  (hb : b ∈ batches) (hgid : b.contains gid = true)

include hc hb hgid

theorem modelOf_eq {rank : Nat} {r : Registry E} (hr : c.registries[rank]? = some r) :
    r.modelOf gid = .ok b.model :=
  (hc.sound rank r hr).modelOf_eq (hc.batches_eq r (List.mem_of_getElem? hr) ▸ hb) hgid

variable (hm : catalog.get? b.model = some m) (hprocesses : 0 < config.processes)
include hm hprocesses

theorem siblings_of_ne_device (hcategory : m.category ≠ .device) :
    c.siblings gid = .error (.notReplicated gid) := by
  obtain ⟨r, rs, hrs⟩ := List.exists_cons_of_ne_nil (hc.registries_ne_nil hprocesses)
  have hr : c.registries[0]? = some r := by rw [hrs]; rfl
  have hrefused := Registry.siblings_of_ne_device (hc.modelOf_eq hb hgid hr)
    ((hc.sound 0 r hr).model_eq hm) hcategory
  rw [siblings, hrs, List.mapM_cons, hrefused]
  rfl

variable (hfits : Word.Fits (config.processes * config.threads))
include hfits

/-- An element is held by the virtual processes that the placement rule gives it to, told in linear
order. -/
theorem owners_eq : c.owners gid = config.shape.allVps.filter (config.shape.hosts gid m.category) := by
  have hshares : c.registries.flatMap (ownersOn gid) =
      ((List.range config.processes).flatMap fun rank =>
        (List.range config.threads).map (Vp.mk rank)).filter (config.shape.hosts gid m.category) := by
    rw [List.filter_flatMap]
    refine hc.flatMap_eq fun rank r hr => ?_
    have hsound := hc.sound rank r hr
    exact hsound.ownersOn_eq (hc.modelOf_eq hb hgid hr) (hsound.model_eq hm)
  -- Rank by rank, the shares are a rearrangement of what the rule says; sorting puts them in its order.
  rw [owners, hc.shape_eq hprocesses]
  refine GridShape.eq_of_perm hfits ((List.mergeSort_perm _ _).trans ?_)
    (pairwise_mergeSort_key _ _) List.filter_sublist
  rw [hshares]
  exact (GridShape.perm_allVps (g := config.shape) hfits).filter _

/-- A replicated element has one instance on each virtual process, told in linear order. -/
theorem siblings_of_device (hcategory : m.category = .device) : ∃ nodes, c.siblings gid = .ok nodes ∧
    nodes.map Node.vp = config.shape.allVps ∧
    ∀ n ∈ nodes, n.gid = gid ∧ ∃ r ∈ c.registries, ∃ w ∈ r.workers, n ∈ w.store.nodes := by
  let share (r : Registry E) : List (Node E) := r.workers.filterMap fun w => w.store.find? gid
  have hfound : c.registries.mapM (fun r => r.siblings gid) = .ok (c.registries.map share) := by
    refine List.mapM_eq_pure_map fun r hr => ?_
    obtain ⟨rank, hrank⟩ := List.getElem?_of_mem hr
    exact Registry.siblings_of_device (hc.modelOf_eq hb hgid hrank) ((hc.sound rank r hrank).model_eq hm)
      hcategory
  have hshares : (c.registries.flatMap share).map Node.vp =
      (List.range config.processes).flatMap fun rank => (List.range config.threads).map (Vp.mk rank) := by
    rw [List.map_flatMap]
    refine hc.flatMap_eq fun rank r hr => ?_
    have hsound := hc.sound rank r hr
    exact hsound.map_vp_siblings (hc.modelOf_eq hb hgid hr) (hsound.model_eq hm) hcategory
  let nodes := (c.registries.flatMap share).mergeSort fun a b =>
    config.shape.toIndex a.vp ≤ config.shape.toIndex b.vp
  have hperm : nodes.Perm (c.registries.flatMap share) := List.mergeSort_perm _ _
  refine ⟨nodes, ?ok, ?order, fun n hn => ?stored⟩
  case ok =>
    rw [siblings, hfound, hc.shape_eq hprocesses]
    rfl
  case order =>
    refine GridShape.eq_of_perm hfits ((hperm.map Node.vp).trans ?_) ?_ (List.Sublist.refl _)
    · rw [hshares]
      exact GridShape.perm_allVps (g := config.shape) hfits
    · exact List.pairwise_map.2 (pairwise_mergeSort_key (fun n : Node E => config.shape.toIndex n.vp) _)
  case stored =>
    obtain ⟨r, hr, hn⟩ := List.mem_flatMap.1 (hperm.mem_iff.1 hn)
    obtain ⟨w, hw, hfind⟩ := List.mem_filterMap.1 hn
    obtain ⟨rank, hrank⟩ := List.getElem?_of_mem hr
    have hs := (hc.sound rank r hrank).ascending_of_mem hw
    obtain ⟨hmem, hgid⟩ := (Store.find?_eq_some_iff hs).1 hfind
    exact ⟨hgid, r, hr, w, hw, hmem⟩

theorem present (hthreads : 0 < config.threads) :
    ∃ r n, c.registries[(config.shape.home gid m.category).rank]? = some r ∧
      r.get gid none = .ok (.present n) ∧ n.gid = gid ∧ n.vp = config.shape.home gid m.category := by
  obtain ⟨hrank, hthread⟩ := (GridShape.mem_allVps_iff hfits).1
    (GridShape.home_mem_allVps (g := config.shape) hfits hprocesses hthreads gid m.category)
  obtain ⟨r, hr⟩ : ∃ r, c.registries[(config.shape.home gid m.category).rank]? = some r :=
    ⟨_, List.getElem?_eq_getElem (by rwa [hc.length])⟩
  have hsound := hc.sound _ r hr
  obtain ⟨n, hget, hn⟩ := hsound.get_home (hc.modelOf_eq hb hgid hr) (hsound.model_eq hm) rfl hthread
  exact ⟨r, n, hr, hget, hn⟩

end Owned

/-- An element that was not given out is held by no virtual process. -/
theorem owners_of_unknown (hc : Uniform config catalog batches next c) {gid : Nat}
    (h : ∀ category, ¬ Belongs catalog batches gid category) : c.owners gid = [] := by
  have hshares : c.registries.flatMap (ownersOn gid) = [] := by
    refine List.flatMap_eq_nil_iff.2 fun r hr => Registry.ownersOn_of_unknown fun id hid => ?_
    obtain ⟨rank, hrank⟩ := List.getElem?_of_mem hr
    have hsound := hc.sound rank r hrank
    obtain ⟨b, hb, hgid⟩ := hsound.contains_iff.2 (Registry.given_of_modelOf hid)
    obtain ⟨m, hm⟩ := hsound.known b hb
    exact h m.category ⟨b, hc.batches_eq r hr ▸ hb, hgid, m, hm, rfl⟩
  rw [owners, hshares, List.mergeSort_nil]

end Uniform

/-- What a cluster of the given shape answers of an element that was given out. -/
structure Owned (c : Cluster E) (processes threads gid : Nat) (category : Category) : Prop where
  owners : c.owners gid =
    match category with
    | .normal => [GridShape.toVp ⟨processes, threads⟩ (gid % (processes * threads))]
    | .device => (List.range (processes * threads)).map (GridShape.toVp ⟨processes, threads⟩)
    | .external => [Vp.origin]
  replicated : category = .device → ∃ nodes, c.siblings gid = .ok nodes ∧
    nodes.map Node.vp = (List.range (processes * threads)).map (GridShape.toVp ⟨processes, threads⟩) ∧
    ∀ n ∈ nodes, n.gid = gid ∧ ∃ r ∈ c.registries, ∃ w ∈ r.workers, n ∈ w.store.nodes
  single : category ≠ .device → c.siblings gid = .error (.notReplicated gid)
  present : ∃ r n, c.registries[(GridShape.home ⟨processes, threads⟩ gid category).rank]? = some r ∧
    r.get gid none = .ok (.present n) ∧ n.gid = gid ∧
    n.vp = GridShape.home ⟨processes, threads⟩ gid category
  absent : ∀ (rank : Nat) (r : Registry E),
    rank ≠ (GridShape.home ⟨processes, threads⟩ gid category).rank → c.registries[rank]? = some r →
    ∃ proxy : Proxy, r.get gid none = .ok (.absent proxy) ∧ proxy.gid = gid ∧
      proxy.home = GridShape.home ⟨processes, threads⟩ gid category

/-- A cluster answers by the placement rule. -/
theorem Uniform.owned {processes threads next : Nat} {batches : List Run} {gid : Nat} {category : Category}
    (hc : Uniform { processes, threads } catalog batches next c) (hprocesses : 0 < processes)
    (hthreads : 0 < threads) (hfits : Word.Fits (processes * threads))
    (h : Belongs catalog batches gid category) : c.Owned processes threads gid category := by
  obtain ⟨b, hb, hgid, m, hm, rfl⟩ := h
  have howners := hc.owners_eq hb hgid hm hprocesses hfits
  have hall := GridShape.allVps_eq (g := ⟨processes, threads⟩) hfits
  refine
    { owners := ?owners
      replicated := fun hcategory => ?replicated
      single := hc.siblings_of_ne_device hb hgid hm hprocesses
      present := hc.present hb hgid hm hprocesses hfits hthreads
      absent := fun rank r hrank hr => ?absent }
  case owners =>
    rw [howners]
    cases hcategory : m.category with
    | normal =>
      rw [GridShape.filter_hosts_allVps hfits hprocesses hthreads gid (by decide)]
      show [GridShape.toVp _ (gid % GridShape.numVps _)] = _
      rw [GridShape.numVps_of_fits _ hfits]
      rfl
    | device => exact (List.filter_eq_self.2 fun _ _ => rfl).trans hall
    | external => exact GridShape.filter_hosts_allVps hfits hprocesses hthreads gid (by decide)
  case replicated =>
    rw [← hall]
    exact hc.siblings_of_device hb hgid hm hprocesses hfits hcategory
  case absent =>
    have hsound := hc.sound rank r hr
    exact ⟨_, hsound.get_away (hc.modelOf_eq hb hgid hr) (hsound.model_eq hm) (Ne.symm hrank), rfl, rfl⟩

/-- Creations on a cluster, of any shape whose virtual processes a word can count, any number of them, each
carried out or refused. A normal element is owned by the virtual process that its number leads to, a device
element by all of them, an external one by the first, and an element that was not given out by none. The
siblings of a device element are one instance for each virtual process, and no other element has any. Asked
without a thread, exactly one process answers for an element with an instance, which is on the element's
home, and all others with a proxy that names this home. -/
theorem ownership {processes threads : Nat} (hprocesses : 0 < processes) (hthreads : 0 < threads)
    (hfits : Word.Fits (processes * threads)) (hcatalog : catalog.Formed) :
    ∃ fresh, start processes threads catalog = .ok fresh ∧ ∀ creations,
      (fresh.createAll creations).registries.length = processes ∧
      ∀ gid, (∀ category, fresh.Given catalog creations gid category →
          (fresh.createAll creations).Owned processes threads gid category) ∧
        ((∀ category, ¬ fresh.Given catalog creations gid category) →
          (fresh.createAll creations).owners gid = []) := by
  obtain ⟨fresh, hstart, huniform⟩ := exists_start hprocesses hthreads catalog
  refine ⟨fresh, hstart, fun creations => ?_⟩
  obtain ⟨batches, next, hc, hgiven⟩ := huniform.createAll hcatalog hprocesses creations
  rw [List.nil_append] at hc
  refine ⟨hc.length, fun gid => ⟨fun category h => ?_, fun h => ?_⟩⟩
  · exact hc.owned hprocesses hthreads hfits ((hgiven gid category).1 h)
  · exact hc.owners_of_unknown fun category hbelongs => h category ((hgiven gid category).2 hbelongs)

/-- Elements of all categories on a grid of two by two. -/
theorem ownership_mixed : Word.Fits (2 * 2) ∧ StandardElement.catalog.Formed ∧
    ∃ fresh, start 2 2 StandardElement.catalog = .ok fresh ∧
      let c := fresh.createAll [("counter", 3), ("recorder", 1), ("stimulus", 1)]
      c.owners 3 = [⟨1, 1⟩] ∧ c.owners 4 = [⟨0, 0⟩, ⟨1, 0⟩, ⟨0, 1⟩, ⟨1, 1⟩] ∧ c.owners 5 = [Vp.origin] ∧
        (∃ nodes, c.siblings 4 = .ok nodes ∧ nodes.length = 4) ∧
        c.siblings 5 = .error (.notReplicated 5) := by
  have hfits : Word.Fits (2 * 2) := by decide
  have hcatalog : StandardElement.catalog.Formed := Catalog.formed_ofEntries (by decide)
  obtain ⟨fresh, hstart, hcreated⟩ := ownership (by decide) (by decide) hfits hcatalog
  cases hstart
  obtain ⟨-, hgiven⟩ := hcreated [("counter", 3), ("recorder", 1), ("stimulus", 1)]
  have hcounter := (hgiven 3).1 .normal
    ⟨[], _, _, rfl, _, _, rfl, by decide, List.mem_of_getElem? (i := 0) rfl, rfl, rfl⟩
  have hrecorder := (hgiven 4).1 .device
    ⟨[_], _, _, rfl, _, _, rfl, by decide, List.mem_of_getElem? (i := 3) rfl, rfl, rfl⟩
  have hstimulus := (hgiven 5).1 .external
    ⟨[_, _], _, _, rfl, _, _, rfl, by decide, List.mem_of_getElem? (i := 4) rfl, rfl, rfl⟩
  obtain ⟨nodes, hnodes, horder, -⟩ := hrecorder.replicated rfl
  refine ⟨hfits, hcatalog, _, rfl, hcounter.owners, hrecorder.owners, hstimulus.owners,
    ⟨nodes, hnodes, ?_⟩, hstimulus.single (by decide)⟩
  rw [← List.length_map Node.vp, horder]
  rfl

end Cluster

end ElementGrid
