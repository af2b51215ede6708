import ElementGrid.Proofs.Registry.Allocation
import ElementGrid.Proofs.Store
/-!
# Where an element is found

A thread stores the elements that the placement rule gives it, so a look-up finds an instance where the
rule says so and a proxy everywhere else.

## Main results

* `Registry.Sound.hosts_of_find?`, `Registry.Sound.exists_find?_of_hosts` — an element is found on a thread
  if and only if the placement rule gives it to the thread
* `Registry.get_eq` — what a look-up comes to
-/

namespace ElementGrid

/-- A pass over a list is a pass over its places. -/
theorem map_eq_map_range {α β : Type} {l : List α} {f : α → β} {g : Nat → β}
    (h : ∀ i a, l[i]? = some a → f a = g i) : l.map f = (List.range l.length).map g := by
  apply List.ext_getElem?
  intro i
  rw [List.getElem?_map, List.getElem?_map]
  cases ha : l[i]? with
  | none =>
    rw [List.getElem?_eq_none (by simpa using ha)]
    rfl
  | some a =>
    rw [List.getElem?_range (List.getElem?_eq_some_iff.1 ha).1, Option.map_some, Option.map_some, h i a ha]

namespace Registry

variable {E : Type} {r : Registry E} {config : GridConfig} {catalog : Catalog E}

/-! ## On a thread -/

theorem Sound.ascending (hr : Sound config catalog r) {t : Nat} {w : Worker E}
    (hw : r.workers[t]? = some w) : w.store.gids.Pairwise (· < ·) := by
  rw [hr.gids_eq hw]
  exact List.Pairwise.filter _ List.pairwise_lt_range'

theorem Sound.ascending_of_mem (hr : Sound config catalog r) {w : Worker E} (hw : w ∈ r.workers) :
    w.store.gids.Pairwise (· < ·) := by
  obtain ⟨t, ht⟩ := List.getElem?_of_mem hw
  exact hr.ascending ht

theorem Sound.vp_eq (hr : Sound config catalog r) {t : Nat} {w : Worker E}
    (hw : r.workers[t]? = some w) {n : Node E} (hn : n ∈ w.store.nodes) : n.vp = ⟨config.rank, t⟩ := by
  obtain ⟨i, hi⟩ := List.getElem?_of_mem hn
  exact (hr.seat_eq hw hi).2.1

/-- An instance is where the placement rule gives its element. -/
theorem Sound.hosts_of_find? (hr : Sound config catalog r) {t gid : Nat} {w : Worker E} {n : Node E}
    (hw : r.workers[t]? = some w) (hfind : w.store.find? gid = some n) :
    ∃ category, r.categoryOf gid = .ok category ∧
      config.shape.hosts gid category ⟨config.rank, t⟩ = true := by
  obtain ⟨hn, hgid⟩ := (Store.find?_eq_some_iff (hr.ascending hw)).1 hfind
  have hmem : gid ∈ w.store.gids := hgid ▸ List.mem_map_of_mem hn
  rw [hr.gids_eq hw, List.mem_filter, holds] at hmem
  obtain ⟨-, hholds⟩ := hmem
  split at hholds
  · rename_i category hcategory
    refine ⟨category, hcategory, ?_⟩
    rw [shape, hr.config_eq] at hholds
    exact hholds
  · cases hholds

/-- A thread stores an instance of each element that the placement rule gives it. -/
theorem Sound.exists_find?_of_hosts (hr : Sound config catalog r) {t gid : Nat} {w : Worker E}
    {category : Category} (hw : r.workers[t]? = some w) (hcategory : r.categoryOf gid = .ok category)
    (hhosts : config.shape.hosts gid category ⟨config.rank, t⟩ = true) :
    ∃ n, w.store.find? gid = some n ∧ n.gid = gid ∧ n.vp = ⟨config.rank, t⟩ := by
  have hgid : gid ∈ w.store.gids := by
    have hgiven := given_of_categoryOf hcategory
    rw [hr.gids_eq hw, List.mem_filter, holds, hcategory, shape, hr.config_eq, List.mem_range'_1]
    refine ⟨⟨hgiven.1, ?_⟩, hhosts⟩
    simp only [Gid.first]
    omega
  obtain ⟨n, hn, hgid⟩ := List.mem_map.1 hgid
  exact ⟨n, (Store.find?_eq_some_iff (hr.ascending hw)).2 ⟨hn, hgid⟩, hgid, hr.vp_eq hw hn⟩

theorem Sound.find?_of_not_hosts (hr : Sound config catalog r) {t gid : Nat} {w : Worker E}
    {category : Category} (hw : r.workers[t]? = some w) (hcategory : r.categoryOf gid = .ok category)
    (hhosts : config.shape.hosts gid category ⟨config.rank, t⟩ = false) : w.store.find? gid = none := by
  cases hfind : w.store.find? gid with
  | none => rfl
  | some n =>
    obtain ⟨category', hcategory', hhosts'⟩ := hr.hosts_of_find? hw hfind
    obtain rfl : category = category' := Except.ok.inj (hcategory.symm.trans hcategory')
    rw [hhosts] at hhosts'
    cases hhosts'

/-! ## On a process -/

/-- What a thread comes up with that is asked for an element: its instance, or else a proxy. -/
def slotOn (r : Registry E) (gid : Nat) (proxy : Proxy) (t : Nat) : Except RegistryError (Slot E) :=
  (fun w => ((w.store.find? gid).map Slot.present).getD (.absent proxy)) <$> r.worker t

theorem slotOn_eq {gid t : Nat} {proxy : Proxy} {w : Worker E} (hw : r.workers[t]? = some w) :
    r.slotOn gid proxy t = .ok (((w.store.find? gid).map Slot.present).getD (.absent proxy)) := by
  rw [slotOn, worker, hw]
  rfl

theorem Sound.exists_worker (hr : Sound config catalog r) {t : Nat} (ht : t < config.threads) :
    ∃ w, r.workers[t]? = some w :=
  ⟨_, List.getElem?_eq_getElem (by rwa [hr.length_workers])⟩

section Get

variable {gid id t : Nat} {m : Model E} (hid : r.modelOf gid = .ok id) (hm : r.model id = .ok m)
include hid hm

/-- A look-up that names no thread goes to the home of the element, if that is on the process. -/
theorem get_eq (thread : Option Nat) : r.get gid thread =
    let proxy : Proxy := ⟨gid, id, r.shape.home gid m.category⟩
    match thread with
    | some t => r.slotOn gid proxy t
    | none =>
      if proxy.home.rank = r.config.rank then r.slotOn gid proxy proxy.home.thread
      else .ok (.absent proxy) := by
  simp only [get, hid, hm, bind, Except.bind]
  cases thread with
  | some t =>
    rw [slotOn]
    cases r.worker t <;> rfl
  | none =>
    simp only
    split
    · rw [slotOn]
      cases r.worker (r.shape.home gid m.category).thread <;> rfl
    · rfl

theorem Sound.slotOn_of_hosts (hr : Sound config catalog r) (ht : t < config.threads)
    (hhosts : config.shape.hosts gid m.category ⟨config.rank, t⟩ = true) (proxy : Proxy) :
    ∃ n, r.slotOn gid proxy t = .ok (.present n) ∧ n.gid = gid ∧ n.vp = ⟨config.rank, t⟩ := by
  obtain ⟨w, hw⟩ := hr.exists_worker ht
  obtain ⟨n, hfind, hgid, hvp⟩ := hr.exists_find?_of_hosts hw (categoryOf_of_model hid hm) hhosts
  refine ⟨n, ?_, hgid, hvp⟩
  rw [slotOn_eq hw, hfind]
  rfl

theorem Sound.slotOn_of_not_hosts (hr : Sound config catalog r) (ht : t < config.threads)
    (hhosts : config.shape.hosts gid m.category ⟨config.rank, t⟩ = false) (proxy : Proxy) :
    r.slotOn gid proxy t = .ok (.absent proxy) := by
  obtain ⟨w, hw⟩ := hr.exists_worker ht
  rw [slotOn_eq hw, hr.find?_of_not_hosts hw (categoryOf_of_model hid hm) hhosts]
  rfl

/-- On the process of its home, an element answers for itself. -/
theorem Sound.get_home (hr : Sound config catalog r)
    (hrank : (config.shape.home gid m.category).rank = config.rank)
    (hthread : (config.shape.home gid m.category).thread < config.threads) :
    ∃ n, r.get gid none = .ok (.present n) ∧ n.gid = gid ∧ n.vp = config.shape.home gid m.category := by
  have hvp : config.shape.home gid m.category =
      ⟨config.rank, (config.shape.home gid m.category).thread⟩ := by rw [← hrank]
  have hhosts := config.shape.hosts_home gid m.category
  rw [hvp] at hhosts
  obtain ⟨n, hslot, hgid, hn⟩ := hr.slotOn_of_hosts hid hm hthread hhosts
    ⟨gid, id, config.shape.home gid m.category⟩
  refine ⟨n, ?_, hgid, hn.trans hvp.symm⟩
  -- The home's rank is that of the process, so the look-up goes on to the home's thread.
  rw [get_eq hid hm, shape, hr.config_eq]
  exact (if_pos hrank).trans hslot

/-- On every other process, a proxy answers for it. -/
theorem Sound.get_away (hr : Sound config catalog r)
    (hrank : (config.shape.home gid m.category).rank ≠ config.rank) :
    r.get gid none = .ok (.absent ⟨gid, id, config.shape.home gid m.category⟩) := by
  rw [get_eq hid hm, shape, hr.config_eq]
  exact if_neg hrank

theorem siblings_of_device (hcategory : m.category = .device) :
    r.siblings gid = .ok (r.workers.filterMap fun w => w.store.find? gid) := by
  simp only [siblings, categoryOf_of_model hid hm, hcategory]
  rfl

end Get

end Registry

end ElementGrid
