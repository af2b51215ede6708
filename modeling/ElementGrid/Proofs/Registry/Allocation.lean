import Mathlib.Data.List.Basic
import Mathlib.Data.List.Induction
import ElementGrid.Element.Catalogs
import ElementGrid.Proofs.Registry.Seats
import ElementGrid.Proofs.Placement
/-!
# What creations give out

The runs of all creations stand one behind the other, so a number belongs to exactly one of them, and
the model and the category of an element are those of its creation. A creation seats new elements
behind all others on every thread that the placement rule names.

## Main definitions

* `Catalog.Formed` — the catalogs that registrations lead to
* `Tiles` — runs that stand one behind the other
* `Registry.seatsDue` — the seats that all creations together give to a thread
* `Registry.holds` — the placement rule gives an element to a virtual process
* `Registry.Sound` — what holds of a registry at any time

## Main results

* `Registry.Sound.apply` — a command keeps a registry sound
* `Registry.hosted_exactly` — each thread holds exactly the elements that the placement rule gives it
-/

namespace ElementGrid

variable {E : Type}

/-- The catalogs that registrations lead to. -/
inductive Catalog.Formed : Catalog E → Prop
  | empty : Formed .empty
  | register {c c' : Catalog E} {name : String} {category : Category} {prototype : E} :
    Formed c → c.register name category prototype = some c' → Formed c'

/-- The models of a catalog that registrations lead to are numbered by place. -/
theorem Catalog.Formed.numbered {c : Catalog E} (h : c.Formed) : c.Numbered := by
  induction h with
  | empty =>
    intro i m hm
    simp [Catalog.empty] at hm
  | @register c c' name category prototype _ hregister ih =>
    intro i m hm
    rw [Catalog.register] at hregister
    split at hregister
    · cases hregister
    · cases hregister
      rw [List.getElem?_append] at hm
      split at hm
      · exact ih i m hm
      · rename_i hlt
        obtain ⟨hi, rfl⟩ := List.getElem?_eq_some_iff.1 hm
        have hlength : i - c.models.length < 1 := hi
        have hzero : i - c.models.length = 0 := by omega
        simp only [hzero, List.getElem_cons_zero, Catalog.size]
        omega

/-- A list of prototypes under different names is a catalog that registrations lead to. -/
theorem Catalog.formed_ofEntries {entries : List (String × Category × E)}
    (h : (entries.map Prod.fst).Nodup) : (Catalog.ofEntries entries).Formed := by
  induction entries using List.reverseRecOn with
  | nil => exact .empty
  | append_singleton entries entry ih =>
    obtain ⟨name, category, prototype⟩ := entry
    rw [List.map_append, List.nodup_append] at h
    obtain ⟨hnodup, -, hnew⟩ := h
    have hfree : (Catalog.ofEntries entries).lookup? name = none := by
      rw [Catalog.lookup?, Option.map_eq_none_iff, List.find?_eq_none]
      intro m hm
      obtain ⟨i, hi, rfl⟩ := List.mem_mapIdx.1 hm
      have := hnew _ (List.mem_map_of_mem (List.getElem_mem hi)) name (by simp)
      simpa using this
    have hregister : (Catalog.ofEntries entries).register name category prototype =
        some (.ofEntries (entries ++ [(name, category, prototype)])) := by
      rw [Catalog.register, hfree]
      simp [Catalog.ofEntries, Catalog.size]
    exact .register (ih hnodup) hregister

/-! ## Runs one behind the other -/

/-- The runs stand one behind the other, from the number `first` up to the one before `next`. -/
def Tiles : Nat → List Run → Nat → Prop
  | first, [], next => first = next
  | first, b :: bs, next => b.first = first ∧ b.first ≤ b.last ∧ Tiles (b.last + 1) bs next

namespace Tiles

variable {first next gid : Nat} {bs : List Run}

theorem append (h : Tiles first bs next) {b : Run} (hfirst : b.first = next)
    (hb : b.first ≤ b.last) : Tiles first (bs ++ [b]) (b.last + 1) := by
  induction bs generalizing first with
  | nil =>
    have hnext : first = next := h
    exact ⟨hfirst.trans hnext.symm, hb, rfl⟩
  | cons c cs ih => exact ⟨h.1, h.2.1, ih h.2.2⟩

theorem first_le (h : Tiles first bs next) : first ≤ next := by
  induction bs generalizing first with
  | nil => exact Nat.le_of_eq h
  | cons c cs ih =>
    have := ih h.2.2
    have := h.1
    have := h.2.1
    omega

theorem first_le_of_mem (h : Tiles first bs next) {b : Run} (hb : b ∈ bs) : first ≤ b.first := by
  induction bs generalizing first with
  | nil => cases hb
  | cons c cs ih =>
    obtain ⟨hc, hle, htail⟩ := h
    rcases List.mem_cons.1 hb with rfl | hb
    · exact Nat.le_of_eq hc.symm
    · have := ih htail hb
      omega

/-- The numbers of all runs together have no gap. -/
theorem flatMap_gids (h : Tiles first bs next) :
    bs.flatMap Run.gids = List.range' first (next - first) := by
  induction bs generalizing first with
  | nil =>
    have hempty : first = next := h
    simp [hempty]
  | cons c cs ih =>
    obtain ⟨hc, hle, htail⟩ := h
    have hrest := htail.first_le
    have hsize : next - first = c.size + (next - (c.last + 1)) := by
      rw [Run.size]
      omega
    have hend : first + 1 * c.size = c.last + 1 := by
      rw [Run.size]
      omega
    rw [List.flatMap_cons, ih htail, hsize, ← List.range'_append, hend, Run.gids, hc]

/-- The runs hold the numbers from `first` up to the one before `next`. -/
theorem exists_contains_iff (h : Tiles first bs next) :
    (∃ b ∈ bs, b.contains gid = true) ↔ first ≤ gid ∧ gid < next := by
  have hmem : gid ∈ bs.flatMap Run.gids ↔ first ≤ gid ∧ gid < next := by
    have := h.first_le
    rw [h.flatMap_gids, List.mem_range'_1]
    omega
  rw [← hmem, List.mem_flatMap]
  simp only [Run.mem_gids]

/-- Only one run holds a number, and it is the first that does not end before the number. -/
theorem find_of_contains (h : Tiles first bs next) {b : Run} (hb : b ∈ bs)
    (hgid : b.contains gid = true) : bs.find? (fun b => gid ≤ b.last) = some b := by
  have hbounds : b.first ≤ gid ∧ gid ≤ b.last := b.contains_eq_true.1 hgid
  induction bs generalizing first with
  | nil => cases hb
  | cons c cs ih =>
    obtain ⟨hc, hle, htail⟩ := h
    rcases List.mem_cons.1 hb with rfl | hb
    · simp [hbounds.2]
    · -- The run at the front ends before the one that holds the number begins.
      have hpast := htail.first_le_of_mem hb
      have hlast : ¬ gid ≤ c.last := by omega
      simp [hlast, ih htail hb]

end Tiles

/-! ## Seats that creations give out -/

namespace Store

theorem seats_append (s : Store E) (n : Node E) :
    (s.append n).seats = s.seats ++ [{ n.seat with localId := s.seats.length }] := by
  simp [append, seats, Node.seat, size]

/-- New instances take their places behind those that are there. -/
theorem seats_appendAll (s : Store E) (ns : List (Node E)) :
    (s.appendAll ns).seats =
      s.seats ++ (ns.map Node.seat).mapIdx fun i seat =>
        { seat with localId := i + s.seats.length } := by
  induction ns generalizing s with
  | nil => simp [appendAll]
  | cons n ns ih =>
    have hrest := ih (s.append n)
    rw [seats_append] at hrest
    simp only [appendAll, List.foldl_cons] at hrest ⊢
    simp only [hrest, List.map_cons, List.mapIdx_cons, List.append_assoc, List.length_append,
      List.length_singleton, List.singleton_append, Nat.zero_add]
    simp only [Nat.add_assoc, Nat.add_comm 1]

end Store

namespace Registry

variable {r r' : Registry E} {config : GridConfig} {catalog : Catalog E}

/-- The seats that the creation of a run gives to a virtual process, before they have a place. -/
def newSeats (r : Registry E) (vp : Vp) (batch : Run) : List Seat :=
  match r.catalog.get? batch.model with
  | some m =>
    (batch.gids.filter fun gid => r.shape.hosts gid m.category vp).map fun gid =>
      ⟨gid, batch.model, m.category, vp, 0⟩
  | none => []

/-- The seats that all creations together give to a thread. -/
def seatsDue (r : Registry E) (thread : Nat) : List Seat :=
  (r.batches.flatMap (r.newSeats ⟨r.config.rank, thread⟩)).mapIdx fun i seat =>
    { seat with localId := i }

/-- The placement rule gives the element to a virtual process. -/
def holds (r : Registry E) (vp : Vp) (gid : Nat) : Bool :=
  match r.categoryOf gid with
  | .ok category => r.shape.hosts gid category vp
  | .error _ => false

/-- What holds of a registry with the given configuration and catalog at any time. -/
structure Sound (config : GridConfig) (catalog : Catalog E) (r : Registry E) : Prop where
  config_eq : r.config = config
  catalog_eq : r.catalog = catalog
  tiles : Tiles Gid.first r.batches r.nextGid
  fits : Word.Fits r.nextGid
  known : ∀ b ∈ r.batches, ∃ m, catalog.get? b.model = some m
  length_workers : r.workers.length = config.threads
  seats_eq : ∀ (t : Nat) (w : Worker E), r.workers[t]? = some w → w.store.seats = r.seatsDue t

theorem sound_fresh (config : GridConfig) (catalog : Catalog E) (dispatch : Dispatch) :
    Sound config catalog { config, catalog, dispatch, workers := freshWorkers config } where
  config_eq := rfl
  catalog_eq := rfl
  tiles := rfl
  fits := (by decide : Word.Fits Gid.first)
  known := fun b hb => by cases hb
  length_workers := by simp [freshWorkers]
  seats_eq := by
    intro t w hw
    simp only [freshWorkers, List.getElem?_map, Option.map_eq_some_iff] at hw
    obtain ⟨_, -, rfl⟩ := hw
    rfl

/-- The seats that are due do not change as long as creations give out nothing. -/
theorem SameSeats.seatsDue (h : r.SameSeats r') : r'.seatsDue = r.seatsDue := by
  funext thread
  have hnew : ∀ vp, r'.newSeats vp = r.newSeats vp := by
    intro vp
    funext b
    simp only [newSeats, shape, h.config, h.catalog]
  simp only [Registry.seatsDue, h.config, h.batches, hnew]

theorem Sound.of_sameSeats (hr : Sound config catalog r) (h : r.SameSeats r') :
    Sound config catalog r' where
  config_eq := h.config.trans hr.config_eq
  catalog_eq := h.catalog.trans hr.catalog_eq
  tiles := by
    rw [h.batches, h.nextGid]
    exact hr.tiles
  fits := by
    rw [h.nextGid]
    exact hr.fits
  known := by
    rw [h.batches]
    exact hr.known
  length_workers := by
    have hlength := congrArg List.length h.seats
    simp only [Registry.seats, List.length_map] at hlength
    exact hlength.trans hr.length_workers
  seats_eq := by
    intro t w' hw'
    have ht := congrArg (·[t]?) h.seats
    simp only [Registry.seats, List.getElem?_map, hw', Option.map_some] at ht
    obtain ⟨w, hw, hseats⟩ := Option.map_eq_some_iff.1 ht.symm
    rw [← hseats, h.seatsDue]
    exact hr.seats_eq t w hw

/-- A creation gives each thread the seats of its run. -/
theorem seats_populate (r : Registry E) {m : Model E} {batch : Run} (thread : Nat) {w : Worker E}
    (hm : r.catalog.get? batch.model = some m) (hid : m.id = batch.model)
    (hw : w.store.seats = r.seatsDue thread) :
    (r.populate m batch thread w).store.seats = (r.withBatch m batch).seatsDue thread := by
  have hnew : (r.withBatch m batch).newSeats = r.newSeats := rfl
  have hlength : w.store.seats.length =
      (r.batches.flatMap (r.newSeats ⟨r.config.rank, thread⟩)).length := by
    rw [hw, Registry.seatsDue, List.length_mapIdx]
  have hhere : r.newSeats ⟨r.config.rank, thread⟩ batch =
      ((batch.gids.filter fun gid => r.shape.hosts gid m.category ⟨r.config.rank, thread⟩).map
        (r.newNode m thread)).map Node.seat := by
    simp only [newSeats, hm, List.map_map]
    exact List.map_congr_left fun gid _ => by simp [newNode, Node.seat, hid]
  -- The new places begin where the old ones end, on both sides.
  rw [populate, Store.seats_appendAll, ← hhere, hlength, hw, Registry.seatsDue, Registry.seatsDue,
    hnew]
  show _ = List.mapIdx _ ((r.batches ++ [batch]).flatMap _)
  rw [List.flatMap_append, List.flatMap_singleton, List.mapIdx_append]
  rfl

theorem Sound.createById (hr : Sound config catalog r) (hcatalog : catalog.Numbered)
    (id count : Nat) : Sound config catalog (r.createById id count).registry := by
  rw [Registry.createById]
  split
  · exact hr
  · rename_i m hm
    split
    · exact hr
    · rename_i hcount
      have hpos : count ≠ 0 := fun h => hcount (.inl h)
      have hfits : Word.Fits (r.nextGid + count) := Decidable.byContradiction fun h => hcount (.inr h)
      have hid : m.id = id := hcatalog id m (hr.catalog_eq ▸ hm)
      refine
        { config_eq := hr.config_eq
          catalog_eq := hr.catalog_eq
          tiles := hr.tiles.append rfl (Nat.le_add_right _ _)
          fits := ?fits
          known := ?known
          length_workers := List.length_mapIdx.trans hr.length_workers
          seats_eq := ?seats_eq }
      case fits =>
        show Word.Fits ((Run.ofCount r.nextGid count id).last + 1)
        rwa [Run.last_ofCount r.nextGid id hpos]
      case known =>
        intro b hb
        rcases List.mem_append.1 hb with hb | hb
        · exact hr.known b hb
        · rw [List.mem_singleton.1 hb, ← hr.catalog_eq]
          exact ⟨m, hm⟩
      case seats_eq =>
        intro t w' hw'
        obtain ⟨w, hw, rfl⟩ := Option.map_eq_some_iff.1 (List.getElem?_mapIdx.symm.trans hw')
        exact seats_populate r t hm hid (hr.seats_eq t w hw)

theorem Sound.create (hr : Sound config catalog r) (hcatalog : catalog.Numbered) (name : String)
    (count : Nat) : Sound config catalog (r.create name count).registry := by
  rw [Registry.create]
  split
  · exact hr
  · exact hr.createById hcatalog _ count

/-- A command keeps a registry sound, whether it fails or not. -/
theorem Sound.apply [Element E] (hr : Sound config catalog r) (hcatalog : catalog.Numbered)
    (c : Command E) : Sound config catalog (r.apply c) := by
  -- Only creations and a reset change what is given out.
  by_cases hcreate : ∃ name n, c = .create name n
  · obtain ⟨name, count, rfl⟩ := hcreate
    exact hr.create hcatalog name count
  by_cases hid : ∃ id n, c = .createById id n
  · obtain ⟨id, count, rfl⟩ := hid
    exact hr.createById hcatalog id count
  by_cases hreset : c = .reset
  · subst hreset
    have hfresh := sound_fresh config catalog r.dispatch
    rw [← hr.config_eq, ← hr.catalog_eq] at hfresh ⊢
    exact hfresh
  · exact hr.of_sameSeats (sameSeats_apply r c (fun name n h => hcreate ⟨name, n, h⟩)
      (fun id n h => hid ⟨id, n, h⟩) hreset)

/-- A registry is built just if its configuration is valid, and then without elements. -/
theorem start_eq_ok_iff {dispatch : Dispatch} : start config catalog dispatch = .ok r ↔
    config.Valid ∧ r = { config, catalog, dispatch, workers := freshWorkers config } := by
  rw [← config.check_eq_ok_iff, eq_comm (a := r)]
  cases hcheck : config.check with
  | ok _ => simp [start, hcheck, Except.mapError, bind, Except.bind, pure, Except.pure]
  | error e => simp [start, hcheck, Except.mapError, bind, Except.bind]

theorem Reachable.valid [Element E] {dispatch : Dispatch}
    (h : Reachable config catalog dispatch r) : config.Valid := by
  obtain ⟨fresh, _, hstart, -⟩ := h
  exact (start_eq_ok_iff.1 hstart).1

/-- Every state that a registry can come to is sound. -/
theorem Reachable.sound [Element E] {dispatch : Dispatch} (hcatalog : catalog.Numbered)
    (h : Reachable config catalog dispatch r) : Sound config catalog r := by
  refine h.induction (fun fresh hstart => ?_) fun r c hr => hr.apply hcatalog c
  obtain ⟨-, rfl⟩ := start_eq_ok_iff.1 hstart
  exact sound_fresh config catalog dispatch

/-! ## What the placement rule gives to a thread -/

theorem given_of_modelOf {gid id : Nat} (h : r.modelOf gid = .ok id) :
    Gid.first ≤ gid ∧ gid ≤ r.size := by
  obtain ⟨b, hb, -⟩ := Except.map_eq_ok_iff.1 h
  rw [batchOf] at hb
  split at hb
  · cases hb
  · rename_i hassignable
    simp only [Gid.isAssignable, Gid.reserved, Bool.or_eq_true, Bool.not_eq_true', bne_eq_false_iff_eq,
      decide_eq_true_eq, not_or] at hassignable
    simp only [Gid.first, size]
    omega

theorem categoryOf_of_model {gid id : Nat} {m : Model E} (hid : r.modelOf gid = .ok id)
    (hm : r.model id = .ok m) : r.categoryOf gid = .ok m.category := by
  rw [categoryOf, hid]
  show (do return (← r.model id).category : Except RegistryError Category) = _
  rw [hm]
  rfl

theorem given_of_categoryOf {gid : Nat} {category : Category}
    (h : r.categoryOf gid = .ok category) : Gid.first ≤ gid ∧ gid ≤ r.size := by
  obtain ⟨id, hid, -⟩ := Except.bind_eq_ok_iff.1 h
  exact given_of_modelOf hid

namespace Sound

variable {gid t : Nat} {b : Run} {w : Worker E}

theorem contains_iff (hr : Sound config catalog r) :
    (∃ b ∈ r.batches, b.contains gid = true) ↔ Gid.first ≤ gid ∧ gid ≤ r.size := by
  have := hr.tiles.first_le
  rw [hr.tiles.exists_contains_iff, size]
  simp only [Gid.first] at *
  omega

theorem batchOf_eq (hr : Sound config catalog r) (hb : b ∈ r.batches)
    (hgid : b.contains gid = true) : r.batchOf gid = .ok b := by
  obtain ⟨hfirst, hnext⟩ := hr.tiles.exists_contains_iff.1 ⟨b, hb, hgid⟩
  have hassignable : (!Gid.isAssignable gid || decide (r.nextGid ≤ gid)) = false := by
    simp only [Gid.first] at hfirst
    simp only [Gid.isAssignable, Gid.reserved, Bool.or_eq_false_iff, Bool.not_eq_false',
      bne_iff_ne, decide_eq_false_iff_not]
    omega
  simp only [batchOf, hassignable, hr.tiles.find_of_contains hb hgid]
  rfl

theorem modelOf_eq (hr : Sound config catalog r) (hb : b ∈ r.batches) (hgid : b.contains gid = true) :
    r.modelOf gid = .ok b.model := by
  rw [modelOf, hr.batchOf_eq hb hgid]
  rfl

theorem model_eq (hr : Sound config catalog r) {id : Nat} {m : Model E} (hm : catalog.get? id = some m) :
    r.model id = .ok m := by
  rw [model, hr.catalog_eq, hm]

/-- The category of an element is that of the model of its creation. -/
theorem categoryOf_eq (hr : Sound config catalog r) {m : Model E} (hb : b ∈ r.batches)
    (hgid : b.contains gid = true) (hm : catalog.get? b.model = some m) :
    r.categoryOf gid = .ok m.category :=
  categoryOf_of_model (hr.modelOf_eq hb hgid) (hr.model_eq hm)

/-- The numbers that a creation gives to a thread are those of its run that live there. -/
theorem map_gid_newSeats (hr : Sound config catalog r) (vp : Vp) (hb : b ∈ r.batches) :
    (r.newSeats vp b).map Seat.gid = b.gids.filter (r.holds vp) := by
  obtain ⟨m, hm⟩ := hr.known b hb
  have hrule : ∀ gid ∈ b.gids, r.holds vp gid = r.shape.hosts gid m.category vp := by
    intro gid hgid
    rw [holds, hr.categoryOf_eq hb (b.mem_gids.1 hgid) hm]
  rw [newSeats, hr.catalog_eq, hm, List.map_map, List.filter_congr hrule]
  exact List.map_id _

/-- A thread holds the numbers that the placement rule gives it, in order. -/
theorem gids_eq (hr : Sound config catalog r) (hw : r.workers[t]? = some w) :
    w.store.gids = (List.range' Gid.first r.size).filter (r.holds ⟨config.rank, t⟩) := by
  have hgids : w.store.gids = w.store.seats.map Seat.gid := by
    rw [Store.gids, Store.seats, List.map_map]
    rfl
  -- Places do not matter for the numbers.
  have hplace : (r.seatsDue t).map Seat.gid =
      (r.batches.flatMap (r.newSeats ⟨config.rank, t⟩)).map Seat.gid := by
    apply List.ext_getElem?
    intro i
    simp only [seatsDue, List.getElem?_map, List.getElem?_mapIdx, Option.map_map, hr.config_eq]
    rfl
  have hsize : r.size = r.nextGid - Gid.first := rfl
  rw [hgids, hr.seats_eq t w hw, hplace, List.map_flatMap, hsize, ← hr.tiles.flatMap_gids,
    List.filter_flatMap]
  exact List.flatMap_congr fun b hb => hr.map_gid_newSeats _ hb

theorem gid_bounds (hr : Sound config catalog r) (hw : w ∈ r.workers) {n : Node E}
    (hn : n ∈ w.store.nodes) : Gid.first ≤ n.gid ∧ n.gid < r.nextGid := by
  obtain ⟨t, ht⟩ := List.getElem?_of_mem hw
  have hheld : n.gid ∈ w.store.gids := List.mem_map_of_mem hn
  rw [hr.gids_eq ht, List.mem_filter, List.mem_range'_1, size] at hheld
  have hfirst := hr.tiles.first_le
  simp only [Gid.first] at hheld hfirst ⊢
  omega

/-- Each instance of a thread is numbered by its place and of the model of its creation. -/
theorem seat_eq (hr : Sound config catalog r) (hw : r.workers[t]? = some w) {i : Nat} {n : Node E}
    (hn : w.store.nodes[i]? = some n) :
    n.localId = i ∧ n.vp = ⟨config.rank, t⟩ ∧
      ∃ b ∈ r.batches, b.contains n.gid = true ∧ n.model = b.model ∧
        ∃ m, catalog.get? b.model = some m ∧ n.category = m.category := by
  have hseat : (r.seatsDue t)[i]? = some n.seat := by
    rw [← hr.seats_eq t w hw, Store.seats, List.getElem?_map, hn]
    rfl
  rw [seatsDue, List.getElem?_mapIdx] at hseat
  obtain ⟨seat, hseat, heq⟩ := Option.map_eq_some_iff.1 hseat
  obtain ⟨b, hb, hmem⟩ := List.mem_flatMap.1 (List.mem_of_getElem? hseat)
  obtain ⟨m, hm⟩ := hr.known b hb
  rw [newSeats, hr.catalog_eq, hm] at hmem
  obtain ⟨gid, hgid, rfl⟩ := List.mem_map.1 hmem
  have hcontains := b.mem_gids.1 (List.mem_of_mem_filter hgid)
  simp only [Node.seat, Seat.mk.injEq] at heq
  obtain ⟨rfl, hmodel, hcategory, hvp, hplace⟩ := heq
  exact ⟨hplace.symm, hr.config_eq ▸ hvp.symm, b, hb, hcontains, hmodel.symm, m, hm,
    hcategory.symm⟩

theorem exists_categoryOf (hr : Sound config catalog r) (hfirst : Gid.first ≤ gid)
    (hsize : gid ≤ r.size) : ∃ category, r.categoryOf gid = .ok category := by
  obtain ⟨b, hb, hgid⟩ := hr.contains_iff.2 ⟨hfirst, hsize⟩
  obtain ⟨m, hm⟩ := hr.known b hb
  exact ⟨m.category, hr.categoryOf_eq hb hgid hm⟩

end Sound

/-- In every state that a registry can come to, each thread holds exactly the elements that the
placement rule gives it, by ascending number and without a gap, each at the place that is its local
identifier and with the model and the category of the creation that gave out its number. Every number
given out has a category, and an element that lives on one thread of the process is there. -/
theorem hosted_exactly [Element E] {dispatch : Dispatch} (hcatalog : catalog.Formed)
    (hfits : Word.Fits (config.processes * config.threads))
    (h : Reachable config catalog dispatch r) :
    r.workers.length = config.threads ∧
    (∀ gid, Gid.first ≤ gid → gid ≤ r.size → ∃ category, r.categoryOf gid = .ok category) ∧
    (∀ gid category thread, r.categoryOf gid = .ok category →
      config.shape.hosting gid category config.rank = .one thread →
      ∃ w, r.workers[thread]? = some w ∧ gid ∈ w.store.gids) ∧
    ∀ t (w : Worker E), r.workers[t]? = some w →
      w.store.gids.Pairwise (· < ·) ∧
      (∀ gid, gid ∈ w.store.gids ↔ Gid.first ≤ gid ∧ gid ≤ r.size ∧
        ∃ category, r.categoryOf gid = .ok category ∧
          config.shape.hosts gid category ⟨config.rank, t⟩ = true) ∧
      ∀ i (n : Node E), w.store.nodes[i]? = some n →
        n.localId = i ∧ n.vp = ⟨config.rank, t⟩ ∧
          ∃ b ∈ r.batches, b.contains n.gid = true ∧ n.model = b.model ∧
            ∃ m, catalog.get? b.model = some m ∧ n.category = m.category := by
  have hr := h.sound hcatalog.numbered
  have hshape : r.shape = config.shape := congrArg GridConfig.shape hr.config_eq
  have hmem : ∀ t w, r.workers[t]? = some w → ∀ gid, gid ∈ w.store.gids ↔
      Gid.first ≤ gid ∧ gid ≤ r.size ∧ ∃ category, r.categoryOf gid = .ok category ∧
        config.shape.hosts gid category ⟨config.rank, t⟩ = true := by
    intro t w hw gid
    rw [hr.gids_eq hw, List.mem_filter, holds, List.mem_range'_1, hshape]
    constructor
    · rintro ⟨⟨hfirst, hlast⟩, hholds⟩
      split at hholds
      · rename_i category hcategory
        exact ⟨hfirst, by simp only [Gid.first] at hlast; omega, category, hcategory, hholds⟩
      · cases hholds
    · rintro ⟨hfirst, hlast, category, hcategory, hhosts⟩
      rw [hcategory]
      exact ⟨⟨hfirst, by simp only [Gid.first]; omega⟩, hhosts⟩
  refine ⟨hr.length_workers, fun gid => hr.exists_categoryOf, ?_, fun t w hw => ⟨?_, hmem t w hw, ?_⟩⟩
  · intro gid category thread hcategory hhosting
    have hvalid := h.valid
    have hthread : thread < r.workers.length := by
      rw [hr.length_workers]
      exact GridShape.lt_threads_of_hosting hvalid.1 hvalid.2.1 hfits hhosting
    have hgiven := given_of_categoryOf hcategory
    refine ⟨r.workers[thread], List.getElem?_eq_getElem hthread, ?_⟩
    refine (hmem thread _ (List.getElem?_eq_getElem hthread) gid).2
      ⟨hgiven.1, hgiven.2, category, hcategory, ?_⟩
    simp [GridShape.hosts, hhosting, Hosting.includes]
  · rw [hr.gids_eq hw]
    exact List.Pairwise.filter _ List.pairwise_lt_range'
  · exact fun i n hn => hr.seat_eq hw hn

/-- Elements of all categories on a process of a grid of two by two. -/
theorem hosted_exactly_mixed :
    StandardElement.catalog.Formed ∧ Word.Fits (2 * 2) ∧
    ∃ r, Reachable { processes := 2, threads := 2, rank := 1 } StandardElement.catalog .inTurn r ∧
      r.size = 7 ∧ ∀ t w, r.workers[t]? = some w → w.store.gids.Pairwise (· < ·) ∧
        ∀ gid, gid ∈ w.store.gids ↔ Gid.first ≤ gid ∧ gid ≤ r.size ∧
          ∃ category, r.categoryOf gid = .ok category ∧
            GridShape.hosts ⟨2, 2⟩ gid category ⟨1, t⟩ = true := by
  have hcatalog : StandardElement.catalog.Formed := Catalog.formed_ofEntries (by decide)
  have hfits : Word.Fits (2 * 2) := by decide
  obtain ⟨r, hr, hsize⟩ : ∃ r, Reachable { processes := 2, threads := 2, rank := 1 }
      StandardElement.catalog .inTurn r ∧ r.size = 7 :=
    ⟨_, ⟨_, [.create "counter" 5, .create "recorder" 1, .create "stimulus" 1, .prepare],
      rfl, rfl⟩, rfl⟩
  refine ⟨hcatalog, hfits, r, hr, hsize, fun t w hw => ?_⟩
  have h := (hosted_exactly hcatalog hfits hr).2.2.2 t w hw
  exact ⟨h.1, h.2.1⟩

end Registry

end ElementGrid
