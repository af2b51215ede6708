import ElementGrid.Element.Catalogs
import ElementGrid.Proofs.Registry.Faults
import ElementGrid.Proofs.Registry.Numbering
import ElementGrid.Proofs.Registry.Threads
import ElementGrid.Proofs.Registry.Writing
/-!
# Look-ups that agree

There are many ways to ask for an element. Some go by the placement rule, some search what a thread has
stored, and all of them first ask whether the number was given out. At any time they come to the same.

## Main definitions

* `Registry.LookedUp` — what all look-ups on a thread come to
* `Registry.Recognized` — a result that is not refused for want of the element
* `Registry.RefusedIff` — when whoever names an element is refused for want of it

## Main results

* `Registry.Sound.lookedUp` — all look-ups on a thread find the instance that the placement rule puts there
* `Registry.Sound.isLocal_iff`, `Registry.Sound.siblings_eq` — so do those that name no thread
* `Registry.Sound.refusedIff` — an element is unknown if and only if its number was not given out
* `Registry.lookups_agree` — all of it together, in every state that a registry can come to
-/

namespace ElementGrid.Registry

variable {E : Type} {r : Registry E} {config : GridConfig} {catalog : Catalog E}

/-! ## On a thread -/

/-- All look-ups of an element on a thread come to `found`: it is the one instance of its number that the
thread lists, a look-up shows it, or else the proxy, and who works in place works on it and on no other,
or else is told that it is not there. -/
structure LookedUp (r : Registry E) (gid thread : Nat) (proxy : Proxy) (found : Option (Node E)) :
    Prop where
  listed : ∃ nodes, r.localNodes thread = .ok nodes ∧
    nodes.filter (fun n => n.gid = gid) = found.toList
  get : r.get gid (some thread) = .ok ((found.map Slot.present).getD (.absent proxy))
  localNode : r.localNode gid thread = found.elim (.error (.notLocal gid thread)) .ok
  worked : ∀ {α : Type} (f : Node E → α × Node E), (r.modifyLocal gid thread f).result =
    found.elim (.error (.notLocal gid thread)) fun n => .ok (f n).1
  reached : ∀ {α : Type} (f : Node E → α × Node E) nodes, r.localNodes thread = .ok nodes →
    (r.modifyLocal gid thread f).registry.localNodes thread =
      .ok (nodes.map fun n => if n.gid = gid then (f n).2 else n)

theorem localNodes_eq {t : Nat} {w : Worker E} (hw : r.workers[t]? = some w) :
    r.localNodes t = .ok w.store.nodes := by
  rw [localNodes, worker, hw]
  rfl

theorem localNodes_eq_ok_iff {t : Nat} {nodes : List (Node E)} :
    r.localNodes t = .ok nodes ↔ ∃ w, r.workers[t]? = some w ∧ w.store.nodes = nodes := by
  constructor
  · intro h
    obtain ⟨w, hw, hnodes⟩ := Except.map_eq_ok_iff.1 h
    rw [worker] at hw
    split at hw
    · rename_i w' hw'
      cases hw
      exact ⟨w, hw', hnodes⟩
    · cases hw
  · rintro ⟨w, hw, rfl⟩
    exact localNodes_eq hw

theorem localNode_eq {gid t id : Nat} (hid : r.modelOf gid = .ok id) {w : Worker E}
    (hw : r.workers[t]? = some w) :
    r.localNode gid t = (w.store.find? gid).elim (.error (.notLocal gid t)) .ok := by
  have hworker : r.worker t = .ok w := by rw [worker, hw]
  simp only [localNode, hid, hworker, bind, Except.bind]
  cases w.store.find? gid <;> rfl

/-- Whatever a thread finds under a number is what all look-ups of the element there come to. -/
theorem Sound.lookedUp_find? (hr : Sound config catalog r) {gid t id : Nat} {m : Model E}
    (hid : r.modelOf gid = .ok id) (hm : r.model id = .ok m) {w : Worker E}
    (hw : r.workers[t]? = some w) :
    r.LookedUp gid t ⟨gid, id, config.shape.home gid m.category⟩ (w.store.find? gid) where
  listed := ⟨w.store.nodes, localNodes_eq hw, Store.filter_nodes (hr.ascending hw) gid⟩
  get := by
    rw [get_eq hid hm, shape, hr.config_eq]
    exact slotOn_eq hw
  localNode := localNode_eq hid hw
  worked f := by
    rw [modifyLocal, localNode_eq hid hw]
    cases w.store.find? gid <;> rfl
  reached f nodes hnodes := by
    obtain rfl : w.store.nodes = nodes := Except.ok.inj ((localNodes_eq hw).symm.trans hnodes)
    have hs := hr.ascending hw
    cases hfind : w.store.find? gid with
    | none =>
      have hother := (Store.find?_eq_none_iff hs).1 hfind
      have hsame : w.store.nodes.map (fun n => if n.gid = gid then (f n).2 else n) = w.store.nodes := by
        conv_rhs => rw [← List.map_id w.store.nodes]
        exact List.map_congr_left fun n hn => if_neg (hother n hn)
      have hrefused : ∀ n, r.localNode gid t ≠ .ok n := by
        rw [localNode_eq hid hw, hfind]
        intro n h
        cases h
      rw [modifyLocal_of_refused hrefused, hnodes, hsame]
    | some n =>
      have hlocal : r.localNode gid t = .ok n := by
        rw [localNode_eq hid hw, hfind]
        rfl
      have hchanged := getElem?_modifyLocal (f := f) hlocal t
      rw [hw, Option.map_some, if_pos rfl] at hchanged
      rw [localNodes_eq hchanged, Store.nodes_modify hs]
      refine congrArg _ (List.map_congr_left fun m hm => ?_)
      -- No other instance of the thread has the number.
      by_cases hgid : m.gid = gid
      · have hfind' := (Store.find?_eq_some_iff hs).2 ⟨hm, hgid⟩
        obtain rfl : n = m := Option.some.inj (hfind.symm.trans hfind')
        rfl
      · rw [if_neg hgid, if_neg hgid]

/-- On each thread all look-ups of an element come to the same, and find it if and only if the placement
rule puts it there. -/
theorem Sound.lookedUp (hr : Sound config catalog r) {gid t id : Nat} {m : Model E}
    (hid : r.modelOf gid = .ok id) (hm : r.model id = .ok m) (ht : t < config.threads) :
    ∃ found, r.LookedUp gid t ⟨gid, id, config.shape.home gid m.category⟩ found ∧
      found.isSome = config.shape.hosts gid m.category ⟨config.rank, t⟩ := by
  obtain ⟨w, hw⟩ := hr.exists_worker ht
  refine ⟨w.store.find? gid, hr.lookedUp_find? hid hm hw, ?_⟩
  have hcategory := categoryOf_of_model hid hm
  cases hhosts : config.shape.hosts gid m.category ⟨config.rank, t⟩ with
  | false => rw [hr.find?_of_not_hosts hw hcategory hhosts, Option.isSome_none]
  | true =>
    obtain ⟨n, hfind, -, -⟩ := hr.exists_find?_of_hosts hw hcategory hhosts
    rw [hfind, Option.isSome_some]

/-! ## On a process -/

/-- A process with an instance of an element knows that it holds the element. -/
theorem Sound.isLocal_of_find? (hr : Sound config catalog r) {t gid : Nat} {w : Worker E} {n : Node E}
    (hw : r.workers[t]? = some w) (hfind : w.store.find? gid = some n) : r.isLocal gid = true := by
  have hshape : r.shape = config.shape := congrArg GridConfig.shape hr.config_eq
  obtain ⟨category, hcategory, hhosts⟩ := hr.hosts_of_find? hw hfind
  rw [isLocal, hcategory]
  simp only [hshape, hr.config_eq, bne_iff_ne]
  intro hnowhere
  rw [GridShape.hosts, hnowhere] at hhosts
  cases hhosts

/-- The process holds an element if and only if one of its threads lists it. -/
theorem Sound.isLocal_iff (hr : Sound config catalog r) (hprocesses : 0 < config.processes)
    (hthreads : 0 < config.threads) (hfits : Word.Fits (config.processes * config.threads))
    (gid : Nat) : r.isLocal gid = true ↔
      ∃ t nodes, r.localNodes t = .ok nodes ∧ ∃ n ∈ nodes, n.gid = gid := by
  have hshape : r.shape = config.shape := congrArg GridConfig.shape hr.config_eq
  constructor
  · intro h
    rw [isLocal] at h
    split at h
    · rename_i category hcategory
      rw [hshape, hr.config_eq, bne_iff_ne] at h
      obtain ⟨t, ht, hincludes⟩ : ∃ t < config.threads,
          (config.shape.hosting gid category config.rank).includes t = true := by
        cases hhosting : config.shape.hosting gid category config.rank with
        | nowhere => exact absurd hhosting h
        | one t =>
          exact ⟨t, GridShape.lt_threads_of_hosting hprocesses hthreads hfits hhosting,
            by simp [Hosting.includes]⟩
        | everywhere => exact ⟨0, hthreads, rfl⟩
      obtain ⟨w, hw⟩ := hr.exists_worker ht
      obtain ⟨n, hfind, hgid, -⟩ := hr.exists_find?_of_hosts hw hcategory hincludes
      exact ⟨t, _, localNodes_eq hw, n, ((Store.find?_eq_some_iff (hr.ascending hw)).1 hfind).1, hgid⟩
    · cases h
  · rintro ⟨t, nodes, hnodes, n, hn, hgid⟩
    obtain ⟨w, hw, rfl⟩ := localNodes_eq_ok_iff.1 hnodes
    exact hr.isLocal_of_find? hw ((Store.find?_eq_some_iff (hr.ascending hw)).2 ⟨hn, hgid⟩)

/-- The siblings of a replicated element are its instances on all threads, in order. -/
theorem Sound.siblings_eq (hr : Sound config catalog r) {gid : Nat}
    (hcategory : r.categoryOf gid = .ok .device) :
    ∃ nodes, r.siblings gid = .ok nodes ∧ nodes.length = config.threads ∧
      (List.range config.threads).map (fun t => r.get gid (some t)) =
        nodes.map fun n => .ok (.present n) := by
  obtain ⟨id, hid, hmodel⟩ := Except.bind_eq_ok_iff.1 hcategory
  obtain ⟨m, hm, hdevice⟩ := Except.map_eq_ok_iff.1 hmodel
  let nodes := r.workers.filterMap fun w => w.store.find? gid
  have hall : r.workers.map (fun w => w.store.find? gid) = nodes.map some := by
    rw [List.map_filterMap_some_eq_filter_map_isSome]
    refine (List.filter_eq_self.2 fun found hfound => ?_).symm
    obtain ⟨w, hw, rfl⟩ := List.mem_map.1 hfound
    obtain ⟨t, ht⟩ := List.getElem?_of_mem hw
    obtain ⟨n, hfind, -⟩ := hr.exists_find?_of_hosts ht hcategory rfl
    rw [hfind, Option.isSome_some]
  refine ⟨nodes, siblings_of_device hid hm hdevice, ?_, ?_⟩
  · have hlength := congrArg List.length hall
    rw [List.length_map, List.length_map] at hlength
    rw [← hlength, hr.length_workers]
  · let shown : Option (Node E) → Except RegistryError (Slot E) := fun found =>
      .ok ((found.map .present).getD (.absent ⟨gid, id, r.shape.home gid m.category⟩))
    calc (List.range config.threads).map (fun t => r.get gid (some t))
      _ = r.workers.map fun w => shown (w.store.find? gid) := by
        rw [← hr.length_workers]
        refine (map_eq_map_range fun t w hw => ?_).symm
        rw [get_eq hid hm]
        exact (slotOn_eq hw).symm
      _ = (nodes.map some).map shown := by rw [← hall, List.map_map]; rfl
      _ = nodes.map fun n => .ok (.present n) := by rw [List.map_map]; rfl

/-- The instances of a process are those that its threads list. -/
theorem Sound.localCount_eq (hr : Sound config catalog r) :
    ∃ listed : List (List (Node E)), (List.range config.threads).map r.localNodes = listed.map .ok ∧
      r.localCount = (listed.map List.length).foldr (· + ·) 0 := by
  refine ⟨r.workers.map fun w => w.store.nodes, ?_, ?_⟩
  · rw [List.map_map, ← hr.length_workers]
    exact (map_eq_map_range fun t w hw => (localNodes_eq hw).symm).symm
  · rw [localCount, List.map_map, List.foldr_map]
    rfl

/-! ## Elements that do not exist -/

/-- If the result is a failure, it is not for want of an element. -/
def Recognized {α : Type} (x : Except RegistryError α) : Prop :=
  ∀ gid, x ≠ .error (.unknownElement gid)

section Recognized

variable {α β : Type}

theorem recognized_ok (a : α) : Recognized (.ok a) := by
  intro gid h
  cases h

theorem Recognized.bind {x : Except RegistryError α} {f : α → Except RegistryError β}
    (hx : Recognized x) (hf : ∀ a, x = .ok a → Recognized (f a)) : Recognized (x >>= f) := by
  cases x with
  | error e =>
    intro gid h
    cases h
    exact hx gid rfl
  | ok a => exact hf a rfl

theorem Recognized.map {x : Except RegistryError α} (hx : Recognized x) (f : α → β) :
    Recognized (f <$> x) := by
  cases x with
  | error e =>
    intro gid h
    cases h
    exact hx gid rfl
  | ok a => exact recognized_ok (f a)

theorem recognized_property (x : Except PropertyError α) : Recognized (x.mapError .property) := by
  intro gid h
  cases x <;> cases h

theorem Recognized.mapM {f : α → Except RegistryError β} {l : List α}
    (h : ∀ a ∈ l, Recognized (f a)) : Recognized (l.mapM f) := by
  intro gid hfail
  obtain ⟨a, ha, hfail⟩ := Except.exists_of_mapM_eq_error hfail
  exact h a ha gid hfail

theorem recognized_worker (r : Registry E) (t : Nat) : Recognized (r.worker t) := by
  intro gid h
  rw [worker] at h
  split at h <;> cases h

theorem recognized_model (r : Registry E) (id : Nat) : Recognized (r.model id) := by
  intro gid h
  rw [model] at h
  split at h <;> cases h

end Recognized

section Found

variable {gid id : Nat} (hid : r.modelOf gid = .ok id)
include hid

theorem recognized_get (thread : Option Nat) : Recognized (r.get gid thread) := by
  rw [get, hid]
  refine (recognized_ok id).bind fun _ _ => (recognized_model r _).bind fun m _ => ?_
  split
  · exact (recognized_worker r _).bind fun w _ => recognized_ok _
  · dsimp only
    split
    · exact (recognized_worker r _).bind fun w _ => recognized_ok _
    · exact recognized_ok _

theorem recognized_localNode (thread : Nat) : Recognized (r.localNode gid thread) := by
  rw [localNode, hid]
  refine (recognized_ok id).bind fun _ _ => (recognized_worker r _).bind fun w _ => ?_
  split
  · exact recognized_ok _
  · intro gid h
    cases h

theorem recognized_modifyLocal {α : Type} (thread : Nat) (f : Node E → α × Node E) :
    Recognized (r.modifyLocal gid thread f).result := by
  have hlocal := recognized_localNode hid thread
  rw [modifyLocal]
  split
  · rename_i e he
    rw [he] at hlocal
    intro gid h
    cases h
    exact hlocal gid rfl
  · exact recognized_ok _

theorem recognized_siblings : Recognized (r.siblings gid) := by
  have hcategory : Recognized (r.categoryOf gid) := by
    rw [categoryOf, hid]
    exact (recognized_ok id).bind fun _ _ => (recognized_model r _).bind fun m _ => recognized_ok _
  rw [siblings]
  refine hcategory.bind fun category _ => ?_
  split
  · intro gid h
    cases h
  · exact recognized_ok _

variable [Element E]

theorem recognized_status (thread : Option Nat) : Recognized (r.status gid thread) := by
  rw [status]
  refine (recognized_get hid thread).bind fun slot _ => ?_
  split
  · exact (recognized_model r _).bind fun m _ => recognized_ok _
  · exact (recognized_model r _).bind fun m _ => recognized_ok _

omit hid in
theorem recognized_stage (props : PropertyMap) (n : Node E) : Recognized (stage props n) := by
  have hmutability : Recognized (checkMutability n props) := by
    intro gid h
    rw [checkMutability] at h
    split at h
    · cases h
    · split at h <;> cases h
  rw [stage]
  exact hmutability.bind fun _ _ => (recognized_property _).bind fun _ _ =>
    (recognized_property _).bind fun _ _ => recognized_ok _

theorem recognized_write (props : PropertyMap) : Recognized (r.write gid props).result := by
  have hplan : Recognized (r.plan gid props) := by
    rw [plan, hid]
    refine (recognized_ok id).bind fun _ _ => ?_
    split
    · intro gid h
      cases h
    · refine (recognized_property _).bind fun frozen _ => ?_
      have hstaged : Recognized (r.stageAll gid props) := by
        refine Recognized.mapM fun w _ => ?_
        split
        · exact recognized_ok _
        · exact (recognized_stage props _).map some
      exact hstaged.bind fun staged _ => recognized_ok _
  rw [write]
  split
  · rename_i e he
    rw [he] at hplan
    intro gid h
    cases h
    exact hplan gid rfl
  · exact recognized_ok _

theorem recognized_initState : Recognized (r.initState gid).result := by
  intro g h
  rw [initState, hid] at h
  simp only [outcome] at h
  split at h <;> cases h

end Found

/-- Whoever names the element is refused for want of it if and only if `p`. -/
structure RefusedIff [Element E] (r : Registry E) (gid g : Nat) (p : Prop) : Prop where
  get : ∀ thread, r.get gid thread = .error (.unknownElement g) ↔ p
  localNode : ∀ thread, r.localNode gid thread = .error (.unknownElement g) ↔ p
  modifyLocal : ∀ {α : Type} thread (f : Node E → α × Node E),
    (r.modifyLocal gid thread f).result = .error (.unknownElement g) ↔ p
  siblings : r.siblings gid = .error (.unknownElement g) ↔ p
  status : ∀ thread, r.status gid thread = .error (.unknownElement g) ↔ p
  write : ∀ props, (r.write gid props).result = .error (.unknownElement g) ↔ p
  initState : (r.initState gid).result = .error (.unknownElement g) ↔ p

theorem Sound.exists_model (hr : Sound config catalog r) {gid : Nat} (hfirst : Gid.first ≤ gid)
    (hlast : gid ≤ r.size) : ∃ id m, r.modelOf gid = .ok id ∧ r.model id = .ok m := by
  obtain ⟨b, hb, hgid⟩ := hr.contains_iff.2 ⟨hfirst, hlast⟩
  obtain ⟨m, hm⟩ := hr.known b hb
  exact ⟨b.model, m, hr.modelOf_eq hb hgid, hr.model_eq hm⟩

/-- A number belongs to a model if and only if it was given out. -/
theorem Sound.modelOf_cases (hr : Sound config catalog r) (gid : Nat) :
    (gid = Gid.reserved ∨ r.size < gid) ∧ r.modelOf gid = .error (.unknownElement gid) ∨
      ¬ (gid = Gid.reserved ∨ r.size < gid) ∧ ∃ id, r.modelOf gid = .ok id := by
  by_cases hunknown : gid = Gid.reserved ∨ r.size < gid
  · refine .inl ⟨hunknown, modelOf_eq_error ?_⟩
    simp only [Gid.reserved, Gid.first] at *
    omega
  · have hgiven : Gid.first ≤ gid ∧ gid ≤ r.size := by
      simp only [Gid.reserved, Gid.first] at *
      omega
    obtain ⟨id, -, hid, -⟩ := hr.exists_model hgiven.1 hgiven.2
    exact .inr ⟨hunknown, id, hid⟩

/-- What first asks for the model of an element is refused for want of the element if and only if the
number was not given out. -/
theorem Sound.refused_iff (hr : Sound config catalog r) {α : Type} {x : Except RegistryError α}
    {gid : Nat} (g : Nat) (hunknown : ∀ e, r.modelOf gid = .error e → x = .error e)
    (hrecognized : ∀ id, r.modelOf gid = .ok id → Recognized x) :
    x = .error (.unknownElement g) ↔ g = gid ∧ (gid = Gid.reserved ∨ r.size < gid) := by
  obtain ⟨hout, herror⟩ | ⟨hout, id, hid⟩ := hr.modelOf_cases gid
  · rw [hunknown _ herror]
    constructor
    · intro h
      cases h
      exact ⟨rfl, hout⟩
    · rintro ⟨rfl, -⟩
      rfl
  · exact ⟨fun h => absurd h (hrecognized id hid g), fun h => absurd h.2 hout⟩

/-- An element is unknown to all who name it if and only if its number was not given out. -/
theorem Sound.refusedIff [Element E] (hr : Sound config catalog r) (gid g : Nat) :
    r.RefusedIff gid g (g = gid ∧ (gid = Gid.reserved ∨ r.size < gid)) where
  get thread := hr.refused_iff g (fun e he => by rw [Registry.get, he]; rfl)
    fun id hid => recognized_get hid thread
  localNode thread := hr.refused_iff g (fun e he => by rw [Registry.localNode, he]; rfl)
    fun id hid => recognized_localNode hid thread
  modifyLocal thread f := hr.refused_iff g
    (fun e he => by rw [Registry.modifyLocal, Registry.localNode, he]; rfl)
    fun id hid => recognized_modifyLocal hid thread f
  siblings := hr.refused_iff g (fun e he => by rw [Registry.siblings, categoryOf, he]; rfl)
    fun id hid => recognized_siblings hid
  status thread := hr.refused_iff g (fun e he => by rw [Registry.status, Registry.get, he]; rfl)
    fun id hid => recognized_status hid thread
  write props := hr.refused_iff g (fun e he => by rw [Registry.write, plan, he]; rfl)
    fun id hid => recognized_write hid props
  initState := hr.refused_iff g (fun e he => by rw [Registry.initState, he])
    fun id hid => recognized_initState hid

/-! ## All of them -/

/-- In every state that a registry can come to all look-ups agree. For an element that was created they
come to the same on each thread, and find an instance there if and only if the placement rule puts one
there. The process holds an element if and only if a thread lists it; the siblings of a replicated
element are its instances on all threads in order; the instances of the process are those of its
threads. An element is unknown to all who name it if and only if its number was not given out. -/
theorem lookups_agree [Element E] {dispatch : Dispatch} (hcatalog : catalog.Formed)
    (hfits : Word.Fits (config.processes * config.threads))
    (h : Reachable config catalog dispatch r) :
    r.threads = config.threads ∧
    (∀ gid, Gid.first ≤ gid → gid ≤ r.size → ∃ id category,
      r.modelOf gid = .ok id ∧ r.categoryOf gid = .ok category ∧
      ∀ t < config.threads, ∃ found,
        r.LookedUp gid t ⟨gid, id, config.shape.home gid category⟩ found ∧
          found.isSome = config.shape.hosts gid category ⟨config.rank, t⟩) ∧
    (∀ gid, r.isLocal gid = true ↔ ∃ t nodes, r.localNodes t = .ok nodes ∧ ∃ n ∈ nodes, n.gid = gid) ∧
    (∀ gid, r.categoryOf gid = .ok .device →
      ∃ nodes, r.siblings gid = .ok nodes ∧ nodes.length = config.threads ∧
        (List.range config.threads).map (fun t => r.get gid (some t)) =
          nodes.map fun n => .ok (.present n)) ∧
    (∃ listed : List (List (Node E)), (List.range config.threads).map r.localNodes = listed.map .ok ∧
      r.localCount = (listed.map List.length).foldr (· + ·) 0) ∧
    ∀ gid g, r.RefusedIff gid g (g = gid ∧ (gid = Gid.reserved ∨ r.size < gid)) := by
  have hr := h.sound hcatalog.numbered
  have hvalid := h.valid
  refine ⟨hr.length_workers, fun gid hfirst hlast => ?_, hr.isLocal_iff hvalid.1 hvalid.2.1 hfits,
    fun gid => hr.siblings_eq, hr.localCount_eq, hr.refusedIff⟩
  obtain ⟨id, m, hid, hm⟩ := hr.exists_model hfirst hlast
  exact ⟨id, m.category, hid, categoryOf_of_model hid hm, fun t ht => hr.lookedUp hid hm ht⟩

/-- Elements of all categories on a process of a grid of two by two: a recorder has an instance on both
threads, the stimulus lives on another process, and there is no eighth element. -/
theorem lookups_agree_mixed :
    let config : GridConfig := { processes := 2, threads := 2, rank := 1 }
    StandardElement.catalog.Formed ∧ Word.Fits (config.processes * config.threads) ∧
    ∃ r, Reachable config StandardElement.catalog .inTurn r ∧ r.size = 7 ∧
      (∃ nodes, r.siblings 6 = .ok nodes ∧ nodes.length = 2) ∧
      (∀ t < 2, r.localNode 7 t = .error (.notLocal 7 t)) ∧
      (∀ t nodes, r.localNodes t = .ok nodes → ∀ n ∈ nodes, n.gid ≠ 7) ∧
      r.siblings 8 = .error (.unknownElement 8) := by
  intro config
  have hcatalog : StandardElement.catalog.Formed := Catalog.formed_ofEntries (by decide)
  have hfits : Word.Fits (config.processes * config.threads) := by decide
  obtain ⟨r, hr, hsize, hrecorder, hstimulus, haway⟩ :
      ∃ r, Reachable config StandardElement.catalog .inTurn r ∧ r.size = 7 ∧
        r.categoryOf 6 = .ok .device ∧ r.categoryOf 7 = .ok .external ∧ r.isLocal 7 = false :=
    ⟨_, ⟨_, [.create "counter" 5, .create "recorder" 1, .create "stimulus" 1, .prepare], rfl, rfl⟩,
      rfl, rfl, rfl, rfl⟩
  obtain ⟨-, hthread, hlocal, hsiblings, -, hunknown⟩ := lookups_agree hcatalog hfits hr
  obtain ⟨nodes, hnodes, hlength, -⟩ := hsiblings 6 hrecorder
  refine ⟨hcatalog, hfits, r, hr, hsize, ⟨nodes, hnodes, hlength⟩, fun t ht => ?_,
    fun t nodes hnodes n hn hgid => ?_, (hunknown 8 8).siblings.2 ⟨rfl, .inr (by omega)⟩⟩
  · obtain ⟨id, category, -, hcategory, hfound⟩ := hthread 7 (by decide) (by omega)
    obtain rfl : category = .external := Except.ok.inj (hcategory.symm.trans hstimulus)
    obtain ⟨found, hall, hhosts⟩ := hfound t ht
    cases found with
    | none => exact hall.localNode
    | some n => cases hhosts
  · have hheld := (hlocal 7).2 ⟨t, nodes, hnodes, n, hn, hgid⟩
    rw [haway] at hheld
    cases hheld

end ElementGrid.Registry
