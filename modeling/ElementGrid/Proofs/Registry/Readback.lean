import ElementGrid.Proofs.Element.Candid
import ElementGrid.Proofs.Registry.Lookups
/-!
# What is written is read

A write that is accepted is seen in the status of every instance of its element: what was written under
its name, and all else as before. A name that the element does not ask for is never passed over.

## Main results

* `Registry.find?_status_stage` — what an instance shows after it has taken the properties
* `Registry.exists_of_get_present` — a look-up that finds an instance finds what becomes of it
* `Registry.read_your_writes` — the status before and after a write to standard elements
-/

namespace ElementGrid.Registry

variable {E : Type} [Element E] {r : Registry E} {config : GridConfig} {catalog : Catalog E}
  {gid t : Nat} {props : PropertyMap} {n : Node E} {e : E}

/-! ## What the registry adds to a status -/

omit [Element E] in
theorem find?_addKnown_frozen (modelName : String) (vp : Vp) (isLocal frozen : Bool)
    (m : PropertyMap) :
    (r.addKnown gid modelName vp isLocal frozen m).find? StatusKey.frozen = some (.bool frozen) :=
  SortedMap.find?_insert_self _ _ _

omit [Element E] in
/-- What is shown only is up to the registry. -/
theorem find?_addKnown_readOnly {key : String} (hkey : key ∈ StatusKey.readOnly) (modelName : String)
    (vp : Vp) (isLocal frozen frozen' : Bool) (m m' : PropertyMap) :
    (r.addKnown gid modelName vp isLocal frozen m).find? key =
      (r.addKnown gid modelName vp isLocal frozen' m').find? key := by
  simp only [addKnown, SortedMap.insertAll, List.foldl_cons, List.foldl_nil, SortedMap.find?_insert]
  simp only [StatusKey.readOnly, List.mem_cons, List.not_mem_nil, or_false] at hkey
  rcases hkey with rfl | rfl | rfl | rfl | rfl <;> rfl

omit [Element E] in
/-- All else is up to the element. -/
theorem find?_addKnown_of_not_mem {key : String} (hkey : key ∉ StatusKey.readOnly)
    (hfrozen : key ≠ StatusKey.frozen) (modelName : String) (vp : Vp) (isLocal frozen : Bool)
    (m : PropertyMap) : (r.addKnown gid modelName vp isLocal frozen m).find? key = m.find? key := by
  simp only [StatusKey.readOnly, List.mem_cons, List.not_mem_nil, or_false, not_or] at hkey
  obtain ⟨hgid, hmodel, hvp, hthread, hlocal⟩ := hkey
  simp only [addKnown, SortedMap.insertAll, List.foldl_cons, List.foldl_nil, SortedMap.find?_insert,
    if_neg hgid, if_neg hmodel, if_neg hvp, if_neg hthread, if_neg hlocal, if_neg hfrozen]

/-! ## One instance -/

section Stage

variable {shown : String → PropertyValue → PropertyValue} {reads : E → List String}
  (hcandid : Element.Candid shown reads) (h : stage props n = .ok e)
include hcandid h

/-- An instance asks for all names that it is given, apart from the registry's own. -/
theorem mem_reads_of_stage {key : String} (hkey : key ∈ props.keys) (hfrozen : key ≠ StatusKey.frozen) :
    key ∈ reads n.element := by
  obtain ⟨-, reader, hrun, hfinish⟩ := stage_eq_ok h
  have hrecorded := hcandid _ _ _ _ hrun
  have hmap : reader.map = props := hrecorded.map_eq.trans (PropertyReader.map_markConsumed _ _)
  have hasked : key ∈ reader.consumed :=
    PropertyReader.finish_eq_ok_iff.1 hfinish key (by rwa [PropertyReader.keys, hmap])
  refine (hrecorded.consumed key hasked).resolve_left fun hmarked => ?_
  rcases PropertyReader.consumed_markConsumed hmarked with hnone | hmarked
  · exact List.not_mem_nil hnone
  · exact hfrozen (List.mem_singleton.1 hmarked)

/-- What the element of an instance shows after it has taken the properties. -/
theorem find?_status_stage {key : String} (hfrozen : key ≠ StatusKey.frozen) :
    (Element.status e .empty).find? key =
      ((props.find? key).map (shown key)).or ((Element.status n.element .empty).find? key) := by
  obtain ⟨-, reader, hrun, -⟩ := stage_eq_ok h
  rw [(hcandid _ _ _ _ hrun).status key, PropertyReader.map_markConsumed, Element.given]
  split
  · rfl
  · rename_i hnot
    have hnone : props.find? key = none :=
      SortedMap.find?_eq_none_iff.2 fun hkey => hnot (mem_reads_of_stage hcandid h hkey hfrozen)
    rw [hnone]
    rfl

/-- What the registry shows of an instance after it has taken the properties, its own flag among them. -/
theorem find?_addKnown_stage (hshown : ∀ b, shown StatusKey.frozen (.bool b) = .bool b)
    (hreadOnly : ∀ key ∈ StatusKey.readOnly, props.contains key = false) {frozen : Option Bool}
    (hflag : props.find? StatusKey.frozen = frozen.map .bool) (modelName : String) (key : String) :
    (r.addKnown gid modelName n.vp true (frozen.getD n.frozen) (Element.status e .empty)).find? key =
      ((props.find? key).map (shown key)).or
        ((r.addKnown gid modelName n.vp true n.frozen (Element.status n.element .empty)).find? key) := by
  by_cases hfrozen : key = StatusKey.frozen
  · rw [hfrozen, find?_addKnown_frozen, find?_addKnown_frozen, hflag]
    cases frozen with
    | none => rfl
    | some b => exact congrArg some (hshown b).symm
  · by_cases hkey : key ∈ StatusKey.readOnly
    · have hnone : props.find? key = none :=
        Option.not_isSome_iff_eq_none.1 (Bool.eq_false_iff.1 (hreadOnly key hkey))
      rw [hnone]
      exact find?_addKnown_readOnly hkey _ _ _ _ _ _ _
    · rw [find?_addKnown_of_not_mem hkey hfrozen, find?_addKnown_of_not_mem hkey hfrozen]
      exact find?_status_stage hcandid h hfrozen

end Stage

/-! ## Look-ups -/

omit [Element E] in
theorem worker_of_slotOn {proxy : Proxy} (h : r.slotOn gid proxy t = .ok (.present n)) :
    ∃ w : Worker E, r.workers[t]? = some w ∧ w.store.find? gid = some n := by
  obtain ⟨w, hworker, hslot⟩ := Except.map_eq_ok_iff.1 h
  rw [worker] at hworker
  split at hworker
  · rename_i w' hw
    cases hworker
    refine ⟨w, hw, ?_⟩
    cases hfind : w.store.find? gid with
    | none =>
      rw [hfind] at hslot
      cases hslot
    | some n' =>
      rw [hfind] at hslot
      cases hslot
      rfl
  · cases hworker

omit [Element E] in
theorem slotOn_of_find? {w : Worker E} (hw : r.workers[t]? = some w)
    (hfind : w.store.find? gid = some n) (proxy : Proxy) :
    r.slotOn gid proxy t = .ok (.present n) := by
  rw [slotOn_eq hw, hfind]
  rfl

omit [Element E] in
/-- A look-up that finds an instance finds what has become of it in a registry with the same seats. -/
theorem exists_of_get_present {thread : Option Nat} (h : r.get gid thread = .ok (.present n)) :
    ∃ (t : Nat) (w : Worker E), r.workers[t]? = some w ∧ w.store.find? gid = some n ∧
      ∀ r' : Registry E, r.SameSeats r' → ∀ (w' : Worker E) n', r'.workers[t]? = some w' →
        w'.store.find? gid = some n' → r'.get gid thread = .ok (.present n') := by
  obtain ⟨id, hid, hrest⟩ := Except.bind_eq_ok_iff.1 h
  obtain ⟨m, hm, -⟩ := Except.bind_eq_ok_iff.1 hrest
  have hafter : ∀ r' : Registry E, r.SameSeats r' →
      r'.modelOf gid = .ok id ∧ r'.model id = .ok m := by
    intro r' hsame
    rw [← hid, ← hm]
    simp only [modelOf, batchOf, model, hsame.batches, hsame.nextGid, hsame.catalog, and_self]
  rw [get_eq hid hm] at h
  cases thread with
  | some t =>
    obtain ⟨w, hw, hfind⟩ := worker_of_slotOn h
    refine ⟨t, w, hw, hfind, fun r' hsame w' n' hw' hfind' => ?_⟩
    obtain ⟨hid', hm'⟩ := hafter r' hsame
    rw [get_eq hid' hm']
    exact slotOn_of_find? hw' hfind' _
  | none =>
    simp only at h
    split at h
    · rename_i hhome
      obtain ⟨w, hw, hfind⟩ := worker_of_slotOn h
      refine ⟨_, w, hw, hfind, fun r' hsame w' n' hw' hfind' => ?_⟩
      obtain ⟨hid', hm'⟩ := hafter r' hsame
      have hshape : r'.shape = r.shape := congrArg GridConfig.shape hsame.config
      rw [get_eq hid' hm', hshape, hsame.config]
      exact (if_pos hhome).trans (slotOn_of_find? hw' hfind' _)
    · cases h

omit [Element E] in
theorem get_of_localNode (hr : Sound config catalog r) (h : r.localNode gid t = .ok n) :
    r.get gid (some t) = .ok (.present n) := by
  obtain ⟨-, w, hw, hfind⟩ := localNode_eq_ok_iff.1 h
  obtain ⟨category, hcategory, -⟩ := hr.hosts_of_find? hw hfind
  obtain ⟨id', hid', hrest⟩ := Except.bind_eq_ok_iff.1 hcategory
  obtain ⟨m, hm, -⟩ := Except.bind_eq_ok_iff.1 hrest
  rw [get_eq hid' hm]
  exact slotOn_of_find? hw hfind _

theorem status_eq {thread : Option Nat} {m : Model E} (h : r.get gid thread = .ok (.present n))
    (hm : r.model n.model = .ok m) :
    r.status gid thread =
      .ok (r.addKnown gid m.name n.vp true n.frozen (Element.status n.element .empty)) := by
  rw [status, h]
  simp only [bind, Except.bind, hm]
  rfl

omit [Element E] in
theorem Sound.exists_model_of_find? (hr : Sound config catalog r) {w : Worker E}
    (hw : r.workers[t]? = some w) (hfind : w.store.find? gid = some n) :
    ∃ m, r.model n.model = .ok m := by
  obtain ⟨hn, -⟩ := (Store.find?_eq_some_iff (hr.ascending hw)).1 hfind
  obtain ⟨i, hi⟩ := List.getElem?_of_mem hn
  obtain ⟨-, -, b, -, -, hmodel, m, hm, -⟩ := hr.seat_eq hw hi
  exact ⟨m, hr.model_eq (hmodel ▸ hm)⟩

/-! ## Writes -/

/-- A write that is carried out leaves, wherever there was an instance, the instance with the staged
element. -/
theorem Sound.find?_write (hr : Sound config catalog r) (hcatalog : catalog.Numbered)
    {frozen : Option Bool} {staged : List (Option E)} (hplan : r.plan gid props = .ok (frozen, staged))
    {w : Worker E} (hw : r.workers[t]? = some w) (hfind : w.store.find? gid = some n) :
    ∃ w' e, (r.write gid props).registry.workers[t]? = some w' ∧ stage props n = .ok e ∧
      w'.store.find? gid = some (commitNode frozen e n) := by
  have hafter : Sound config catalog (r.write gid props).registry := hr.apply hcatalog (.write gid props)
  obtain ⟨w', hw'⟩ := hafter.exists_worker
    (hr.length_workers ▸ (List.getElem?_eq_some_iff.1 hw).1)
  obtain ⟨w₀, hw₀, hcommitted⟩ := committed_write hplan hw'
  obtain rfl : w₀ = w := Option.some.inj (hw₀.symm.trans hw)
  obtain ⟨hnone, -⟩ | ⟨n₀, e, hfind₀, hstage, hstore⟩ := hcommitted.store
  · rw [hnone] at hfind
    cases hfind
  · obtain rfl : n₀ = n := Option.some.inj (hfind₀.symm.trans hfind)
    obtain ⟨hn, hgid⟩ := (Store.find?_eq_some_iff (hr.ascending hw)).1 hfind
    refine ⟨w', e, hw', hstage, (Store.find?_eq_some_iff (hafter.ascending hw')).2 ⟨?_, hgid⟩⟩
    rw [hstore, Store.nodes_modify (hr.ascending hw)]
    exact List.mem_map.2 ⟨n₀, hn, if_pos hgid⟩

theorem exists_plan_of_write (h : (r.write gid props).result = .ok ()) :
    ∃ frozen staged, r.plan gid props = .ok (frozen, staged) := by
  rcases hplan : r.plan gid props with e | ⟨frozen, staged⟩
  · rw [write, hplan] at h
    cases h
  · exact ⟨frozen, staged, rfl⟩

/-- In every state that a registry of standard elements can come to. A thread that holds an instance of
an element finds it. After a write that is accepted, the status of the element on every thread that holds
it, and where it answers for itself, shows for every name that was written the value that was written,
or for a threshold the double that an integer stands for, and for every other name what it showed before.
A write to an element of which the process holds an instance fails if it gives a name that is neither the
registry's own flag nor one that the instance asks for. -/
theorem read_your_writes {catalog : Catalog StandardElement} {r : Registry StandardElement}
    {dispatch : Dispatch} (hcatalog : catalog.Formed) (h : Reachable config catalog dispatch r)
    (gid : Nat) (props : PropertyMap) :
    (∀ t n, r.localNode gid t = .ok n → r.get gid (some t) = .ok (.present n)) ∧
    ((r.write gid props).result = .ok () → ∀ thread n, r.get gid thread = .ok (.present n) →
      ∃ before after, r.status gid thread = .ok before ∧
        (r.write gid props).registry.status gid thread = .ok after ∧
        (∀ key v, props.find? key = some v → after.find? key = some (StandardElement.shown key v)) ∧
        ∀ key, props.find? key = none → after.find? key = before.find? key) ∧
    ∀ n ∈ r.hosted, n.gid = gid → ∀ key, props.contains key = true → key ≠ StatusKey.frozen →
      key ∉ StandardElement.reads n.element → ∃ e, (r.write gid props).result = .error e := by
  have hr := h.sound hcatalog.numbered
  refine ⟨fun t n => get_of_localNode hr, fun hwritten thread n hget => ?read,
    fun n hn hgid key hgiven hfrozen hunread => ?refused⟩
  case read =>
    obtain ⟨frozen, staged, hplan⟩ := exists_plan_of_write hwritten
    obtain ⟨-, hreadOnly, hflag, -⟩ := plan_eq_ok_iff.1 hplan
    have hflag : props.find? StatusKey.frozen = frozen.map .bool := PropertyReader.find?_of_bool hflag
    have hsame := sameSeats_write r gid props
    obtain ⟨t, w, hw, hfind, hfinds⟩ := exists_of_get_present hget
    obtain ⟨m, hm⟩ := hr.exists_model_of_find? hw hfind
    obtain ⟨w', e, hw', hstage, hfind'⟩ := hr.find?_write hcatalog.numbered hplan hw hfind
    have hget' := hfinds _ hsame w' _ hw' hfind'
    have hm' : (r.write gid props).registry.model n.model = .ok m := by
      rw [← hm, model, model, hsame.catalog]
    have hknown : (r.write gid props).registry.addKnown = r.addKnown := by
      have hshape : (r.write gid props).registry.shape = r.shape :=
        congrArg GridConfig.shape hsame.config
      unfold addKnown
      rw [hshape]
    have hafter := status_eq hget' hm'
    rw [hknown] at hafter
    have hshown : ∀ key, (r.addKnown gid m.name n.vp true (frozen.getD n.frozen)
          (Element.status e .empty)).find? key =
        ((props.find? key).map (StandardElement.shown key)).or ((r.addKnown gid m.name n.vp true
          n.frozen (Element.status n.element .empty)).find? key) :=
      find?_addKnown_stage StandardElement.candid hstage (fun _ => rfl) hreadOnly hflag m.name
    refine ⟨_, _, status_eq hget hm, hafter, fun key v hv => (hshown key).trans ?_,
      fun key hnone => (hshown key).trans ?_⟩
    · rw [hv]
      rfl
    · rw [hnone]
      rfl
  case refused =>
    obtain ⟨w, hw, hn⟩ := List.mem_flatMap.1 hn
    obtain ⟨t, ht⟩ := List.getElem?_of_mem hw
    have hfind : w.store.find? gid = some n := (Store.find?_eq_some_iff (hr.ascending ht)).2 ⟨hn, hgid⟩
    cases hresult : (r.write gid props).result with
    | error e => exact ⟨e, rfl⟩
    | ok _ =>
      obtain ⟨frozen, staged, hplan⟩ := exists_plan_of_write hresult
      obtain ⟨-, e, -, hstage, -⟩ := hr.find?_write hcatalog.numbered hplan ht hfind
      have hkey : key ∈ props.keys := by
        by_contra hnot
        rw [SortedMap.contains, SortedMap.find?_eq_none_iff.2 hnot] at hgiven
        cases hgiven
      exact absurd (mem_reads_of_stage StandardElement.candid hstage hkey hfrozen) hunread

/-- A counter takes an integer for its threshold, which it shows as a double, and a flag, and shows its
count as before. A misspelt threshold is refused. -/
theorem read_your_writes_counter :
    let props : PropertyMap := .ofList [("threshold", .int 3), ("frozen", .bool true)]
    let misspelt : PropertyMap := .ofList [("treshold", .int 3)]
    StandardElement.catalog.Formed ∧
    ∃ r, Reachable { threads := 2 } StandardElement.catalog .inTurn r ∧
      (r.write 1 props).result = .ok () ∧
      (∃ before after, r.status 1 none = .ok before ∧
        (r.write 1 props).registry.status 1 none = .ok after ∧
        after.find? "threshold" = some (.double (.ofInt 3)) ∧
        after.find? "frozen" = some (.bool true) ∧ after.find? "count" = before.find? "count") ∧
      ∃ e, (r.write 1 misspelt).result = .error e := by
  intro props misspelt
  have hcatalog : StandardElement.catalog.Formed := Catalog.formed_ofEntries (by decide)
  obtain ⟨r, n, hr, hwritten, hget, hn, hgid, hreads⟩ :
      ∃ r n, Reachable { threads := 2 } StandardElement.catalog .inTurn r ∧
        (r.write 1 props).result = .ok () ∧ r.get 1 none = .ok (.present n) ∧ n ∈ r.hosted ∧
        n.gid = 1 ∧ StandardElement.reads n.element = ["threshold", "count"] :=
    ⟨_, _, ⟨_, [.create "counter" 1, .prepare], rfl, rfl⟩, rfl, rfl, .head _, rfl, rfl⟩
  obtain ⟨-, hread, -⟩ := read_your_writes hcatalog hr 1 props
  obtain ⟨-, -, hrefused⟩ := read_your_writes hcatalog hr 1 misspelt
  obtain ⟨before, after, hbefore, hafter, hgiven, hkept⟩ := hread hwritten none n hget
  exact ⟨hcatalog, r, hr, hwritten, ⟨before, after, hbefore, hafter, hgiven "threshold" (.int 3) rfl,
    hgiven "frozen" (.bool true) rfl, hkept "count" rfl⟩,
    hrefused n hn hgid "treshold" rfl (by decide) (by rw [hreads]; decide)⟩

end ElementGrid.Registry
