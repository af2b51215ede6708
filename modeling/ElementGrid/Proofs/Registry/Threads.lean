import ElementGrid.Proofs.Registry.Seats
/-!
# Thread by thread

What a command does to a thread depends on that thread alone, apart from the writes, which look at all
threads before they touch one. Waveform relaxation touches neither instances nor streams.

## Main definitions

* `Worker.Same` — threads with the same instances and the same stream
* `Registry.SameThreads` — registries of such threads, with the same creations

## Main results

* `Registry.getElem?_sweep`, `Registry.getElem?_initState`, `Registry.getElem?_modifyLocal` — what
  becomes of a thread
-/

namespace ElementGrid

variable {E : Type}

/-- The threads have the same instances and the same stream. -/
structure Worker.Same (w w' : Worker E) : Prop where
  nodes : w'.store.nodes = w.store.nodes
  generator : w'.generator = w.generator

theorem Worker.Same.refl (w : Worker E) : w.Same w := ⟨rfl, rfl⟩

/-- What has been noted so far makes no difference to the visit of a thread. -/
theorem Worker.visitOne_snd (visit : Visit E Unit) (gid : Nat) (tally : Tally) (w : Worker E) :
    (w.visitOne visit gid tally).2 = (w.visitOne visit gid {}).2 := by
  rw [visitOne, visitOne]
  split <;> rfl

namespace Registry

variable {r : Registry E}

theorem workers_visitAll (visit : Visit E Unit) (gid : Nat) (tally : Tally) (ws : List (Worker E)) :
    (visitAll visit gid tally ws).2 = ws.map fun w => (w.visitOne visit gid {}).2 := by
  induction ws generalizing tally with
  | nil => rfl
  | cons w ws ih => simp only [visitAll, ih, w.visitOne_snd visit gid tally, List.map_cons]

theorem getElem?_modifyLocal {α : Type} {gid thread : Nat} {f : Node E → α × Node E} {n : Node E}
    (hlocal : r.localNode gid thread = .ok n) (t : Nat) :
    (r.modifyLocal gid thread f).registry.workers[t]? =
      (r.workers[t]?).map fun w =>
        if thread = t then { w with store := w.store.modify gid fun _ => (f n).2 } else w := by
  rw [modifyLocal, hlocal]
  simp only [modifyWorker, List.getElem?_modify]
  rfl

theorem modifyLocal_of_refused {α : Type} {gid thread : Nat} {f : Node E → α × Node E}
    (h : ∀ n, r.localNode gid thread ≠ .ok n) : (r.modifyLocal gid thread f).registry = r := by
  rw [modifyLocal]
  split
  · rfl
  · rename_i n hlocal
    exact absurd hlocal (h n)

/-- Whether an element is found on a thread is up to the creations and that thread. -/
theorem localNode_eq_ok_iff {gid thread : Nat} {n : Node E} :
    r.localNode gid thread = .ok n ↔ (∃ id, r.modelOf gid = .ok id) ∧
      ∃ w, r.workers[thread]? = some w ∧ w.store.find? gid = some n := by
  constructor
  · intro h
    obtain ⟨id, hid, -⟩ := Except.bind_eq_ok_iff.1 h
    exact ⟨⟨id, hid⟩, worker_of_localNode h⟩
  · rintro ⟨⟨id, hid⟩, w, hw, hfind⟩
    have hworker : r.worker thread = .ok w := by rw [worker, hw]
    simp only [localNode, hid, bind, Except.bind, hworker, hfind]
    rfl

variable [Element E]

theorem getElem?_sweep (r : Registry E) (phase : Phase) (t : Nat) :
    (r.sweep phase).2.workers[t]? =
      (r.workers[t]?).map fun w => (w.sweep (Visit.ofPhase phase)).2 := by
  simp only [sweep, Dispatch.updatePartitions, List.getElem?_map, List.getElem?_mapIdx,
    Option.map_map]
  rfl

theorem getElem?_initState {gid id : Nat} (hid : r.modelOf gid = .ok id) (t : Nat) :
    (r.initState gid).registry.workers[t]? =
      (r.workers[t]?).map fun w => (w.visitOne Visit.initState gid {}).2 := by
  rw [initState, hid]
  simp only [workers_visitAll, List.getElem?_map]

end Registry

/-! ## Waveform relaxation -/

namespace Registry

/-- The registries agree on the creations, and on the instances and the stream of each thread. -/
structure SameThreads (r r' : Registry E) : Prop where
  config : r'.config = r.config
  catalog : r'.catalog = r.catalog
  batches : r'.batches = r.batches
  nextGid : r'.nextGid = r.nextGid
  workers : ∀ (t : Nat) (w' : Worker E), r'.workers[t]? = some w' →
    ∃ w, r.workers[t]? = some w ∧ w.Same w'

variable {r r' r'' : Registry E}

theorem SameThreads.refl (r : Registry E) : r.SameThreads r :=
  ⟨rfl, rfl, rfl, rfl, fun _ w hw => ⟨w, hw, .refl w⟩⟩

theorem SameThreads.trans (h : r.SameThreads r') (h' : r'.SameThreads r'') : r.SameThreads r'' := by
  refine ⟨h'.config.trans h.config, h'.catalog.trans h.catalog, h'.batches.trans h.batches,
    h'.nextGid.trans h.nextGid, fun t w'' hw'' => ?_⟩
  obtain ⟨w', hw', hsame'⟩ := h'.workers t w'' hw''
  obtain ⟨w, hw, hsame⟩ := h.workers t w' hw'
  exact ⟨w, hw, hsame'.nodes.trans hsame.nodes, hsame'.generator.trans hsame.generator⟩

variable [Element E]

theorem sameThreads_repartition (r : Registry E) : r.SameThreads r.repartition.1 := by
  rw [repartition]
  split
  · exact .refl r
  · refine ⟨rfl, rfl, rfl, rfl, fun t w' hw' => ?_⟩
    simp only [Dispatch.updatePartitions, List.getElem?_map, List.getElem?_mapIdx,
      Option.map_map] at hw'
    obtain ⟨w, hw, rfl⟩ := Option.map_eq_some_iff.1 hw'
    refine ⟨w, hw, ?_⟩
    simp only [Function.comp, Worker.repartition]
    split
    · exact .refl w
    · exact ⟨rfl, rfl⟩

theorem sameThreads_relaxingNodes (r : Registry E) (thread : Nat) :
    r.SameThreads (r.relaxingNodes thread).registry := by
  rw [relaxingNodes]
  split
  · exact .refl r
  · exact sameThreads_repartition r

theorem sameThreads_ensureLocalIds (r : Registry E) :
    r.SameThreads r.ensureLocalIds.registry := by
  have htold : r.SameThreads
      { r with workers := r.workers.map (Worker.learnSize r.size), stale := false } := by
    refine ⟨rfl, rfl, rfl, rfl, fun t w' hw' => ?_⟩
    obtain ⟨w, hw, rfl⟩ := Option.map_eq_some_iff.1 (List.getElem?_map.symm.trans hw')
    exact ⟨w, hw, rfl, rfl⟩
  simp only [ensureLocalIds]
  split
  · exact htold.trans (sameThreads_repartition _)
  · exact htold

theorem sameThreads_checkRelaxation (r : Registry E) : r.SameThreads r.checkRelaxation.2 :=
  ⟨rfl, rfl, rfl, rfl, fun _ w hw => ⟨w, hw, .refl w⟩⟩

theorem sameThreads_checkRelaxationGlobal (r : Registry E)
    (reply : Except ExchangeError Gathered) :
    r.SameThreads (r.checkRelaxationGlobal.against reply).1.registry := by
  cases reply <;> exact ⟨rfl, rfl, rfl, rfl, fun _ w hw => ⟨w, hw, .refl w⟩⟩

end Registry

end ElementGrid
