import ElementGrid.Proofs.Element.Simulation
import ElementGrid.Proofs.Registry.Threads
import ElementGrid.Proofs.Registry.Writing
/-!
# Registries that do alike

Some threads of one registry correspond to threads of another. As long as both registries go through the
same commands, corresponding threads hold instances that a simulation relates and their streams stand at
the same place, because every command does the same to both.

## Main definitions

* `Command.relabel` — a command on elements of another type
* `Simulation.Workers` — threads with related instances and one stream
* `Simulation.Linked` — which threads of two grids may correspond
* `Simulation.Registries` — registries whose corresponding threads are related

## Main results

* `Simulation.Registries.apply`, `.write`, `.modifyLocal` — the commands keep the relation
-/

namespace ElementGrid

/-- The command on elements of another type. A change in place is carried over by `lift`. -/
def Command.relabel {E F : Type} (lift : (F → F) → E → E) : Command F → Command E
  | .create name count => .create name count
  | .createById id count => .createById id count
  | .write gid props => .write gid props
  | .edit gid thread change => .edit gid thread (lift change)
  | .activate gid thread => .activate gid thread
  | .prepare => .prepare
  | .reinit => .reinit
  | .finalize => .finalize
  | .postRunCleanup => .postRunCleanup
  | .initState gid => .initState gid
  | .ensureLocalIds => .ensureLocalIds
  | .relaxingNodes thread => .relaxingNodes thread
  | .checkRelaxation => .checkRelaxation
  | .checkRelaxationGlobal reply => .checkRelaxationGlobal reply
  | .reset => .reset

/-- The command treats all threads the same and each without a look at the others. -/
def Command.Uniform {E : Type} : Command E → Prop
  | .write .. | .edit .. | .activate .. => False
  | _ => True

theorem Command.relabel_id {E : Type} (c : Command E) : c.relabel id = c := by
  cases c <;> rfl

namespace Simulation

variable {E F : Type} [Element E] [Element F] {S : Simulation E F}

section Lists

variable {α β : Type} {R : α → β → Prop} {l : List α} {l' : List β}

theorem getElem?_rel (h : List.Forall₂ R l l') (i : Nat) : Option.Rel R l[i]? l'[i]? := by
  induction h generalizing i with
  | nil => exact .none
  | cons hab _ ih =>
    cases i with
    | zero => exact .some hab
    | succ i => simpa using ih i

theorem forall₂_modify {f : α → α} {g : β → β} (h : List.Forall₂ R l l')
    (hfg : ∀ a b, R a b → R (f a) (g b)) (i : Nat) :
    List.Forall₂ R (l.modify i f) (l'.modify i g) := by
  induction h generalizing i with
  | nil => simp
  | cons hab htail ih =>
    cases i with
    | zero => simpa using ⟨hfg _ _ hab, htail⟩
    | succ i => simpa using ⟨hab, ih i⟩

end Lists

/-! ## Threads -/

variable (S)

/-- Threads with related instances and one stream. -/
structure Workers (w : Worker E) (w' : Worker F) : Prop where
  nodes : List.Forall₂ S.Nodes w.store.nodes w'.store.nodes
  generator : w.generator = w'.generator

variable {S}

theorem gids_eq {s : Store E} {s' : Store F} (h : List.Forall₂ S.Nodes s.nodes s'.nodes) :
    s.gids = s'.gids := by
  rw [Store.gids, Store.gids, ← List.forall₂_eq_eq_eq, List.forall₂_map_left_iff,
    List.forall₂_map_right_iff]
  exact h.imp fun _ _ hnm => hnm.gid

theorem find?_rel {s : Store E} {s' : Store F} (h : List.Forall₂ S.Nodes s.nodes s'.nodes)
    (gid : Nat) : Option.Rel S.Nodes (s.find? gid) (s'.find? gid) := by
  rw [Store.find?, Store.find?, Store.index?_congr (gids_eq h)]
  cases s'.index? gid with
  | none => exact .none
  | some i => exact getElem?_rel h i

theorem nodes_modify_rel {s : Store E} {s' : Store F} (h : List.Forall₂ S.Nodes s.nodes s'.nodes)
    {f : Node E → Node E} {g : Node F → Node F} (hfg : ∀ n m, S.Nodes n m → S.Nodes (f n) (g m))
    (gid : Nat) : List.Forall₂ S.Nodes (s.modify gid f).nodes (s'.modify gid g).nodes := by
  rw [Store.modify, Store.modify, Store.index?_congr (gids_eq h)]
  cases s'.index? gid with
  | none => exact h
  | some i => exact forall₂_modify h hfg i

namespace Workers

variable {w : Worker E} {w' : Worker F}

theorem of_same {w₁ : Worker E} {w₁' : Worker F} (h : S.Workers w w') (hw : w.Same w₁)
    (hw' : w'.Same w₁') : S.Workers w₁ w₁' :=
  ⟨by rw [hw.nodes, hw'.nodes]; exact h.nodes,
    by rw [hw.generator, hw'.generator]; exact h.generator⟩

theorem sweep (h : S.Workers w w') (phase : Phase) :
    S.Workers (w.sweep (Visit.ofPhase phase)).2 (w'.sweep (Visit.ofPhase phase)).2 := by
  obtain ⟨hnodes, hstream⟩ := sweepNodes phase h.nodes w.generator {} {}
  have hsame := h.generator
  refine ⟨?_, ?_⟩ <;> rw [Worker.sweep, Worker.sweep]
  · rw [← hsame]
    exact hnodes
  · rw [← hsame]
    exact hstream

theorem visitOne (h : S.Workers w w') (phase : Phase) (gid : Nat) :
    S.Workers (w.visitOne (Visit.ofPhase phase) gid {}).2
      (w'.visitOne (Visit.ofPhase phase) gid {}).2 := by
  have hfind := find?_rel h.nodes gid
  rw [Worker.visitOne, Worker.visitOne]
  cases hn : w.store.find? gid <;> cases hm : w'.store.find? gid <;> rw [hn, hm] at hfind
  case none.none => exact h
  case none.some => cases hfind
  case some.none => cases hfind
  case some.some n m =>
    cases hfind with
    | some hnm =>
      obtain ⟨-, hnodes, hstream⟩ := ofPhase phase (n, w.generator) (m, w'.generator)
        ⟨hnm, h.generator⟩
      exact ⟨nodes_modify_rel h.nodes (fun _ _ _ => hnodes) gid, hstream⟩

end Workers

/-! ## Staging -/

theorem checkMutability_eq {n : Node E} {m : Node F} (h : S.Nodes n m) (props : PropertyMap) :
    Registry.checkMutability n props = Registry.checkMutability m props := by
  rw [Registry.checkMutability, Registry.checkMutability, h.state, h.gid, S.mutability h.element]

theorem stage_rel {n : Node E} {m : Node F} (h : S.Nodes n m) (props : PropertyMap) :
    Except.Alike S.rel (Registry.stage props n) (Registry.stage props m) := by
  rw [Registry.stage, Registry.stage, checkMutability_eq h]
  refine (Except.Alike.of_eq rfl).bind fun _ _ _ => ?_
  obtain ⟨htaken, helement, hreader⟩ := S.write
    (n.element, (PropertyReader.ofMap props).markConsumed StatusKey.frozen)
    (m.element, (PropertyReader.ofMap props).markConsumed StatusKey.frozen) ⟨h.element, rfl⟩
  rcases hn : Element.write.run.run
    (n.element, (PropertyReader.ofMap props).markConsumed StatusKey.frozen) with ⟨taken, e, reader⟩
  rcases hm : Element.write.run.run
    (m.element, (PropertyReader.ofMap props).markConsumed StatusKey.frozen) with ⟨taken', f, reader'⟩
  rw [hn, hm] at htaken helement hreader
  obtain rfl : reader = reader' := hreader
  obtain rfl : taken = taken' := htaken.eq
  simp only [hn, hm]
  exact (Except.Alike.of_eq rfl).bind fun _ _ _ => (Except.Alike.of_eq rfl).bind fun _ _ _ =>
    .ok helement

theorem Workers.stages_iff {w : Worker E} {w' : Worker F} (h : S.Workers w w') (gid : Nat)
    (props : PropertyMap) :
    (∀ n, w.store.find? gid = some n → ∃ e, Registry.stage props n = .ok e) ↔
      ∀ m, w'.store.find? gid = some m → ∃ f, Registry.stage props m = .ok f := by
  have hfind := find?_rel h.nodes gid
  generalize w.store.find? gid = found at hfind ⊢
  generalize w'.store.find? gid = found' at hfind ⊢
  cases hfind with
  | none => simp
  | some hnm => simpa using (stage_rel hnm props).exists_ok_iff

theorem commitNode_rel {n : Node E} {m : Node F} {e : E} {f : F} (hnm : S.Nodes n m)
    (hef : S.rel e f) (frozen : Option Bool) :
    S.Nodes (Registry.commitNode frozen e n) (Registry.commitNode frozen f m) :=
  { hnm with
    frozen := by simp only [Registry.commitNode, hnm.frozen]
    element := hef }

/-! ## Registries -/

variable (S)

/-- Models that differ in their prototypes only. -/
structure Models (m : Model E) (m' : Model F) : Prop where
  id : m.id = m'.id
  name : m.name = m'.name
  category : m.category = m'.category
  prototype : S.rel m.prototype m'.prototype

/-- Threads that correspond have the same linear number, so the placement rule gives them the same
elements and they draw from the same stream, and the hooks do not tell them apart. -/
structure Linked (c c' : GridConfig) (link : Nat → Nat → Prop) : Prop where
  seed : c.seed = c'.seed
  index : ∀ {t t'}, link t t' → c.shape.toIndex ⟨c.rank, t⟩ = c'.shape.toIndex ⟨c'.rank, t'⟩
  hosts : ∀ {t t'}, link t t' → ∀ gid category,
    c.shape.hosts gid category ⟨c.rank, t⟩ = c'.shape.hosts gid category ⟨c'.rank, t'⟩
  vp : ∀ {t t'}, link t t' → S.vps ⟨c.rank, t⟩ ⟨c'.rank, t'⟩

/-- Registries with the same creations behind them whose corresponding threads are related. -/
structure Registries (link : Nat → Nat → Prop) (r : Registry E) (r' : Registry F) : Prop where
  linked : S.Linked r.config r'.config link
  models : List.Forall₂ S.Models r.catalog.models r'.catalog.models
  batches : r.batches = r'.batches
  nextGid : r.nextGid = r'.nextGid
  workers : ∀ {t t' : Nat} {w : Worker E} {w' : Worker F}, link t t' → r.workers[t]? = some w →
    r'.workers[t']? = some w' → S.Workers w w'

variable {S}

namespace Registries

variable {link : Nat → Nat → Prop} {r : Registry E} {r' : Registry F}

theorem modelOf_eq (h : S.Registries link r r') (gid : Nat) : r.modelOf gid = r'.modelOf gid := by
  rw [Registry.modelOf, Registry.modelOf, Registry.batchOf, Registry.batchOf, h.batches, h.nextGid]

theorem categoryOf_eq (h : S.Registries link r r') (gid : Nat) :
    r.categoryOf gid = r'.categoryOf gid := by
  rw [Registry.categoryOf, Registry.categoryOf, h.modelOf_eq]
  rcases r'.modelOf gid with e | id
  · rfl
  · have hmodel := getElem?_rel h.models id
    show (do return (← r.model id).category : Except RegistryError Category) =
      do return (← r'.model id).category
    rw [Registry.model, Registry.model, Catalog.get?, Catalog.get?]
    generalize r.catalog.models[id]? = found at hmodel ⊢
    generalize r'.catalog.models[id]? = found' at hmodel ⊢
    cases hmodel with
    | none => rfl
    | some hm => exact congrArg Except.ok hm.category

theorem lookup?_eq (h : S.Registries link r r') (name : String) :
    r.catalog.lookup? name = r'.catalog.lookup? name := by
  have hfind : ∀ {ms : List (Model E)} {ms' : List (Model F)}, List.Forall₂ S.Models ms ms' →
      (ms.find? fun m => m.name == name).map Model.id =
        (ms'.find? fun m => m.name == name).map Model.id := by
    intro ms ms' hms
    induction hms with
    | nil => rfl
    | cons hm _ ih =>
      simp only [List.find?_cons, hm.name]
      split
      · exact congrArg some hm.id
      · exact ih
  exact hfind h.models

/-- A command that creates nothing has the threads to answer for. -/
theorem of_sameSeats {r₁ : Registry E} {r₁' : Registry F} (h : S.Registries link r r')
    (hr : r.SameSeats r₁) (hr' : r'.SameSeats r₁')
    (hworkers : ∀ {t t' : Nat} {w₁ : Worker E} {w₁' : Worker F}, link t t' →
      r₁.workers[t]? = some w₁ → r₁'.workers[t']? = some w₁' → S.Workers w₁ w₁') :
    S.Registries link r₁ r₁' where
  linked := by
    rw [hr.config, hr'.config]
    exact h.linked
  models := by
    rw [hr.catalog, hr'.catalog]
    exact h.models
  batches := by rw [hr.batches, hr'.batches, h.batches]
  nextGid := by rw [hr.nextGid, hr'.nextGid, h.nextGid]
  workers := hworkers

/-- What is done to each thread by itself, and to related threads alike, keeps the relation. -/
theorem of_threads {r₁ : Registry E} {r₁' : Registry F} {f : Nat → Worker E → Worker E}
    {f' : Nat → Worker F → Worker F} (h : S.Registries link r r') (hr : r.SameSeats r₁)
    (hr' : r'.SameSeats r₁') (hworkers : ∀ t : Nat, r₁.workers[t]? = (r.workers[t]?).map (f t))
    (hworkers' : ∀ t : Nat, r₁'.workers[t]? = (r'.workers[t]?).map (f' t))
    (hf : ∀ t t' w w', link t t' → S.Workers w w' → S.Workers (f t w) (f' t' w')) :
    S.Registries link r₁ r₁' := by
  refine h.of_sameSeats hr hr' fun hlink hw₁ hw₁' => ?_
  rw [hworkers] at hw₁
  rw [hworkers'] at hw₁'
  obtain ⟨w, hw, rfl⟩ := Option.map_eq_some_iff.1 hw₁
  obtain ⟨w', hw', rfl⟩ := Option.map_eq_some_iff.1 hw₁'
  exact hf _ _ w w' hlink (h.workers hlink hw hw')

/-- What leaves the instances and the streams alone keeps the relation. -/
theorem of_sameThreads {r₁ : Registry E} {r₁' : Registry F} (h : S.Registries link r r')
    (hr : r.SameThreads r₁) (hr' : r'.SameThreads r₁') : S.Registries link r₁ r₁' where
  linked := by
    rw [hr.config, hr'.config]
    exact h.linked
  models := by
    rw [hr.catalog, hr'.catalog]
    exact h.models
  batches := by rw [hr.batches, hr'.batches, h.batches]
  nextGid := by rw [hr.nextGid, hr'.nextGid, h.nextGid]
  workers := by
    intro t t' w₁ w₁' hlink hw₁ hw₁'
    obtain ⟨w, hw, hsame⟩ := hr.workers t w₁ hw₁
    obtain ⟨w', hw', hsame'⟩ := hr'.workers t' w₁' hw₁'
    exact (h.workers hlink hw hw').of_same hsame hsame'

theorem sweep (h : S.Registries link r r') (phase : Phase) :
    S.Registries link (r.sweep phase).2 (r'.sweep phase).2 :=
  h.of_threads (Registry.sameSeats_sweep r phase) (Registry.sameSeats_sweep r' phase)
    (Registry.getElem?_sweep r phase) (Registry.getElem?_sweep r' phase)
    fun _ _ _ _ _ hw => hw.sweep phase

theorem initState (h : S.Registries link r r') (gid : Nat) :
    S.Registries link (r.initState gid).registry (r'.initState gid).registry := by
  rcases hid : r'.modelOf gid with e | id
  · rw [Registry.initState, Registry.initState, h.modelOf_eq, hid]
    exact h
  · exact h.of_threads (Registry.sameSeats_initState r gid) (Registry.sameSeats_initState r' gid)
      (Registry.getElem?_initState ((h.modelOf_eq gid).trans hid)) (Registry.getElem?_initState hid)
      fun _ _ _ _ _ hw => hw.visitOne .initState gid

/-- Registries without elements are related from the first, as their streams are those of the threads. -/
theorem fresh {c c' : GridConfig} {catalog : Catalog E} {catalog' : Catalog F}
    (dispatch dispatch' : Dispatch) (hlinked : S.Linked c c' link)
    (hmodels : List.Forall₂ S.Models catalog.models catalog'.models) :
    S.Registries link { config := c, catalog, dispatch, workers := Registry.freshWorkers c }
      { config := c', catalog := catalog', dispatch := dispatch',
        workers := Registry.freshWorkers c' } where
  linked := hlinked
  models := hmodels
  batches := rfl
  nextGid := rfl
  workers := by
    intro t t' w w' hlink hw hw'
    simp only [Registry.freshWorkers, List.getElem?_map, Option.map_eq_some_iff] at hw hw'
    obtain ⟨s, hs, rfl⟩ := hw
    obtain ⟨s', hs', rfl⟩ := hw'
    obtain ⟨-, rfl⟩ := List.getElem?_eq_some_iff.1 hs
    obtain ⟨-, rfl⟩ := List.getElem?_eq_some_iff.1 hs'
    refine ⟨.nil, ?_⟩
    simp only [List.getElem_range, hlinked.index hlink, hlinked.seed]

theorem reset (h : S.Registries link r r') :
    S.Registries link r.reset.registry r'.reset.registry :=
  fresh r.dispatch r'.dispatch h.linked h.models

/-! ### Creations -/

theorem appendAll_rel {s : Store E} {s' : Store F} {ns : List (Node E)} {ms : List (Node F)}
    (h : List.Forall₂ S.Nodes s.nodes s'.nodes)
    (hnew : List.Forall₂ S.Nodes ns ms) :
    List.Forall₂ S.Nodes (s.appendAll ns).nodes (s'.appendAll ms).nodes := by
  induction hnew generalizing s s' with
  | nil => exact h
  | @cons n m ns ms hnm _ ih =>
    -- Both new instances take the place behind those that are there.
    have hplace : S.Nodes { n with localId := s.size } { m with localId := s'.size } :=
      { hnm with localId := h.length_eq }
    show List.Forall₂ S.Nodes ((s.append n).appendAll ns).nodes ((s'.append m).appendAll ms).nodes
    exact ih (List.rel_append h (.cons hplace .nil))

theorem populate (h : S.Registries link r r') {m : Model E} {m' : Model F} (hm : S.Models m m')
    (batch : Run) {t t' : Nat} (hlink : link t t') {w : Worker E} {w' : Worker F}
    (hw : S.Workers w w') :
    S.Workers (r.populate m batch t w) (r'.populate m' batch t' w') := by
  refine ⟨appendAll_rel hw.nodes ?_, hw.generator⟩
  have hhere : ∀ gid, r.shape.hosts gid m.category ⟨r.config.rank, t⟩ =
      r'.shape.hosts gid m'.category ⟨r'.config.rank, t'⟩ := by
    intro gid
    rw [hm.category]
    exact h.linked.hosts hlink gid m'.category
  simp only [hhere]
  rw [List.forall₂_map_left_iff, List.forall₂_map_right_iff, List.forall₂_same]
  intro gid _
  exact
    { gid := rfl
      model := hm.id
      category := hm.category
      vp := h.linked.vp hlink
      localId := rfl
      state := rfl
      frozen := rfl
      element := hm.prototype }

theorem createById (h : S.Registries link r r') (id count : Nat) :
    S.Registries link (r.createById id count).registry (r'.createById id count).registry := by
  have hmodel := getElem?_rel h.models id
  rw [Registry.createById, Registry.createById, Catalog.get?, Catalog.get?, h.nextGid]
  cases hm : r.catalog.models[id]? <;> cases hm' : r'.catalog.models[id]? <;> rw [hm, hm'] at hmodel
  case none.none => exact h
  case none.some => cases hmodel
  case some.none => cases hmodel
  case some.some m m' =>
    cases hmodel with
    | some hmm =>
      simp only
      split
      · exact h
      · refine ⟨h.linked, h.models, ?_, rfl, ?_⟩
        · simp only [Registry.withBatch, h.batches]
        · intro t t' w₁ w₁' hlink hw₁ hw₁'
          simp only [Registry.withBatch, List.getElem?_mapIdx, Option.map_eq_some_iff] at hw₁ hw₁'
          obtain ⟨w, hw, rfl⟩ := hw₁
          obtain ⟨w', hw', rfl⟩ := hw₁'
          exact h.populate hmm _ hlink (h.workers hlink hw hw')

theorem create (h : S.Registries link r r') (name : String) (count : Nat) :
    S.Registries link (r.create name count).registry (r'.create name count).registry := by
  rw [Registry.create, Registry.create, h.lookup?_eq]
  split
  · exact h
  · exact h.createById _ count

/-! ### Writes -/

/-- Where the instances that would take the properties correspond, a write is carried out on both sides
or on neither. -/
theorem exists_plan_iff (h : S.Registries link r r') (gid : Nat) (props : PropertyMap)
    (hleft : ∀ (s : Nat) (v : Worker E) (k : Node E), r.workers[s]? = some v →
      v.store.find? gid = some k → ∃ s' v', link s s' ∧ r'.workers[s']? = some v')
    (hright : ∀ (s' : Nat) (v' : Worker F) (k' : Node F), r'.workers[s']? = some v' →
      v'.store.find? gid = some k' → ∃ s v, link s s' ∧ r.workers[s]? = some v) :
    (∃ p, r.plan gid props = .ok p) ↔ ∃ p, r'.plan gid props = .ok p := by
  rw [Registry.exists_plan_iff, Registry.exists_plan_iff, h.modelOf_eq]
  refine and_congr_right fun _ => and_congr_right fun _ => and_congr_right fun _ => ⟨?_, ?_⟩
  · intro hstage s' v' k' hv' hk'
    obtain ⟨s, v, hlink, hv⟩ := hright s' v' k' hv' hk'
    exact ((h.workers hlink hv hv').stages_iff gid props).1 (fun k => hstage s v k hv) k' hk'
  · intro hstage s v k hv hk
    obtain ⟨s', v', hlink, hv'⟩ := hleft s v k hv hk
    exact ((h.workers hlink hv hv').stages_iff gid props).2 (fun k' => hstage s' v' k' hv') k hk

/-- A staged copy is put in place on both threads or on neither. -/
theorem committed {gid : Nat} {props : PropertyMap} {frozen : Option Bool} {w w₁ : Worker E}
    {w' w₁' : Worker F} (h : S.Workers w w') (hw : w.Committed gid props frozen w₁)
    (hw' : w'.Committed gid props frozen w₁') : S.Workers w₁ w₁' := by
  have hstream : w₁.generator = w₁'.generator := by rw [hw.generator, hw'.generator, h.generator]
  have hfind := find?_rel h.nodes gid
  obtain ⟨hnone, hstore⟩ | ⟨n, e, hn, he, hstore⟩ := hw.store <;>
    obtain ⟨hnone', hstore'⟩ | ⟨m, f, hm, hf, hstore'⟩ := hw'.store
  · exact ⟨by rw [hstore, hstore']; exact h.nodes, hstream⟩
  · rw [hnone, hm] at hfind
    cases hfind
  · rw [hn, hnone'] at hfind
    cases hfind
  · rw [hn, hm] at hfind
    cases hfind with
    | some hnm =>
      have hef := stage_rel hnm props
      rw [he, hf] at hef
      cases hef with
      | ok hef =>
        refine ⟨?_, hstream⟩
        rw [hstore, hstore']
        exact nodes_modify_rel h.nodes (fun _ _ hab => commitNode_rel hab hef frozen) gid

/-- A write keeps the relation if the element is on no thread that has a counterpart, or if every thread
that holds it has one. -/
theorem write (h : S.Registries link r r') {gid : Nat} (props : PropertyMap)
    (hshared : ∀ {t t' : Nat} {w : Worker E} {n : Node E}, link t t' → r.workers[t]? = some w →
      w.store.find? gid = some n →
        (∀ (s : Nat) (v : Worker E) (k : Node E), r.workers[s]? = some v →
          v.store.find? gid = some k → ∃ s' v', link s s' ∧ r'.workers[s']? = some v') ∧
        ∀ (s' : Nat) (v' : Worker F) (k' : Node F), r'.workers[s']? = some v' →
          v'.store.find? gid = some k' → ∃ s v, link s s' ∧ r.workers[s]? = some v) :
    S.Registries link (r.write gid props).registry (r'.write gid props).registry := by
  refine h.of_sameSeats (Registry.sameSeats_write r gid props)
    (Registry.sameSeats_write r' gid props) fun {t t' w₁ w₁'} hlink hw₁ hw₁' => ?_
  by_cases hp : ∃ p, r.plan gid props = .ok p <;> by_cases hp' : ∃ p, r'.plan gid props = .ok p
  · obtain ⟨⟨frozen, staged⟩, hplan⟩ := hp
    obtain ⟨⟨frozen', staged'⟩, hplan'⟩ := hp'
    obtain ⟨w, hw, hcommitted⟩ := Registry.committed_write hplan hw₁
    obtain ⟨w', hw', hcommitted'⟩ := Registry.committed_write hplan' hw₁'
    -- The frozen flag is read off the properties, which are the same.
    have hfrozen : frozen = frozen' := Except.ok.inj
      ((Registry.plan_eq_ok_iff.1 hplan).2.2.1.symm.trans (Registry.plan_eq_ok_iff.1 hplan').2.2.1)
    subst hfrozen
    exact committed (h.workers hlink hw hw') hcommitted hcommitted'
  · obtain ⟨⟨frozen, staged⟩, hplan⟩ := hp
    obtain ⟨w, hw, hcommitted⟩ := Registry.committed_write hplan hw₁
    rw [Registry.write_of_refused fun p hplan' => hp' ⟨p, hplan'⟩] at hw₁'
    obtain ⟨-, hstore⟩ | ⟨n, -, hn, -⟩ := hcommitted.store
    · exact (h.workers hlink hw hw₁').of_same ⟨by rw [hstore], hcommitted.generator⟩ (.refl _)
    · obtain ⟨hleft, hright⟩ := hshared hlink hw hn
      exact absurd ((h.exists_plan_iff gid props hleft hright).1 ⟨_, hplan⟩) hp'
  · obtain ⟨⟨frozen', staged'⟩, hplan'⟩ := hp'
    obtain ⟨w', hw', hcommitted'⟩ := Registry.committed_write hplan' hw₁'
    rw [Registry.write_of_refused fun p hplan => hp ⟨p, hplan⟩] at hw₁
    have hworkers := h.workers hlink hw₁ hw'
    obtain ⟨-, hstore⟩ | ⟨m, -, hm, -⟩ := hcommitted'.store
    · exact hworkers.of_same (.refl _) ⟨by rw [hstore], hcommitted'.generator⟩
    · have hfind := find?_rel hworkers.nodes gid
      rcases hn : w₁.store.find? gid with _ | n <;> rw [hn, hm] at hfind
      · cases hfind
      · obtain ⟨hleft, hright⟩ := hshared hlink hw₁ hn
        exact absurd ((h.exists_plan_iff gid props hleft hright).2 ⟨_, hplan'⟩) hp
  · rw [Registry.write_of_refused fun p hplan => hp ⟨p, hplan⟩] at hw₁
    rw [Registry.write_of_refused fun p hplan' => hp' ⟨p, hplan'⟩] at hw₁'
    exact h.workers hlink hw₁ hw₁'

/-! ### Instances that are changed in place -/

/-- Where threads correspond one by one, an element is found on a thread of both or of neither. -/
theorem localNode_rel (h : S.Registries Eq r r') (hlength : r.workers.length = r'.workers.length)
    (gid thread : Nat) :
    (∃ n m, r.localNode gid thread = .ok n ∧ r'.localNode gid thread = .ok m ∧ S.Nodes n m) ∨
      (∀ n, r.localNode gid thread ≠ .ok n) ∧ ∀ m, r'.localNode gid thread ≠ .ok m := by
  simp only [ne_eq, Registry.localNode_eq_ok_iff, h.modelOf_eq]
  rcases hw : r.workers[thread]? with _ | w
  · have hnone : r'.workers[thread]? = none := by
      rw [List.getElem?_eq_none_iff] at hw ⊢
      omega
    exact .inr (by simp [hnone])
  · obtain ⟨w', hw'⟩ : ∃ w', r'.workers[thread]? = some w' := by
      have hlt := (List.getElem?_eq_some_iff.1 hw).1
      exact ⟨_, List.getElem?_eq_getElem (by omega)⟩
    have hfind := find?_rel (h.workers rfl hw hw').nodes gid
    by_cases hid : ∃ id, r'.modelOf gid = .ok id
    · rcases hn : w.store.find? gid with _ | n <;> rcases hm : w'.store.find? gid with _ | m <;>
        rw [hn, hm] at hfind
      · exact .inr (by simp [hw', hn, hm])
      · cases hfind
      · cases hfind
      · cases hfind with
        | some hnm => exact .inl ⟨n, m, ⟨hid, w, rfl, hn⟩, ⟨hid, w', hw', hm⟩, hnm⟩
    · exact .inr (by simp [hid])

theorem modifyLocal {α : Type} (h : S.Registries Eq r r')
    (hlength : r.workers.length = r'.workers.length) {f : Node E → α × Node E}
    {g : Node F → α × Node F} (hf : ∀ n, (f n).2.seat = n.seat) (hg : ∀ m, (g m).2.seat = m.seat)
    (hfg : ∀ n m, S.Nodes n m → S.Nodes (f n).2 (g m).2) (gid thread : Nat) :
    S.Registries Eq (r.modifyLocal gid thread f).registry (r'.modifyLocal gid thread g).registry := by
  rcases h.localNode_rel hlength gid thread with ⟨n, m, hn, hm, hnm⟩ | ⟨hn, hm⟩
  · refine h.of_threads (Registry.sameSeats_modifyLocal r gid thread hf)
      (Registry.sameSeats_modifyLocal r' gid thread hg) (Registry.getElem?_modifyLocal hn)
      (Registry.getElem?_modifyLocal hm) fun t t' w w' hlink hw => ?_
    subst hlink
    split
    · exact ⟨nodes_modify_rel hw.nodes (fun _ _ _ => hfg n m hnm) gid, hw.generator⟩
    · exact hw
  · rw [Registry.modifyLocal_of_refused hn, Registry.modifyLocal_of_refused hm]
    exact h

/-! ### Commands that treat all threads the same -/

/-- Commands that look at no other thread, and at all threads the same, keep the relation. -/
theorem apply (h : S.Registries link r r') (lift : (F → F) → E → E) {c : Command F} (hc : c.Uniform) :
    S.Registries link (r.apply (c.relabel lift)) (r'.apply c) := by
  cases c with
  | create name count => exact h.create name count
  | createById id count => exact h.createById id count
  | write gid props => exact hc.elim
  | edit gid thread change => exact hc.elim
  | activate gid thread => exact hc.elim
  | prepare =>
    -- The number of active instances, which a preparation notes, is not part of the relation.
    have hsweep := h.sweep .prepare
    exact ⟨hsweep.linked, hsweep.models, hsweep.batches, hsweep.nextGid, hsweep.workers⟩
  | reinit => exact h.sweep .initState
  | finalize => exact h.sweep .finalize
  | postRunCleanup => exact h.sweep .postRunCleanup
  | initState gid => exact h.initState gid
  | ensureLocalIds =>
    exact h.of_sameThreads (Registry.sameThreads_ensureLocalIds r)
      (Registry.sameThreads_ensureLocalIds r')
  | relaxingNodes thread =>
    exact h.of_sameThreads (Registry.sameThreads_relaxingNodes r thread)
      (Registry.sameThreads_relaxingNodes r' thread)
  | checkRelaxation =>
    exact h.of_sameThreads (Registry.sameThreads_checkRelaxation r)
      (Registry.sameThreads_checkRelaxation r')
  | checkRelaxationGlobal reply =>
    exact h.of_sameThreads (Registry.sameThreads_checkRelaxationGlobal r reply)
      (Registry.sameThreads_checkRelaxationGlobal r' reply)
  | reset => exact h.reset

end Registries

end Simulation

end ElementGrid
