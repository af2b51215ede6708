import ElementGrid.Proofs.Registry.Simulation
/-!
# Regrouping a grid

The same number of virtual processes may be spread over few processes with many threads or over many
processes with few. As long as no hook asks where it runs, and every process is given the same commands,
the virtual process of a number comes to the same instances and the same place in its random stream in
either grid: placement, streams and the order of a sweep go by that number alone.

A write is all or nothing on a process, and a process has the more instances of a replicated element the
more threads it has. So properties are written to elements that are not replicated only.

## Main definitions

* `Node.unplaced` — an instance without its virtual process
* `Registry.Orderly` — commands that may be given to every process alike
* `Registry.SameIndex` — threads of two grids that are the same virtual process

## Main results

* `Registry.regrouped` — grids with equally many virtual processes come to the same on each of them
-/

namespace ElementGrid

variable {E : Type} [Element E]

omit [Element E] in
/-- The instance without the virtual process that it is on. -/
def Node.unplaced (n : Node E) : Node E := { n with vp := .origin }

variable (E) in
/-- No element looks at its virtual process when it is prepared. -/
def Element.Placeless : Prop := ∀ (gid : Nat) (v v' : Vp),
  (Element.prepare ⟨gid, v⟩ : Step (E × Generator) Fault Unit) = Element.prepare ⟨gid, v'⟩

/-- Where no element looks at its virtual process, instances may differ in theirs. -/
def Simulation.ofPlaceless (h : Element.Placeless E) : Simulation E E where
  rel := Eq
  vps _ _ := True
  mutability := by
    rintro e _ rfl
    rfl
  write := Step.alike_self (fun _ _ => Step.beside_eq_iff) _
  init := Step.alike_self (fun _ _ => Iff.rfl) _
  initState := Step.alike_self (fun _ _ => Iff.rfl) _
  prepare := by
    intro v v' _ gid
    rw [h gid v v']
    exact Step.alike_self (fun _ _ => Step.beside_eq_iff) _
  finalize := Step.alike_self (fun _ _ => Iff.rfl) _
  postRunCleanup := Step.alike_self (fun _ _ => Iff.rfl) _

theorem Simulation.unplaced_eq {h : Element.Placeless E} {ns ms : List (Node E)}
    (hns : List.Forall₂ (ofPlaceless h).Nodes ns ms) : ns.map Node.unplaced = ms.map Node.unplaced := by
  induction hns with
  | nil => rfl
  | @cons n m _ _ hnm _ ih =>
    obtain ⟨gid, model, category, _, localId, state, frozen, element⟩ := n
    obtain ⟨gid', model', category', _, localId', state', frozen', element'⟩ := m
    obtain ⟨rfl, rfl, rfl, -, rfl, rfl, rfl, rfl⟩ := hnm
    rw [List.map_cons, List.map_cons, ih]
    rfl

namespace Registry

/-- A command that may be given to every process alike: it names no thread, and it does not write the
properties of a replicated element. -/
def Common (r : Registry E) : Command E → Prop
  | .write gid _ => r.categoryOf gid ≠ .ok .device
  | .edit .. | .activate .. => False
  | _ => True

/-- Commands that may be given to every process alike, one after the other. -/
def Orderly (r : Registry E) : List (Command E) → Prop
  | [] => True
  | c :: cs => r.Common c ∧ (r.apply c).Orderly cs

/-- Threads of two processes, each of its own grid, that have the same linear number. -/
structure SameIndex (c c' : GridConfig) (t t' : Nat) : Prop where
  lt : t < c.threads
  lt' : t' < c'.threads
  index : t * c.processes + c.rank = t' * c'.processes + c'.rank

variable {config config' : GridConfig} {catalog : Catalog E} {r r' : Registry E}

theorem linked (h : Element.Placeless E) (hvalid : config.Valid) (hvalid' : config'.Valid)
    (hsize : config.processes * config.threads = config'.processes * config'.threads)
    (hseed : config.seed = config'.seed) :
    (Simulation.ofPlaceless h).Linked config config' (SameIndex config config') where
  seed := hseed
  index := fun hlink => congrArg Word.wrap hlink.index
  hosts := by
    intro t t' hlink gid category
    have hturn : config.shape.vpForOrdinal gid = config'.shape.vpForOrdinal gid := by
      simp only [GridShape.vpForOrdinal, GridShape.numVps, GridConfig.shape, hsize]
    rw [GridShape.hosts_eq hvalid.2.2, GridShape.hosts_eq hvalid'.2.2]
    cases category with
    | normal =>
      refine decide_eq_decide.2 ?_
      rw [hturn]
      exact ⟨fun h => h.trans hlink.index, fun h => h.trans hlink.index.symm⟩
    | device => rfl
    | external =>
      exact decide_eq_decide.2
        ⟨fun h => h.trans hlink.index, fun h => h.trans hlink.index.symm⟩
  vp := fun _ => trivial

omit [Element E] in
/-- On one process, only one thread holds an element that is not replicated. -/
theorem Sound.thread_eq (hr : Sound config catalog r) (hvalid : config.Valid) {gid s t : Nat}
    {v w : Worker E} {k n : Node E} (hcategory : r.categoryOf gid ≠ .ok .device)
    (hv : r.workers[s]? = some v) (hk : v.store.find? gid = some k) (hw : r.workers[t]? = some w)
    (hn : w.store.find? gid = some n) : s = t := by
  obtain ⟨category, hgid, hhosts⟩ := hr.hosts_of_find? hv hk
  obtain ⟨category', hgid', hhosts'⟩ := hr.hosts_of_find? hw hn
  obtain rfl : category = category' := Except.ok.inj (hgid.symm.trans hgid')
  have hunique : category ≠ .device := fun h => hcategory (h ▸ hgid)
  have hindex := GridShape.index_eq_of_hosts hvalid.2.2 hvalid.2.2 hunique hhosts hhosts'
  exact Nat.eq_of_mul_eq_mul_right hvalid.1 (Nat.add_right_cancel hindex)

/-! ## Both grids go through the same -/

/-- The registries of two processes, each of its own grid, that have gone through the same commands. -/
structure Regrouped (h : Element.Placeless E) (config config' : GridConfig) (catalog : Catalog E)
    (r r' : Registry E) : Prop where
  sound : Sound config catalog r
  sound' : Sound config' catalog r'
  alike : (Simulation.ofPlaceless h).Registries (SameIndex config config') r r'

namespace Regrouped

theorem start (h : Element.Placeless E) (catalog : Catalog E) (hvalid : config.Valid)
    (hvalid' : config'.Valid)
    (hsize : config.processes * config.threads = config'.processes * config'.threads)
    (hseed : config.seed = config'.seed) (dispatch dispatch' : Dispatch) :
    Regrouped h config config' catalog
      { config, catalog, dispatch, workers := freshWorkers config }
      { config := config', catalog, dispatch := dispatch', workers := freshWorkers config' } where
  sound := sound_fresh config catalog dispatch
  sound' := sound_fresh config' catalog dispatch'
  alike := .fresh dispatch dispatch' (linked h hvalid hvalid' hsize hseed)
    (List.forall₂_same.2 fun _ _ => ⟨rfl, rfl, rfl, rfl⟩)

variable {h : Element.Placeless E}

/-- An element that is not replicated lives on one virtual process of either grid, so a write that is
carried out for one is carried out for the other. -/
theorem write (hrr' : Regrouped h config config' catalog r r') (hvalid : config.Valid)
    (hvalid' : config'.Valid) {gid : Nat} (hcategory : r.categoryOf gid ≠ .ok .device)
    (props : PropertyMap) :
    (Simulation.ofPlaceless h).Registries (SameIndex config config')
      (r.write gid props).registry (r'.write gid props).registry := by
  refine hrr'.alike.write props fun {t t' w n} hlink hw hn => ?_
  obtain ⟨w', hw'⟩ : ∃ w', r'.workers[t']? = some w' :=
    ⟨_, List.getElem?_eq_getElem (hrr'.sound'.length_workers.symm ▸ hlink.lt')⟩
  have hcategory' : r'.categoryOf gid ≠ .ok .device := hrr'.alike.categoryOf_eq gid ▸ hcategory
  refine ⟨fun s v k hv hk => ?_, fun s' v' k' hv' hk' => ?_⟩
  · obtain rfl := hrr'.sound.thread_eq hvalid hcategory hv hk hw hn
    exact ⟨t', w', hlink, hw'⟩
  · have hfind := Simulation.find?_rel (hrr'.alike.workers hlink hw hw').nodes gid
    rw [hn] at hfind
    cases hn' : w'.store.find? gid with
    | none =>
      rw [hn'] at hfind
      cases hfind
    | some n' =>
      obtain rfl := hrr'.sound'.thread_eq hvalid' hcategory' hv' hk' hw' hn'
      exact ⟨t, w, hlink, hw⟩

theorem apply (hrr' : Regrouped h config config' catalog r r') (hcatalog : catalog.Numbered)
    (hvalid : config.Valid) (hvalid' : config'.Valid) {c : Command E} (hc : r.Common c) :
    Regrouped h config config' catalog (r.apply c) (r'.apply c) where
  sound := hrr'.sound.apply hcatalog c
  sound' := hrr'.sound'.apply hcatalog c
  alike := by
    have huniform : c.Uniform → (Simulation.ofPlaceless h).Registries (SameIndex config config')
        (r.apply c) (r'.apply c) := by
      intro huniform
      have happly := hrr'.alike.apply id huniform
      rwa [c.relabel_id] at happly
    cases c with
    | write gid props => exact hrr'.write hvalid hvalid' hc props
    | edit gid thread change => exact hc.elim
    | activate gid thread => exact hc.elim
    | _ => exact huniform trivial

theorem run (hrr' : Regrouped h config config' catalog r r') (hcatalog : catalog.Numbered)
    (hvalid : config.Valid) (hvalid' : config'.Valid) {commands : List (Command E)}
    (hcommands : r.Orderly commands) :
    Regrouped h config config' catalog (r.run commands) (r'.run commands) := by
  induction commands generalizing r r' with
  | nil => exact hrr'
  | cons c cs ih => exact ih (hrr'.apply hcatalog hvalid hvalid' hcommands.1) hcommands.2

end Regrouped

/-- Two grids with equally many virtual processes, one seed and one catalog, whose processes are all given
the same commands: if no element looks at its virtual process, then on each virtual process both grids
come to the same instances in the same order, apart from where they are, and to the same place in the
same random stream. -/
theorem regrouped (config config' : GridConfig) (dispatch dispatch' : Dispatch)
    (hhooks : Element.Placeless E) (hcatalog : catalog.Formed)
    (hprocesses : 0 < config.processes) (hthreads : 0 < config.threads)
    (hprocesses' : 0 < config'.processes) (hthreads' : 0 < config'.threads)
    (hsize : config.processes * config.threads = config'.processes * config'.threads)
    (hseed : config.seed = config'.seed) (v : Nat) (hv : v < config.processes * config.threads) :
    ∃ fresh fresh' : Registry E,
      start (config.forRank (config.shape.rankOf v)) catalog dispatch = .ok fresh ∧
      start (config'.forRank (config'.shape.rankOf v)) catalog dispatch' = .ok fresh' ∧
      ∀ commands, fresh.Orderly commands → ∃ w w',
        (fresh.run commands).workers[config.shape.threadOf v]? = some w ∧
        (fresh'.run commands).workers[config'.shape.threadOf v]? = some w' ∧
        w.store.nodes.map Node.unplaced = w'.store.nodes.map Node.unplaced ∧
        w.generator = w'.generator := by
  have hvalid : (config.forRank (config.shape.rankOf v)).Valid :=
    ⟨hprocesses, hthreads, Nat.mod_lt v hprocesses⟩
  have hvalid' : (config'.forRank (config'.shape.rankOf v)).Valid :=
    ⟨hprocesses', hthreads', Nat.mod_lt v hprocesses'⟩
  have hlink : SameIndex (config.forRank (config.shape.rankOf v))
      (config'.forRank (config'.shape.rankOf v)) (config.shape.threadOf v)
      (config'.shape.threadOf v) := by
    refine ⟨GridShape.threadOf_lt hv, GridShape.threadOf_lt (hsize ▸ hv), ?_⟩
    exact (config.shape.threadOf_mul_add_rankOf v).trans
      (config'.shape.threadOf_mul_add_rankOf v).symm
  have hstart : ∀ {c : GridConfig} (d : Dispatch), c.Valid →
      start c catalog d = .ok { config := c, catalog, dispatch := d, workers := freshWorkers c } := by
    intro c d hc
    rw [start, c.check_eq_ok_iff.2 hc]
    rfl
  refine ⟨_, _, hstart dispatch hvalid, hstart dispatch' hvalid', fun commands hcommands => ?_⟩
  have hrun := (Regrouped.start hhooks catalog hvalid hvalid' hsize hseed dispatch dispatch').run
    hcatalog.numbered hvalid hvalid' hcommands
  have hw := List.getElem?_eq_getElem (hrun.sound.length_workers.symm ▸ hlink.lt)
  have hw' := List.getElem?_eq_getElem (hrun.sound'.length_workers.symm ▸ hlink.lt')
  have halike := hrun.alike.workers hlink hw hw'
  exact ⟨_, _, hw, hw', Simulation.unplaced_eq halike.nodes, halike.generator⟩

/-- Elements of all categories on the fifth virtual process of two grids of six. They are prepared, so each
counter has drawn from its stream, and the properties of one are written. -/
theorem regrouped_six :
    Element.Placeless StandardElement ∧ StandardElement.catalog.Formed ∧
    ∃ fresh fresh' : Registry StandardElement,
      start { processes := 2, threads := 3, rank := 0 } StandardElement.catalog = .ok fresh ∧
      start { processes := 3, threads := 2, rank := 1 } StandardElement.catalog = .ok fresh' ∧
      let commands : List (Command StandardElement) :=
        [.create "counter" 7, .create "recorder" 2, .create "stimulus" 1, .prepare,
          .write 4 (.ofList [("count", .int 9)])]
      ∃ w w', (fresh.run commands).workers[2]? = some w ∧
        (fresh'.run commands).workers[1]? = some w' ∧
        w.store.nodes.map Node.unplaced = w'.store.nodes.map Node.unplaced ∧
        w.generator = w'.generator := by
  have hhooks : Element.Placeless StandardElement := fun _ _ _ => rfl
  have hcatalog : StandardElement.catalog.Formed := Catalog.formed_ofEntries (by decide)
  obtain ⟨fresh, fresh', hstart, hstart', hrun⟩ :=
    regrouped { processes := 2, threads := 3 } { processes := 3, threads := 2 } .inTurn .inTurn hhooks
      hcatalog (by decide) (by decide) (by decide) (by decide) (by decide) rfl 4 (by decide)
  refine ⟨hhooks, hcatalog, fresh, fresh', hstart, hstart', hrun _ ?_⟩
  cases hstart
  have hnormal : ∀ r : Registry StandardElement, r.categoryOf 4 = .ok .normal →
      r.categoryOf 4 ≠ .ok .device := fun _ h h' => by
    rw [h] at h'
    cases h'
  exact ⟨trivial, trivial, trivial, trivial, hnormal _ rfl, trivial⟩

end Registry

end ElementGrid
