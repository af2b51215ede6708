import ElementGrid.Proofs.Element.Settled
import ElementGrid.Proofs.Registry.Instances
import ElementGrid.Proofs.Sweep
/-!
# The lists of relaxing instances

A thread makes its list of relaxing instances for a number of elements, and takes it to be up to date as long
as that is how many there are. It is right to do so: what changes the list without changing the number
of elements, which is to write a frozen flag, makes the thread forget the number.

## Main definitions

* `Registry.SameUses`, `Registry.Steady` — no instance changes its mind about whether it takes part
* `Worker.Current` — the list of a thread is the one to be made, or known to be out of date

## Main results

* `Registry.steady_of_settled` — settled elements make steady histories
* `Registry.Current.apply` — a command keeps the lists from being stale
* `Registry.relaxing_exact` — the list that is answered is the one to be made
-/

namespace ElementGrid

variable {E : Type} [Element E]

/-! ## Steady histories -/

/-- The instances that take part in waveform relaxation are those that did. -/
def Registry.SameUses (r r' : Registry E) : Prop :=
  ∀ t i n n', r.node? t i = some n → r'.node? t i = some n' →
    Element.usesRelaxation n'.element = Element.usesRelaxation n.element

/-- In none of the commands an instance changes its mind about whether it takes part. -/
def Registry.Steady (r : Registry E) : List (Command E) → Prop
  | [] => True
  | c :: commands => r.SameUses (r.apply c) ∧ (r.apply c).Steady commands

/-- Whoever changes an element by this command does not change whether it takes part. -/
def Command.Settled : Command E → Prop
  | .edit _ _ change => ∀ e, Element.usesRelaxation (change e) = Element.usesRelaxation e
  | _ => True

theorem Node.After.usesRelaxation_eq (hE : Element.Settled E) {c : Command E} (hc : c.Settled)
    {n n' : Node E} (h : n.After n' c) :
    Element.usesRelaxation n'.element = Element.usesRelaxation n.element := by
  refine h.map_eq (f := fun n => Element.usesRelaxation n.element) ?visit ?activate ?edit ?write
  case visit =>
    rintro phase ⟨g, rfl⟩
    exact hE.hooks.keeps_ofPhase phase (n, g)
  case activate =>
    rw [activate]
    split <;> rfl
  case edit =>
    rintro gid thread change rfl
    exact hc n.element
  case write =>
    rintro gid props rfl frozen e he
    obtain ⟨-, reader, hrun, -⟩ := Registry.stage_eq_ok he
    have hkeeps := hE.write (n.element, (PropertyReader.ofMap props).markConsumed StatusKey.frozen)
    rwa [hrun] at hkeeps

/-- Only a write freezes an instance or thaws it. -/
theorem Node.After.frozen_eq {c : Command E} (hwrite : ∀ gid props, c ≠ .write gid props) {n n' : Node E}
    (h : n.After n' c) : n'.frozen = n.frozen := by
  refine h.map_eq (f := Node.frozen) ?visit ?activate (fun _ _ _ _ => rfl) fun gid props hc =>
    absurd hc (hwrite gid props)
  case visit =>
    rintro phase ⟨g, rfl⟩
    obtain ⟨n', hrun, -, -, hfrozen⟩ := Visit.comesTo_ofPhase phase n g
    rw [hrun]
    exact hfrozen
  case activate =>
    rw [activate]
    split <;> rfl

/-- Settled elements make steady histories, if nobody else changes their minds. -/
theorem Registry.steady_of_settled (hE : Element.Settled E) (r : Registry E) {commands : List (Command E)}
    (h : ∀ c ∈ commands, c.Settled) : r.Steady commands := by
  induction commands generalizing r with
  | nil => trivial
  | cons c commands ih =>
    refine ⟨fun t i n n' hn hn' => ?_, ih _ fun c' hc' => h c' (List.mem_cons_of_mem c hc')⟩
    exact (after_apply hn hn').usesRelaxation_eq hE (h c List.mem_cons_self)

/-! ## Lists -/

/-- What of an instance matters for the list of its thread. -/
def Node.marks (n : Node E) : Nat × Bool × Bool :=
  (n.localId, Element.usesRelaxation n.element, n.frozen)

namespace Worker

variable {w w' : Worker E} {size size' : Nat}

theorem relaxingNow_eq (w : Worker E) : w.relaxingNow =
    ((w.store.nodes.map Node.marks).filter fun m => m.2.1 && !m.2.2).map Prod.fst := by
  rw [List.filter_map, List.map_map]
  rfl

theorem usesRelaxation_eq (w : Worker E) : w.usesRelaxation =
    (w.store.nodes.map fun n => Element.usesRelaxation n.element).any id := by
  rw [List.any_map]
  rfl

theorem mem_relaxingNow {localId : Nat} : localId ∈ w.relaxingNow ↔ ∃ n ∈ w.store.nodes,
    n.localId = localId ∧ Element.usesRelaxation n.element = true ∧ n.frozen = false := by
  simp only [relaxingNow, List.mem_map, List.mem_filter, Bool.and_eq_true, Bool.not_eq_true']
  constructor
  · rintro ⟨n, ⟨hn, huses, hfrozen⟩, hplace⟩
    exact ⟨n, hn, hplace, huses, hfrozen⟩
  · rintro ⟨n, hn, hplace, huses, hfrozen⟩
    exact ⟨n, ⟨hn, huses, hfrozen⟩, hplace⟩

theorem usesRelaxation_of_relaxingNow (h : w.relaxingNow ≠ []) : w.usesRelaxation = true := by
  obtain ⟨i, hi⟩ := List.exists_mem_of_ne_nil _ h
  obtain ⟨n, hn, -, huses, -⟩ := mem_relaxingNow.1 hi
  exact List.any_eq_true.2 ⟨n, hn, huses⟩

/-- The list of a thread is the one to be made if it was made for the number of elements that there are, and
otherwise it is known to be out of date. It was made of instances that take part. -/
structure Current (size : Nat) (w : Worker E) : Prop where
  size_le : w.relaxingSize ≤ size
  relaxing_eq : w.relaxingSize = size → w.relaxing = w.relaxingNow
  uses_of_relaxing : w.relaxing ≠ [] → w.usesRelaxation = true

/-- What does not touch the list, nor what matters for it. -/
theorem Current.of_marks (h : w.Current size) (hrelaxing : w'.relaxing = w.relaxing)
    (hsize : w'.relaxingSize = w.relaxingSize)
    (hmarks : w'.store.nodes.map Node.marks = w.store.nodes.map Node.marks) : w'.Current size := by
  have huses : w'.usesRelaxation = w.usesRelaxation := by
    have hfirst := congrArg (List.map fun m => m.2.1) hmarks
    rw [List.map_map, List.map_map] at hfirst
    rw [usesRelaxation_eq, usesRelaxation_eq]
    exact congrArg (List.any · id) hfirst
  refine ⟨hsize ▸ h.size_le, fun hsame => ?_, fun hne => ?_⟩
  · rw [hrelaxing, h.relaxing_eq (hsize.symm.trans hsame), relaxingNow_eq, relaxingNow_eq, hmarks]
  · rw [huses]
    exact h.uses_of_relaxing (hrelaxing ▸ hne)

/-- What makes the list known to be out of date. -/
theorem Current.outdated (h : w.Current size) (hrelaxing : w'.relaxing = w.relaxing)
    (hsize : w'.relaxingSize < size') (huses : w.usesRelaxation = true → w'.usesRelaxation = true) :
    w'.Current size' :=
  ⟨Nat.le_of_lt hsize, fun hsame => absurd hsame (Nat.ne_of_lt hsize),
    fun hne => huses (h.uses_of_relaxing (hrelaxing ▸ hne))⟩

theorem Current.relaxing_repartition (h : w.Current size) :
    (w.repartition size).2.relaxing = w.relaxingNow := by
  simp only [repartition]
  split
  · rename_i hsame
    exact h.relaxing_eq hsame
  · rfl

theorem Current.repartition (h : w.Current size) : (w.repartition size).2.Current size := by
  simp only [Worker.repartition]
  split
  · exact h
  · exact ⟨Nat.le_refl size, fun _ => rfl, usesRelaxation_of_relaxingNow⟩

end Worker

namespace Registry

variable {r r' : Registry E}

/-- No list is stale. -/
def Current (r : Registry E) : Prop :=
  ∀ (t : Nat) (w : Worker E), r.workers[t]? = some w → w.Current r.size

omit [Element E] in
/-- The instances of a thread show the same before and after, one by one, where nothing moves. -/
theorem SameSeats.map_eq {β : Type} {f : Node E → β} (hseats : r.SameSeats r')
    (hf : ∀ t i n n', r.node? t i = some n → r'.node? t i = some n' → n'.seat = n.seat → f n' = f n)
    {t : Nat} {w w' : Worker E} (hw : r.workers[t]? = some w) (hw' : r'.workers[t]? = some w') :
    w'.store.nodes.map f = w.store.nodes.map f := by
  have hsame : w'.store.seats = w.store.seats := by
    have hthread : r'.seats[t]? = r.seats[t]? := by rw [hseats.seats]
    rw [Registry.seats, Registry.seats, List.getElem?_map, List.getElem?_map, hw, hw'] at hthread
    exact Option.some.inj hthread
  apply List.ext_getElem?
  intro i
  have hseat : w'.store.seats[i]? = w.store.seats[i]? := by rw [hsame]
  rw [Store.seats, Store.seats, List.getElem?_map, List.getElem?_map] at hseat
  rw [List.getElem?_map, List.getElem?_map]
  cases hn : w.store.nodes[i]? with
  | none =>
    rw [hn] at hseat
    rw [Option.map_eq_none_iff.1 hseat]
  | some n =>
    rw [hn] at hseat
    obtain ⟨n', hn', hseat⟩ := Option.map_eq_some_iff.1 hseat
    rw [hn']
    exact congrArg some (hf t i n n' (node?_eq_some_iff.2 ⟨w, hw, hn⟩)
      (node?_eq_some_iff.2 ⟨w', hw', hn'⟩) hseat)

/-- The threads have the lists that they had. -/
def SameLists (r r' : Registry E) : Prop :=
  ∀ (t : Nat) (w' : Worker E), r'.workers[t]? = some w' → ∃ w, r.workers[t]? = some w ∧
    w'.relaxing = w.relaxing ∧ w'.relaxingSize = w.relaxingSize

theorem Current.of_sameLists (h : r.Current) (hseats : r.SameSeats r') (hlists : r.SameLists r')
    (huses : r.SameUses r')
    (hfrozen : ∀ t i n n', r.node? t i = some n → r'.node? t i = some n' → n'.frozen = n.frozen) :
    r'.Current := by
  intro t w' hw'
  obtain ⟨w, hw, hrelaxing, hsize⟩ := hlists t w' hw'
  have hmarks : w'.store.nodes.map Node.marks = w.store.nodes.map Node.marks := by
    refine hseats.map_eq (fun t i n n' hn hn' hseat => ?_) hw hw'
    have hplace : n'.localId = n.localId := congrArg Seat.localId hseat
    rw [Node.marks, hplace, huses t i n n' hn hn', hfrozen t i n n' hn hn']
    rfl
  rw [size, hseats.nextGid]
  exact (h t w hw).of_marks hrelaxing hsize hmarks

/-! ## Commands -/

omit [Element E] in
theorem sameLists_modifyLocal {α : Type} (r : Registry E) (gid thread : Nat) (f : Node E → α × Node E) :
    r.SameLists (r.modifyLocal gid thread f).registry := by
  intro t w' hw'
  by_cases hlocal : ∃ n, r.localNode gid thread = .ok n
  · obtain ⟨n, hn⟩ := hlocal
    rw [getElem?_modifyLocal hn] at hw'
    obtain ⟨w, hw, rfl⟩ := Option.map_eq_some_iff.1 hw'
    refine ⟨w, hw, ?_⟩
    split <;> exact ⟨rfl, rfl⟩
  · rw [modifyLocal_of_refused fun n hn => hlocal ⟨n, hn⟩] at hw'
    exact ⟨w', hw', rfl, rfl⟩

theorem sameLists_sweep (r : Registry E) (phase : Phase) : r.SameLists (r.sweep phase).2 := by
  intro t w' hw'
  rw [getElem?_sweep] at hw'
  obtain ⟨w, hw, rfl⟩ := Option.map_eq_some_iff.1 hw'
  exact ⟨w, hw, rfl, rfl⟩

theorem sameLists_initState (r : Registry E) (gid : Nat) : r.SameLists (r.initState gid).registry := by
  intro t w' hw'
  rcases hid : r.modelOf gid with e | id
  · rw [initState, hid] at hw'
    exact ⟨w', hw', rfl, rfl⟩
  · rw [getElem?_initState hid] at hw'
    obtain ⟨w, hw, rfl⟩ := Option.map_eq_some_iff.1 hw'
    refine ⟨w, hw, ?_⟩
    rw [Worker.visitOne]
    split <;> exact ⟨rfl, rfl⟩

theorem sameLists_checkRelaxation (r : Registry E) : r.SameLists r.checkRelaxation.2 :=
  fun _ w hw => ⟨w, hw, rfl, rfl⟩

theorem sameLists_checkRelaxationGlobal (r : Registry E) (reply : Except ExchangeError Gathered) :
    r.SameLists (r.checkRelaxationGlobal.against reply).1.registry := by
  cases reply <;> exact fun _ w hw => ⟨w, hw, rfl, rfl⟩

theorem Current.fresh (config : GridConfig) (catalog : Catalog E) (dispatch : Dispatch) :
    Current { config, catalog, dispatch, workers := freshWorkers config } := by
  intro t w hw
  obtain ⟨_, -, rfl⟩ := List.mem_map.1 (List.mem_of_getElem? hw)
  exact ⟨Nat.zero_le _, fun _ => rfl, fun hne => absurd rfl hne⟩

/-- A creation puts up the number of elements, for which no list was made yet. -/
theorem Current.createById (h : r.Current) (hfirst : Gid.first ≤ r.nextGid) (id count : Nat) :
    (r.createById id count).registry.Current := by
  rw [Registry.createById]
  split
  · exact h
  · rename_i m _
    split
    · exact h
    · rename_i hcount
      have hpos : count ≠ 0 := fun hzero => hcount (.inl hzero)
      intro t w' hw'
      obtain ⟨w, hw, rfl⟩ := Option.map_eq_some_iff.1 (List.getElem?_mapIdx.symm.trans hw')
      -- The new instances may take part, and the old ones that do are still there.
      refine (h t w hw).outdated rfl ?_ fun huses => ?_
      · have hle := (h t w hw).size_le
        simp only [Gid.first] at hfirst
        simp only [Registry.size, withBatch, populate, Run.ofCount] at hle ⊢
        omega
      · obtain ⟨n, hn, hn'⟩ := List.any_eq_true.1 huses
        refine List.any_eq_true.2 ⟨n, ?_, hn'⟩
        rw [populate, Store.nodes_appendAll]
        exact List.mem_append_left _ hn

theorem Current.create (h : r.Current) (hfirst : Gid.first ≤ r.nextGid) (name : String) (count : Nat) :
    (r.create name count).registry.Current := by
  rw [Registry.create]
  split
  · exact h
  · exact h.createById hfirst _ count

omit [Element E] in
theorem relaxingSize_commit {gid : Nat} {frozen : Bool} {staged : List (Option E)} {t : Nat} {w' : Worker E}
    (hw' : (r.commit gid (some frozen) staged).workers[t]? = some w') : w'.relaxingSize = 0 := by
  obtain ⟨_, -, rfl⟩ := List.mem_map.1 (List.mem_of_getElem? hw')
  rfl

theorem frozen_of_write {gid : Nat} {props : PropertyMap} {staged : List (Option E)}
    (hplan : r.plan gid props = .ok (none, staged)) {t i : Nat} {n n' : Node E}
    (hn : r.node? t i = some n) (hn' : (r.write gid props).registry.node? t i = some n') :
    n'.frozen = n.frozen := by
  obtain ⟨w', hw', hi'⟩ := node?_eq_some_iff.1 hn'
  obtain ⟨w, hw, hcommitted⟩ := committed_write hplan hw'
  have hsame : ∀ m, w.store.nodes[i]? = some m → m = n := fun m hm =>
    Option.some.inj ((node?_eq_some_iff.2 ⟨w, hw, hm⟩).symm.trans hn)
  obtain ⟨-, hstore⟩ | ⟨_, e, -, -, hstore⟩ := hcommitted.store
  · rw [hstore] at hi'
    rw [hsame n' hi']
  · rw [hstore] at hi'
    obtain ⟨m, hm, rfl | ⟨-, rfl⟩⟩ := Store.of_getElem?_modify hi'
    · rw [hsame n' hm]
    · rw [hsame m hm]
      rfl

/-- A write without a frozen flag leaves the lists as they are, and one with it makes them known to be out of
date on all threads. -/
theorem Current.write (h : r.Current) (gid : Nat) (props : PropertyMap)
    (huses : r.SameUses (r.write gid props).registry) : (r.write gid props).registry.Current := by
  by_cases hplan : ∃ p, r.plan gid props = .ok p
  · obtain ⟨⟨frozen, staged⟩, hplan⟩ := hplan
    have hseats := sameSeats_write r gid props
    cases frozen with
    | none =>
      refine h.of_sameLists hseats (fun t w' hw' => ?_) huses fun t i n n' hn hn' => ?_
      · obtain ⟨w, hw, hcommitted⟩ := committed_write hplan hw'
        exact ⟨w, hw, hcommitted.relaxing, hcommitted.relaxingSize rfl⟩
      · exact frozen_of_write hplan hn hn'
    | some frozen =>
      -- A thread without an instance of the element forgets its list as well, so the list of every thread
      -- is out of date, unless nobody has an instance and nothing was written.
      by_cases hnone : staged.all Option.isNone = true
      · have hsame : (r.write gid props).registry = r := by
          simp only [Registry.write, hplan, if_pos hnone]
        rwa [hsame]
      · have hcommit : (r.write gid props).registry = r.commit gid (some frozen) staged := by
          simp only [Registry.write, hplan, if_neg hnone]
        intro t w' hw'
        obtain ⟨w, hw, hcommitted⟩ := committed_write hplan hw'
        refine (h t w hw).outdated hcommitted.relaxing ?_ fun hused => ?_
        · -- There is an element to be written, so zero is not the number of elements.
          obtain ⟨id, hid⟩ := (plan_eq_ok_iff.1 hplan).1
          have hgiven := given_of_modelOf hid
          rw [hcommit] at hw'
          rw [relaxingSize_commit hw', Registry.size, hseats.nextGid]
          simp only [Gid.first, Registry.size] at hgiven
          omega
        · rwa [Worker.usesRelaxation_eq, hseats.map_eq (fun t i n n' hn hn' _ => huses t i n n' hn hn') hw hw',
            ← Worker.usesRelaxation_eq]
  · rwa [write_of_refused fun p hp => hplan ⟨p, hp⟩]

/-- The threads of a registry that has brought all lists up to date. -/
theorem getElem?_repartition (h : r.Current) {t : Nat} {w : Worker E} (hw : r.workers[t]? = some w) :
    ∃ w', r.repartition.1.workers[t]? = some w' ∧ w'.relaxing = w.relaxingNow ∧ w'.Current r.size := by
  have hcurrent := h t w hw
  rw [Registry.repartition]
  split
  · rename_i hall
    have hsame := List.all_eq_true.1 hall w (List.mem_of_getElem? hw)
    exact ⟨w, hw, hcurrent.relaxing_eq (of_decide_eq_true hsame), hcurrent⟩
  · refine ⟨(w.repartition r.size).2, ?_, hcurrent.relaxing_repartition, hcurrent.repartition⟩
    simp only [Dispatch.updatePartitions, List.getElem?_map, List.getElem?_mapIdx, hw]
    rfl

theorem Current.repartition (h : r.Current) : r.repartition.1.Current := by
  intro t w' hw'
  have hsame := sameThreads_repartition r
  obtain ⟨w, hw, -⟩ := hsame.workers t w' hw'
  obtain ⟨w'', hw'', -, hcurrent⟩ := getElem?_repartition h hw
  rw [hw'] at hw''
  cases hw''
  rwa [Registry.size, hsame.nextGid]

theorem Current.relaxingNodes (h : r.Current) (thread : Nat) :
    (r.relaxingNodes thread).registry.Current := by
  rw [Registry.relaxingNodes]
  split
  · exact h
  · exact h.repartition

theorem Current.ensureLocalIds (h : r.Current) : r.ensureLocalIds.registry.Current := by
  have htold : Current
      { r with workers := r.workers.map (Worker.learnSize r.size), stale := false } := by
    intro t w' hw'
    obtain ⟨w, hw, rfl⟩ := Option.map_eq_some_iff.1 (List.getElem?_map.symm.trans hw')
    exact (h t w hw).of_marks rfl rfl rfl
  simp only [Registry.ensureLocalIds]
  split
  · exact htold.repartition
  · exact htold

/-- A command keeps the lists from being stale, if no instance changes its mind. -/
theorem Current.apply (h : r.Current) (hfirst : Gid.first ≤ r.nextGid) (c : Command E)
    (huses : r.SameUses (r.apply c)) : (r.apply c).Current := by
  -- All other commands leave the lists, the seats and the frozen flags alone.
  have hkept : (∀ name n, c ≠ .create name n) → (∀ id n, c ≠ .createById id n) → c ≠ .reset →
      (∀ gid props, c ≠ .write gid props) → r.SameLists (r.apply c) → (r.apply c).Current := by
    intro hcreate hid hreset hwrite hlists
    exact h.of_sameLists (sameSeats_apply r c hcreate hid hreset) hlists huses
      fun t i n n' hn hn' => (after_apply hn hn').frozen_eq hwrite
  cases c with
  | create name count => exact h.create hfirst name count
  | createById id count => exact h.createById hfirst id count
  | write gid props => exact h.write gid props huses
  | edit gid thread change => exact hkept nofun nofun nofun nofun (sameLists_modifyLocal r gid thread _)
  | activate gid thread => exact hkept nofun nofun nofun nofun (sameLists_modifyLocal r gid thread _)
  | prepare => exact hkept nofun nofun nofun nofun (sameLists_sweep r .prepare)
  | reinit => exact hkept nofun nofun nofun nofun (sameLists_sweep r .initState)
  | finalize => exact hkept nofun nofun nofun nofun (sameLists_sweep r .finalize)
  | postRunCleanup => exact hkept nofun nofun nofun nofun (sameLists_sweep r .postRunCleanup)
  | initState gid => exact hkept nofun nofun nofun nofun (sameLists_initState r gid)
  | ensureLocalIds => exact h.ensureLocalIds
  | relaxingNodes thread => exact h.relaxingNodes thread
  | checkRelaxation => exact hkept nofun nofun nofun nofun (sameLists_checkRelaxation r)
  | checkRelaxationGlobal reply =>
    exact hkept nofun nofun nofun nofun (sameLists_checkRelaxationGlobal r reply)
  | reset => exact .fresh r.config r.catalog r.dispatch

/-- No list is ever stale, as long as no instance changes its mind. -/
theorem Current.run {config : GridConfig} {catalog : Catalog E} (h : r.Current)
    (hr : Sound config catalog r) (hcatalog : catalog.Numbered) {commands : List (Command E)}
    (hsteady : r.Steady commands) : (r.run commands).Current := by
  induction commands generalizing r with
  | nil => exact h
  | cons c commands ih =>
    exact ih (h.apply hr.tiles.first_le c hsteady.1) (hr.apply hcatalog c) hsteady.2

/-! ## What is answered -/

/-- Places grow along a thread, and so does the list of some of them. -/
theorem Sound.pairwise_relaxingNow {config : GridConfig} {catalog : Catalog E}
    (hr : Sound config catalog r) {t : Nat} {w : Worker E} (hw : r.workers[t]? = some w) :
    w.relaxingNow.Pairwise (· < ·) := by
  have hplaces : w.store.nodes.Pairwise fun n m => n.localId < m.localId := by
    refine List.pairwise_iff_getElem.2 fun i j hi hj hij => ?_
    rw [(hr.seat_eq hw (List.getElem?_eq_getElem hi)).1, (hr.seat_eq hw (List.getElem?_eq_getElem hj)).1]
    exact hij
  exact List.pairwise_map.2 (hplaces.filter _)

theorem result_relaxingNodes (h : r.Current) {t : Nat} {w : Worker E} (hw : r.workers[t]? = some w) :
    (r.relaxingNodes t).result = .ok w.relaxingNow := by
  obtain ⟨w', hw', hrelaxing, -⟩ := getElem?_repartition h hw
  have hworker : r.worker t = .ok w := by rw [worker, hw]
  have hworker' : r.repartition.1.worker t = .ok w' := by rw [worker, hw']
  rw [relaxingNodes, hworker]
  simp only [hworker', ← hrelaxing]
  rfl

theorem checkRelaxation_of_mem {w : Worker E} (hw : w ∈ r.workers) (h : w.usesRelaxation = true) :
    r.checkRelaxation.1 = true := by
  obtain ⟨t, ht⟩ := List.getElem?_of_mem hw
  refine List.any_eq_true.2 ⟨true, List.mem_of_getElem? (i := t) ?_, rfl⟩
  rw [Dispatch.mapPartitions, List.getElem?_mapIdx, ht]
  exact congrArg some h

/-- In every state to which a registry comes without an instance that changes its mind, each thread is
answered the places of those of its instances that take part and are not frozen, in ascending order. If
there are any, or were when its list was last made, then some instance is found to take part. -/
theorem relaxing_exact {config : GridConfig} {catalog : Catalog E} {dispatch : Dispatch}
    {fresh : Registry E} {commands : List (Command E)} (hcatalog : catalog.Formed)
    (hstart : start config catalog dispatch = .ok fresh) (hsteady : fresh.Steady commands) :
    let r := fresh.run commands
    (∀ thread < config.threads, ∃ nodes list, r.localNodes thread = .ok nodes ∧
      (r.relaxingNodes thread).result = .ok list ∧ list.Pairwise (· < ·) ∧
      ∀ localId, localId ∈ list ↔ ∃ n ∈ nodes,
        n.localId = localId ∧ Element.usesRelaxation n.element = true ∧ n.frozen = false) ∧
    (∀ thread list, (r.relaxingNodes thread).result = .ok list → list ≠ [] →
      r.checkRelaxation.1 = true) ∧
    ∀ w ∈ r.workers, w.relaxing ≠ [] → r.checkRelaxation.1 = true := by
  intro r
  have hr : Sound config catalog r := Reachable.sound hcatalog.numbered ⟨fresh, commands, hstart, rfl⟩
  have hcurrent : r.Current := by
    obtain ⟨_, -, hfresh⟩ := Except.bind_eq_ok_iff.1 hstart
    cases hfresh
    exact (Current.fresh config catalog dispatch).run (sound_fresh config catalog dispatch)
      hcatalog.numbered hsteady
  refine ⟨fun thread hthread => ?_, fun thread list hlist hne => ?_, fun w hw hne => ?_⟩
  · obtain ⟨w, hw⟩ := hr.exists_worker hthread
    have hnodes : r.localNodes thread = .ok w.store.nodes := by
      rw [localNodes, worker, hw]
      rfl
    exact ⟨w.store.nodes, w.relaxingNow, hnodes, result_relaxingNodes hcurrent hw,
      hr.pairwise_relaxingNow hw, fun _ => Worker.mem_relaxingNow⟩
  · cases hw : r.workers[thread]? with
    | none =>
      rw [relaxingNodes, worker, hw] at hlist
      cases hlist
    | some w =>
      cases hlist.symm.trans (result_relaxingNodes hcurrent hw)
      exact checkRelaxation_of_mem (List.mem_of_getElem? hw) (Worker.usesRelaxation_of_relaxingNow hne)
  · obtain ⟨t, ht⟩ := List.getElem?_of_mem hw
    exact checkRelaxation_of_mem hw ((hcurrent t w ht).uses_of_relaxing hne)

/-- Lists for four elements are made, the elements are released and four others created, lists are made again,
and one of the new elements is frozen. -/
theorem relaxing_exact_regrown :
    let commands : List (Command StandardElement) :=
      [.create "relaxing" 4, .relaxingNodes 1, .reset, .create "recorder" 1, .create "relaxing" 3,
        .relaxingNodes 1, .write 3 (.ofList [("frozen", .bool true)]),
        .write 9 (.ofList [("frozen", .bool true)])]
    ∃ fresh, StandardElement.catalog.Formed ∧
      start { processes := 1, threads := 2, rank := 0 } StandardElement.catalog .inTurn = .ok fresh ∧
      fresh.Steady commands ∧ ((fresh.run commands).relaxingNodes 0).result = .ok [1, 2] ∧
      (fresh.run commands).checkRelaxation.1 = true ∧
      ∃ nodes list, (fresh.run commands).localNodes 1 = .ok nodes ∧
        ((fresh.run commands).relaxingNodes 1).result = .ok list ∧
        ∀ localId, localId ∈ list ↔ ∃ n ∈ nodes,
          n.localId = localId ∧ Element.usesRelaxation n.element = true ∧ n.frozen = false := by
  intro commands
  have hcatalog : StandardElement.catalog.Formed := Catalog.formed_ofEntries (by decide)
  have hsettled : ∀ c ∈ commands, c.Settled := by
    simp only [commands, List.forall_mem_cons]
    simp [Command.Settled]
  obtain ⟨fresh, hstart, hlist⟩ : ∃ fresh,
      start { processes := 1, threads := 2, rank := 0 } StandardElement.catalog .inTurn = .ok fresh ∧
      ((fresh.run commands).relaxingNodes 0).result = .ok [1, 2] := ⟨_, rfl, rfl⟩
  have hsteady : fresh.Steady commands := steady_of_settled StandardElement.settled fresh hsettled
  obtain ⟨hlists, hused, -⟩ := relaxing_exact hcatalog hstart hsteady
  obtain ⟨nodes, list, hnodes, hlist', -, hmem⟩ := hlists 1 (by decide)
  exact ⟨fresh, hcatalog, hstart, hsteady, hlist, hused 0 [1, 2] hlist (by decide), nodes, list, hnodes,
    hlist', hmem⟩

end Registry

end ElementGrid
