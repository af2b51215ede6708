import ElementGrid.Proofs.Element.Rigid
import ElementGrid.Proofs.Registry.Faults
import ElementGrid.Proofs.Registry.Population
/-!
# Structural properties of running instances

A structural property is written only before an instance runs. The guard looks at one instance and one
key at a time, while the instances of one element may be at different stages: as long as one of them runs
or has run, none of them takes the property. What no write changes no hook changes either if the elements
are rigid, so an instance keeps its structural properties from the moment it is active until it is
prepared again.

## Main definitions

* `Command.Managed` — elements are changed by their own hooks and writes alone
* `Node.Sealed` — the instance runs or has run
* `Node.OfModel` — which properties of the instance are structural is up to its model
* `Registry.OfModels` — which is so of all instances
* `Registry.PrepareFaults` — a preparation ends with a fault of an instance

## Main results

* `Registry.OfModels.run`, `Registry.OfModels.mutability_eq` — all instances of an element agree on which
  properties are structural
* `Registry.Sound.write_of_structural_ne` — what the guards say of a write that changes a structural
  property
* `Registry.Sound.sealed_apply` — only a preparation without a fault unseals an instance
* `Registry.structural_run` — as long as an instance is sealed it keeps its structural properties
* `Registry.structural_sealed` — who changes structural properties, and when
-/

namespace ElementGrid

open Element (structural makeup mutability)

variable {E : Type}

/-- Elements are changed by their own hooks and writes alone; nobody else has a hold of them. -/
def Command.Managed : Command E → Prop
  | .edit .. => False
  | _ => True

/-- The instance runs or has run. -/
def Node.Sealed (n : Node E) : Prop := n.state = .active ∨ n.state = .finalized

theorem Node.not_sealed_iff {n : Node E} : ¬ n.Sealed ↔ n.state = .created ∨ n.state = .initialized := by
  rw [Sealed]
  cases n.state <;> decide

variable [Element E]

/-! ## One instance -/

namespace Node

variable {n n' : Node E} {c : Command E}

/-- Which properties of the instance are structural is up to its model. -/
def OfModel (catalog : Catalog E) (n : Node E) : Prop :=
  ∃ m, catalog.get? n.model = some m ∧ mutability n.element = mutability m.prototype

/-- No command but a write changes the makeup of an element. -/
theorem After.makeup_eq (hE : Element.Rigid E) (hc : c.Managed)
    (hwrite : ∀ gid props, c ≠ .write gid props) (h : n.After n' c) :
    makeup n'.element = makeup n.element := by
  refine h.map_eq (f := fun n => makeup n.element) ?visit ?activate ?edit fun gid props hc =>
    absurd hc (hwrite gid props)
  case visit =>
    rintro phase ⟨g, rfl⟩
    exact hE.hooks.keeps_ofPhase phase (n, g)
  case activate =>
    rw [activate]
    split <;> rfl
  case edit =>
    rintro gid thread change rfl
    exact hc.elim

/-- No command changes which properties of an element are structural. -/
theorem After.mutability_eq (hE : Element.Rigid E) (hc : c.Managed) (h : n.After n' c) :
    mutability n'.element = mutability n.element := by
  by_cases hwrite : ∃ gid props, c = .write gid props
  · obtain ⟨gid, props, rfl⟩ := hwrite
    obtain rfl | ⟨frozen, e, he, rfl⟩ := h
    · rfl
    · obtain ⟨-, reader, hrun, -⟩ := Registry.stage_eq_ok he
      have hkeeps :=
        hE.mutability_write (n.element, (PropertyReader.ofMap props).markConsumed StatusKey.frozen)
      rwa [hrun] at hkeeps
  · exact congrArg Prod.fst (h.makeup_eq hE hc fun gid props hc => hwrite ⟨gid, props, hc⟩)

/-- Properties that change what is structural of the instance that takes them name some of it. -/
theorem Took.names_structural (hE : Element.Rigid E) {props : PropertyMap} {frozen : Option Bool}
    (h : n.Took props frozen n') (hne : structural n'.element ≠ structural n.element) :
    ∃ key ∈ props.keys, key ≠ StatusKey.frozen ∧ mutability n.element key = .structural := by
  by_contra hnone
  obtain ⟨reader, hrun, -⟩ := h.written
  have hkept := hE.structural_write n.element
    ((PropertyReader.ofMap props).markConsumed StatusKey.frozen)
    fun key hkey hfrozen hstructural => hnone ⟨key, ?_, hfrozen, hstructural⟩
  · rw [hrun] at hkept
    exact hne hkept
  · rwa [PropertyReader.keys, PropertyReader.map_markConsumed] at hkey

/-- Nothing but a preparation unseals an instance. -/
theorem After.sealed (hprepare : c ≠ .prepare) (hn : n.Sealed) (h : n.After n' c) : n'.Sealed := by
  have hvisited : n.Visited .initState n' → n'.Sealed := by
    rintro ⟨g, rfl⟩
    exact hn
  cases c with
  | write gid props =>
    obtain rfl | ⟨frozen, e, -, rfl⟩ := h
    · exact hn
    · exact hn
  | edit gid thread change =>
    obtain rfl | rfl := h
    · exact hn
    · exact hn
  | activate gid thread =>
    obtain rfl | rfl := h
    · exact hn
    · rw [activate]
      split
      · exact .inl rfl
      · exact hn
  | prepare => exact absurd rfl hprepare
  | reinit => exact hvisited h
  | finalize =>
    obtain ⟨g, rfl⟩ := h
    rw [Visit.ofPhase, Visit.finalize, Step.run_bind]
    split
    · exact .inr rfl
    · -- A finalization that fails leaves the instance at its stage.
      rename_i hrun
      have hstate : _ = n.state := congrArg (fun s => s.2.1.state) hrun.symm
      rwa [Sealed, hstate]
  | postRunCleanup =>
    obtain ⟨g, rfl⟩ := h
    exact hn
  | initState gid =>
    obtain rfl | h := h
    · exact hn
    · exact hvisited h
  | reset => exact h.elim
  | create | createById | ensureLocalIds | relaxingNodes | checkRelaxation | checkRelaxationGlobal =>
    cases h
    exact hn

end Node

/-- A preparation that faults leaves an instance at its stage, unless the instance was new. -/
theorem Visit.state_of_prepare_fault {n : Node E} {g : Generator} {fault : Fault}
    (hstate : n.state ≠ .created) (h : (n.hooks g .prepare).1 = .error fault) :
    ((Visit.prepare : Visit E Unit).run.run (n, g)).2.1.state = n.state := by
  rw [Node.hooks, if_neg hstate] at h
  rw [run_prepare, if_neg hstate]
  let hook : Visit E Unit := onElementWith (Element.prepare ⟨n.gid, n.vp⟩)
  have hhook : (hook.run.run (n, g)).1 = .error fault := h
  show ((hook >>= fun _ => enter .initialized : Visit E Unit).run.run (n, g)).2.1.state = _
  rw [Step.run_bind]
  split
  · rename_i hrun
    rw [hrun] at hhook
    cases hhook
  · rename_i hrun
    exact congrArg (fun s => s.2.1.state) hrun.symm

namespace Registry

variable {r : Registry E} {config : GridConfig} {catalog : Catalog E} {t i : Nat} {n n' : Node E}
  {c : Command E}

/-! ## Instances of one model -/

omit [Element E] in
theorem node?_of_sameSeats {r' : Registry E} (h : r.SameSeats r') (hn' : r'.node? t i = some n') :
    ∃ n, r.node? t i = some n ∧ n.seat = n'.seat := by
  have hsame : r'.seatAt? t i = r.seatAt? t i := by rw [seatAt?, seatAt?, h.seats]
  exact seatAt?_eq_some_iff.1 (hsame ▸ seatAt?_eq_some_iff.2 ⟨n', hn', rfl⟩)

omit [Element E] in
theorem mem_hosted_iff : n ∈ r.hosted ↔ ∃ t i, r.node? t i = some n := by
  rw [hosted, List.mem_flatMap]
  constructor
  · rintro ⟨w, hw, hn⟩
    obtain ⟨t, ht⟩ := List.getElem?_of_mem hw
    obtain ⟨i, hi⟩ := List.getElem?_of_mem hn
    exact ⟨t, i, node?_eq_some_iff.2 ⟨w, ht, hi⟩⟩
  · rintro ⟨t, i, h⟩
    obtain ⟨w, hw, hn⟩ := node?_eq_some_iff.1 h
    exact ⟨w, List.mem_of_getElem? hw, List.mem_of_getElem? hn⟩

/-- Which properties are structural is up to the models, for all instances. -/
def OfModels (catalog : Catalog E) (r : Registry E) : Prop :=
  ∀ t i n, r.node? t i = some n → n.OfModel catalog

theorem ofModels_fresh (config : GridConfig) (catalog : Catalog E) (dispatch : Dispatch) :
    OfModels catalog { config, catalog, dispatch, workers := freshWorkers config } := by
  intro t i n hn
  cases (node?_of_fresh rfl t i).symm.trans hn

namespace OfModels

theorem apply (hE : Element.Rigid E) (hr : Sound config catalog r) (hcatalog : catalog.Numbered)
    (h : r.OfModels catalog) (hc : c.Managed) : (r.apply c).OfModels catalog := by
  intro t i n' hn'
  obtain rfl := hr.catalog_eq
  -- An instance that was there has its seat, and with it its model, and its element asks as it did.
  have hkept : r.SameSeats (r.apply c) → n'.OfModel r.catalog := fun hsame => by
    obtain ⟨n, hn, hseat⟩ := node?_of_sameSeats hsame hn'
    obtain ⟨m, hm, hmutability⟩ := h t i n hn
    have hmodel : n.model = n'.model := congrArg Seat.model hseat
    exact ⟨m, hmodel ▸ hm, ((after_apply hn hn').mutability_eq hE hc).trans hmutability⟩
  obtain ⟨-, m, count, hm, -, happly⟩ | ⟨-, rfl⟩ | ⟨-, rfl⟩ | ⟨-, -, -, -, -, hsame⟩ :=
    apply_cases hcatalog c
  · rw [happly] at hn'
    obtain hn | ⟨-, gid, localId, rfl⟩ := node?_withBatch hn'
    · exact h t i n' hn
    · exact ⟨m, hm, rfl⟩
  · cases (node?_of_fresh rfl t i).symm.trans hn'
  · exact hkept (sameSeats_ensureLocalIds r)
  · exact hkept hsame

theorem run (hE : Element.Rigid E) (hr : Sound config catalog r) (hcatalog : catalog.Numbered)
    (h : r.OfModels catalog) {commands : List (Command E)} (hmanaged : ∀ c ∈ commands, c.Managed) :
    (r.run commands).OfModels catalog := by
  induction commands generalizing r with
  | nil => exact h
  | cons c commands ih =>
    obtain ⟨hc, hrest⟩ := List.forall_mem_cons.1 hmanaged
    exact ih (hr.apply hcatalog c) (h.apply hE hr hcatalog hc) hrest

/-- All instances of an element agree on which properties are structural. -/
theorem mutability_eq (hr : Sound config catalog r) (h : r.OfModels catalog) {m : Node E}
    (hn : n ∈ r.hosted) (hm : m ∈ r.hosted) (hgid : m.gid = n.gid) :
    mutability m.element = mutability n.element := by
  have hmodel : ∀ k ∈ r.hosted, r.modelOf k.gid = .ok k.model ∧ k.OfModel catalog := by
    intro k hk
    obtain ⟨t, i, hk⟩ := mem_hosted_iff.1 hk
    obtain ⟨w, hw, hi⟩ := node?_eq_some_iff.1 hk
    obtain ⟨-, -, b, hb, hcontains, hmodel, -⟩ := hr.seat_eq hw hi
    exact ⟨(hr.modelOf_eq hb hcontains).trans (congrArg _ hmodel.symm), h t i k hk⟩
  obtain ⟨hofn, mn, hgetn, hmutabilityn⟩ := hmodel n hn
  obtain ⟨hofm, mm, hgetm, hmutabilitym⟩ := hmodel m hm
  rw [hgid, hofn] at hofm
  have hsame : n.model = m.model := Except.ok.inj hofm
  rw [← hsame, hgetn] at hgetm
  cases hgetm
  exact hmutabilitym.trans hmutabilityn.symm

end OfModels

namespace Sound

variable (hr : Sound config catalog r)
include hr

/-! ## Writes -/

/-- A write that changes a structural property of an instance is carried out, and names a structural
property of this very element. -/
theorem write_of_structural_ne (hE : Element.Rigid E) {gid : Nat} {props : PropertyMap}
    (hn : r.node? t i = some n) (hn' : (r.write gid props).registry.node? t i = some n')
    (hne : structural n'.element ≠ structural n.element) :
    n.gid = gid ∧ (∃ plan, r.plan gid props = .ok plan) ∧
      ∃ key ∈ props.keys, key ≠ StatusKey.frozen ∧ mutability n.element key = .structural := by
  by_cases hplan : ∃ plan, r.plan gid props = .ok plan
  · obtain ⟨⟨frozen, staged⟩, hplan⟩ := hplan
    obtain ⟨w', hw', hi'⟩ := node?_eq_some_iff.1 hn'
    obtain ⟨w, hw, hcommitted⟩ := committed_write hplan hw'
    obtain ⟨w₀, hw₀, hi⟩ := node?_eq_some_iff.1 hn
    cases hw₀.symm.trans hw
    have hwrote := (wrote_of_committed (hr.ascending hw) hcommitted).nodes i n n' hi hi'
    split at hwrote
    · rename_i hgid
      exact ⟨hgid, ⟨_, hplan⟩, hwrote.names_structural hE hne⟩
    · exact absurd (congrArg (fun n => structural n.element) hwrote) hne
  · rw [write_of_refused fun p hp => hplan ⟨p, hp⟩, hn] at hn'
    cases hn'
    exact absurd rfl hne

/-- No instance takes a structural property in a write that is carried out if it runs or has run. -/
theorem not_sealed_of_plan {gid : Nat} {props : PropertyMap} (hplan : ∃ plan, r.plan gid props = .ok plan)
    (hn : n ∈ r.hosted) (hgid : n.gid = gid) {key : String} (hkey : key ∈ props.keys)
    (hfrozen : key ≠ StatusKey.frozen) (hstructural : mutability n.element key = .structural) :
    ¬ n.Sealed := by
  intro hsealed
  obtain ⟨w, hw, hn⟩ := List.mem_flatMap.1 hn
  obtain ⟨t, ht⟩ := List.getElem?_of_mem hw
  have hfind := (Store.find?_eq_some_iff (hr.ascending ht)).2 ⟨hn, hgid⟩
  obtain ⟨e, he⟩ := (exists_plan_iff.1 hplan).2.2.2 t w n ht hfind
  exact allowed_of_checkMutability (stage_eq_ok he).1 hsealed key hkey hfrozen hstructural

/-- Who changes a structural property of an instance writes it, and none of the instances of the element
has begun to run. -/
theorem cause_of_structural_ne (hE : Element.Rigid E) (h : r.OfModels catalog) (hc : c.Managed)
    (hn : r.node? t i = some n) (hn' : (r.apply c).node? t i = some n')
    (hne : structural n'.element ≠ structural n.element) :
    ∃ props, c = .write n.gid props ∧ (r.write n.gid props).result = .ok () ∧
      (∃ key ∈ props.keys, mutability n.element key = .structural) ∧
      ∀ m ∈ r.hosted, m.gid = n.gid → m.state = .created ∨ m.state = .initialized := by
  by_cases hwrite : ∃ gid props, c = .write gid props
  · obtain ⟨gid, props, rfl⟩ := hwrite
    obtain ⟨rfl, hplan, key, hkey, hfrozen, hstructural⟩ := hr.write_of_structural_ne hE hn hn' hne
    refine ⟨props, rfl, ?_, ⟨key, hkey, hstructural⟩, fun m hm hgid => ?_⟩
    · obtain ⟨⟨frozen, staged⟩, hplan⟩ := hplan
      rw [write, hplan]
    · -- The guard is asked for each instance, and they all give the same answer.
      have hsame := h.mutability_eq hr (mem_hosted_iff.2 ⟨t, i, hn⟩) hm hgid
      exact Node.not_sealed_iff.1 (hr.not_sealed_of_plan hplan hm hgid hkey hfrozen (hsame ▸ hstructural))
  · have hmakeup := (after_apply hn hn').makeup_eq hE hc fun gid props hc => hwrite ⟨gid, props, hc⟩
    exact absurd (congrArg Prod.snd hmakeup) hne

end Sound

/-! ## Preparations -/

/-- A preparation ends with a fault of the instance of an element on a virtual process. -/
def PrepareFaults (r : Registry E) (gid : Nat) (vp : Vp) : Prop :=
  ∃ faults f, r.prepare.result = .error (.lifecycleFaults faults) ∧ f ∈ faults.faults ∧
    f.gid = gid ∧ f.vp = vp

/-- In a sweep, what is noted of an instance and what is made of it come of the same visit. -/
theorem exists_visit_of_sweep (phase : Phase) (hn : r.node? t i = some n) :
    ∃ g, ⟨n, (n.hooks g phase).1⟩ ∈ r.answers phase ∧
      (r.sweep phase).2.node? t i = some ((Visit.ofPhase phase : Visit E Unit).run.run (n, g)).2.1 := by
  obtain ⟨w, hw, hi⟩ := node?_eq_some_iff.1 hn
  obtain ⟨g, hanswer, hvisit⟩ := getElem?_sweepNodes phase hi w.generator {}
  refine ⟨g, List.mem_flatMap.2 ⟨w, List.mem_of_getElem? hw, List.mem_of_getElem? hanswer⟩, ?_⟩
  rw [node?, getElem?_sweep, hw]
  exact hvisit

namespace Sound

variable (hr : Sound config catalog r)
include hr

/-- No two answers of a sweep are of one element and one virtual process. -/
theorem eq_of_answers {phase : Phase} {a b : Answer E} (ha : a ∈ r.answers phase)
    (hb : b ∈ r.answers phase) (hgid : a.node.gid = b.node.gid) (hvp : a.node.vp = b.node.vp) :
    a = b := by
  have hapart : (r.answers phase).Pairwise fun a b => a.node.Apart b.node :=
    List.pairwise_map.1 (r.map_node_answers phase ▸ hr.apart_hosted)
  by_contra hne
  have hsymm : Std.Symm fun a b : Answer E => a.node.Apart b.node :=
    ⟨fun _ _ hab => hab.imp Ne.symm Ne.symm⟩
  rcases hapart.forall ha hb hne with h | h
  · exact h hgid
  · exact h (congrArg Vp.thread hvp)

/-- The fault with which a preparation ends is what the hooks of the instance have come to. -/
theorem outcome_of_prepareFaults {gid : Nat} {vp : Vp} (h : r.PrepareFaults gid vp) {a : Answer E}
    (ha : a ∈ r.answers .prepare) (hgid : a.node.gid = gid) (hvp : a.node.vp = vp) :
    ∃ fault, a.outcome = .error fault := by
  obtain ⟨faults, f, hresult, hf, rfl, rfl⟩ := h
  have hexact := exact_sweep hr .prepare
  have hfaults : (r.sweep .prepare).1.faults = faults := by
    have hprepare : outcome (r.sweep .prepare).1 (r.sweep .prepare).1.active =
        .error (.lifecycleFaults faults) := hresult
    rw [outcome_eq] at hprepare
    split at hprepare
    · cases hprepare
    · exact RegistryError.lifecycleFaults.inj (Except.error.inj hprepare)
  obtain ⟨b, hb, hfault⟩ := List.mem_filterMap.1 ((hfaults ▸ hexact.faults.perm).mem_iff.1 hf)
  obtain ⟨houtcome, hgid', hvp'⟩ := Answer.fault?_eq_some_iff.1 hfault
  rw [hr.eq_of_answers ha hb (hgid.trans hgid'.symm) (hvp.trans hvp'.symm)]
  exact ⟨f.fault, houtcome⟩

/-- An instance that runs or has run is there after each command but a reset, and sealed unless it is
prepared without a fault. -/
theorem sealed_apply (hcatalog : catalog.Numbered) (hreset : c ≠ .reset)
    (hprepare : c = .prepare → r.PrepareFaults n.gid n.vp) (hn : r.node? t i = some n)
    (hsealed : n.Sealed) :
    ∃ n', (r.apply c).node? t i = some n' ∧ n'.seat = n.seat ∧ n'.Sealed := by
  have hkept := seatAt?_apply (hr.catalog_eq ▸ hcatalog) hreset (seatAt?_eq_some_iff.2 ⟨n, hn, rfl⟩)
  obtain ⟨n', hn', hsame⟩ := seatAt?_eq_some_iff.1 hkept
  refine ⟨n', hn', hsame, ?_⟩
  by_cases hc : c = .prepare
  · subst hc
    obtain ⟨g, hanswer, hvisit⟩ := exists_visit_of_sweep .prepare hn
    obtain ⟨fault, hfault⟩ := hr.outcome_of_prepareFaults (hprepare rfl) hanswer rfl rfl
    have hvisited : n' = _ := Option.some.inj (hn'.symm.trans hvisit)
    have hcreated : n.state ≠ .created := by
      rcases hsealed with hstate | hstate <;> rw [hstate] <;> decide
    rw [Node.Sealed, hvisited, Visit.ofPhase, Visit.state_of_prepare_fault hcreated hfault]
    exact hsealed
  · exact (after_apply hn hn').sealed hc hsealed

end Sound

/-- From when it runs until it is prepared without a fault, an instance keeps what is structural of it. -/
theorem structural_run (hE : Element.Rigid E) (hr : Sound config catalog r) (hcatalog : catalog.Numbered)
    (h : r.OfModels catalog) {commands : List (Command E)} (hmanaged : ∀ c ∈ commands, c.Managed)
    (hreset : .reset ∉ commands) (hn : r.node? t i = some n) (hsealed : n.Sealed)
    (hprepare : ∀ earlier later, commands = earlier ++ .prepare :: later →
      (r.run earlier).PrepareFaults n.gid n.vp) :
    ∃ n', (r.run commands).node? t i = some n' ∧ n'.seat = n.seat ∧ n'.Sealed ∧
      structural n'.element = structural n.element := by
  induction commands generalizing r n with
  | nil => exact ⟨n, hn, rfl, hsealed, rfl⟩
  | cons c commands ih =>
    obtain ⟨hc, hrest⟩ := List.forall_mem_cons.1 hmanaged
    obtain ⟨hhere, hlater⟩ := not_or.1 (mt List.mem_cons.2 hreset)
    obtain ⟨n₁, hn₁, hseat, hsealed₁⟩ := hr.sealed_apply hcatalog (Ne.symm hhere)
      (fun hc => hprepare [] commands (by rw [hc]; rfl)) hn hsealed
    have hsame : structural n₁.element = structural n.element := by
      by_contra hne
      obtain ⟨-, -, -, -, hidle⟩ := hr.cause_of_structural_ne hE h hc hn hn₁ hne
      exact Node.not_sealed_iff.2 (hidle n (mem_hosted_iff.2 ⟨t, i, hn⟩) rfl) hsealed
    have hprepare₁ : ∀ earlier later, commands = earlier ++ .prepare :: later →
        ((r.apply c).run earlier).PrepareFaults n₁.gid n₁.vp := fun earlier later heq => by
      have hgid : n₁.gid = n.gid := congrArg Seat.gid hseat
      have hvp : n₁.vp = n.vp := congrArg Seat.vp hseat
      rw [hgid, hvp]
      exact hprepare (c :: earlier) later (by rw [heq]; rfl)
    obtain ⟨n', hn', hseat', hsealed', hsame'⟩ := ih (hr.apply hcatalog c) (h.apply hE hr hcatalog hc)
      hrest hlater hn₁ hsealed₁ hprepare₁
    exact ⟨n', hn', hseat'.trans hseat, hsealed', hsame'.trans hsame⟩

/-- In every state to which a registry of standard elements comes, as long as nobody else has a hold of
the elements: a command that changes a structural property of an instance, which is the threshold of a
counter or the position of a positioned element, is a write of this element that succeeds and names such
a property, and all instances of the element on this process are created or initialized when it is given.
From when an instance is active or finalized until it is prepared without a fault, its structural
properties stay the same. -/
theorem structural_sealed {catalog : Catalog StandardElement} {dispatch : Dispatch}
    {fresh : Registry StandardElement} {commands : List (Command StandardElement)}
    (hcatalog : catalog.Formed) (hstart : start config catalog dispatch = .ok fresh)
    (hmanaged : ∀ c ∈ commands, c.Managed) :
    let r := fresh.run commands
    (∀ c : Command StandardElement, c.Managed → ∀ t i n n', r.node? t i = some n →
      (r.apply c).node? t i = some n' → structural n'.element ≠ structural n.element →
      ∃ props, c = .write n.gid props ∧ (r.write n.gid props).result = .ok () ∧
        (∃ key ∈ props.keys, mutability n.element key = .structural) ∧
        ∀ m ∈ r.hosted, m.gid = n.gid → m.state = .created ∨ m.state = .initialized) ∧
    ∀ t i n, r.node? t i = some n → n.state = .active ∨ n.state = .finalized →
      ∀ later : List (Command StandardElement), (∀ c ∈ later, c.Managed) → .reset ∉ later →
        (∀ before after, later = before ++ .prepare :: after →
          (r.run before).PrepareFaults n.gid n.vp) →
        ∃ n', (r.run later).node? t i = some n' ∧ n'.gid = n.gid ∧ n'.vp = n.vp ∧
          structural n'.element = structural n.element := by
  intro r
  have hnumbered := hcatalog.numbered
  obtain ⟨_, -, hfresh⟩ := Except.bind_eq_ok_iff.1 hstart
  cases hfresh
  have hsound := sound_fresh config catalog dispatch
  have hr : Sound config catalog r := hsound.run hnumbered commands
  have hof : r.OfModels catalog :=
    (ofModels_fresh config catalog dispatch).run StandardElement.rigid hsound hnumbered hmanaged
  refine ⟨fun c hc t i n n' hn hn' hne => ?_, fun t i n hn hsealed later hlater hreset hprepare => ?_⟩
  · exact hr.cause_of_structural_ne StandardElement.rigid hof hc hn hn' hne
  · obtain ⟨n', hn', hseat, -, hsame⟩ :=
      structural_run StandardElement.rigid hr hnumbered hof hlater hreset hn hsealed hprepare
    exact ⟨n', hn', congrArg Seat.gid hseat, congrArg Seat.vp hseat, hsame⟩

/-- A positioned element on two threads. It is moved while both its instances are initialized; once the
instance on one thread is active the element stays where it is. -/
theorem structural_sealed_replicated :
    let catalog : Catalog StandardElement :=
      .ofEntries [("positioned", .device, StandardElement.positioned)]
    let east : PropertyMap := .ofList [("position", .doubleArray [.ofInt 1, .zero])]
    let west : PropertyMap := .ofList [("position", .doubleArray [.ofInt (-1), .zero])]
    let earlier : List (Command StandardElement) := [.create "positioned" 1, .prepare]
    let later : List (Command StandardElement) := [.write 1 west, .finalize, .reinit, .postRunCleanup]
    ∃ fresh, catalog.Formed ∧ start { threads := 2 } catalog .inTurn = .ok fresh ∧
      (∀ m ∈ (fresh.run earlier).hosted, m.gid = 1 → m.state = .created ∨ m.state = .initialized) ∧
      let r := fresh.run (earlier ++ [.write 1 east, .activate 1 0])
      (r.write 1 west).result = .error (.illegalWrite 1 "position" .active) ∧
        ∃ n, (r.run later).node? 0 0 = some n ∧ n.gid = 1 ∧
          structural n.element = [("position", .doubleArray [.ofInt 1, .zero])] := by
  intro catalog east west earlier later
  have hcatalog : catalog.Formed := Catalog.formed_ofEntries (by decide)
  have hearlier : ∀ c ∈ earlier, c.Managed := by simp [earlier, Command.Managed]
  have hmoved : ∀ c ∈ earlier ++ [.write 1 east, .activate 1 0], c.Managed := by
    simp [earlier, Command.Managed]
  have hlater : ∀ c ∈ later, c.Managed := by simp [later, Command.Managed]
  obtain ⟨fresh, hstart, hfirst, hmovedTo, hactivated, hrefused⟩ :
      ∃ fresh, start { threads := 2 } catalog .inTurn = .ok fresh ∧
      ((fresh.run earlier).node? 0 0).map (fun n => (n.gid, structural n.element)) =
        some (1, [("position", .doubleArray [.zero, .zero])]) ∧
      (((fresh.run earlier).apply (.write 1 east)).node? 0 0).map (fun n => structural n.element) =
        some [("position", .doubleArray [.ofInt 1, .zero])] ∧
      ((fresh.run (earlier ++ [.write 1 east, .activate 1 0])).node? 0 0).map
          (fun n => (n.gid, n.state, structural n.element)) =
        some (1, .active, [("position", .doubleArray [.ofInt 1, .zero])]) ∧
      ((fresh.run (earlier ++ [.write 1 east, .activate 1 0])).write 1 west).result =
        .error (.illegalWrite 1 "position" .active) :=
    ⟨_, rfl, by decide +kernel, by decide +kernel, by decide +kernel, by decide +kernel⟩
  obtain ⟨n, hn, hbefore⟩ := Option.map_eq_some_iff.1 hfirst
  obtain ⟨n', hn', hafter⟩ := Option.map_eq_some_iff.1 hmovedTo
  obtain ⟨m, hm, hat⟩ := Option.map_eq_some_iff.1 hactivated
  simp only [Prod.mk.injEq] at hbefore hat
  have hne : structural n'.element ≠ structural n.element := by
    rw [hafter, hbefore.2]
    decide +kernel
  obtain ⟨-, -, -, -, hidle⟩ :=
    (structural_sealed hcatalog hstart hearlier).1 (.write 1 east) trivial 0 0 n n' hn hn' hne
  obtain ⟨k, hk, hgid, -, hsame⟩ :=
    (structural_sealed hcatalog hstart hmoved).2 0 0 m hm (.inl hat.2.1) later hlater (by simp [later])
      fun before after h => by
        have hmem : Command.prepare ∈ later := h ▸ by simp
        simp [later] at hmem
  exact ⟨fresh, hcatalog, hstart, hbefore.1 ▸ hidle, hrefused, k, hk, hgid.trans hat.1,
    hsame.trans hat.2.2⟩

end Registry

end ElementGrid
