import ElementGrid.Element.Probe
import ElementGrid.Proofs.Registry.Faults
import ElementGrid.Proofs.Registry.Instances
import ElementGrid.Proofs.Registry.Numbering
import ElementGrid.Proofs.Registry.Relaxation
/-!
# Sweeps that no fault disturbs

A sweep stops at every instance of a thread, in the order of their places, whatever has come of the stops
before. It leaves each at the stage of life that its hooks have earned it, and changes nothing else of what
the registry knows of it.

## Main definitions

* `Stop` — what an instance answers to a visit, and how the visit leaves it
* `Toured` — stops that follow one another
* `Stop.Staged` — the stage of life at which a visit leaves an instance
* `Worker.Swept` — a thread before and after a sweep, with the stops in between
* `Registry.outlines` — what the registry knows of its instances

## Main results

* `toured_stopsAt` — a sweep stops at all instances, whatever faults
* `Visit.staged_ofPhase` — what becomes of the stage of an instance
* `Registry.Sound.swept` — a sweep of a thread
* `Registry.activeCount_run`, `Registry.activeCount_run_of_zero` — how many instances are active, until the
  next preparation
* `Registry.sweeps_isolated` — all of it together, in every state that a registry can come to
-/

namespace ElementGrid

variable {E : Type}

/-! ## Stops -/

/-- What an instance answers to a visit, and the instance as the visit leaves it. -/
structure Stop (E : Type) extends Answer E where
  left : Node E

namespace Stop

/-- The stage at which a preparation leaves an instance: it is initialized if its hooks succeed. If they do
not, a new instance is left so by a fault of its initialization, and initialized if it is its preparation
that faults; every other instance is left at its stage. -/
structure Prepared [Element E] (s : Stop E) : Prop where
  succeeded : s.outcome = .ok () → s.left.state = .initialized
  uninitialized : s.node.state = .created → ∀ fault,
    ((Element.init : Step E Fault Unit).run.run s.node.element).1 = .error fault →
    s.outcome = .error fault ∧ s.left.state = .created
  unprepared : s.node.state = .created →
    ((Element.init : Step E Fault Unit).run.run s.node.element).1 = .ok () →
    ∀ fault, s.outcome = .error fault → s.left.state = .initialized
  past : s.node.state ≠ .created → ∀ fault, s.outcome = .error fault → s.left.state = s.node.state

/-- The stage at which a finalization leaves an instance: it is finalized if its hook succeeds, and else
stays where it is. -/
structure Finalized (s : Stop E) : Prop where
  succeeded : s.outcome = .ok () → s.left.state = .finalized
  faulted : ∀ fault, s.outcome = .error fault → s.left.state = s.node.state
  finalized_iff : s.node.state ≠ .finalized → (s.left.state = .finalized ↔ s.outcome = .ok ())

/-- The stage at which a visit leaves an instance. Only preparations and finalizations change it. -/
def Staged [Element E] (s : Stop E) : Phase → Prop
  | .prepare => s.Prepared
  | .finalize => s.Finalized
  | .initState | .postRunCleanup => s.left.state = s.node.state

end Stop

section Tours

variable [Element E]

/-- The stops follow one another: the hooks of each come to what they do on the stream that the stops
before have left, whether these have faulted or not. -/
inductive Toured (phase : Phase) : Generator → List (Stop E) → Generator → Prop where
  | done (g : Generator) : Toured phase g [] g
  | stop {s : Stop E} {stops : List (Stop E)} {g g' g'' : Generator}
      (hooks : s.node.hooks g phase = (s.outcome, g'))
      (visit : (Visit.ofPhase phase : Visit E Unit).run.run (s.node, g) = (s.outcome, (s.left, g')))
      (rest : Toured phase g' stops g'') : Toured phase g (s :: stops) g''

/-- The stops at some instances, one after the other. -/
def stopsAt (phase : Phase) : List (Node E) → Generator → List (Stop E)
  | [], _ => []
  | n :: ns, g =>
    let visited := (Visit.ofPhase phase : Visit E Unit).run.run (n, g)
    ⟨⟨n, visited.1⟩, visited.2.1⟩ :: stopsAt phase ns visited.2.2

/-- The stops of a sweep on a thread. -/
def Worker.stops (phase : Phase) (w : Worker E) : List (Stop E) :=
  stopsAt phase w.store.nodes w.generator

variable (phase : Phase)

/-- A sweep stops at all instances, whatever faults. -/
theorem toured_stopsAt (ns : List (Node E)) (g : Generator) (t : Tally) :
    Toured phase g (stopsAt phase ns g) (sweepNodes (Visit.ofPhase phase) ns g t).2.1 := by
  induction ns generalizing g t with
  | nil => exact .done g
  | cons n ns ih =>
    obtain ⟨n', hrun, -⟩ := Visit.comesTo_ofPhase phase n g
    rw [stopsAt, sweepNodes, hrun]
    exact .stop rfl hrun (ih _ _)

theorem map_toAnswer_stopsAt (ns : List (Node E)) (g : Generator) :
    (stopsAt phase ns g).map Stop.toAnswer = answers phase ns g := by
  induction ns generalizing g with
  | nil => rfl
  | cons n ns ih =>
    obtain ⟨n', hrun, -⟩ := Visit.comesTo_ofPhase phase n g
    rw [stopsAt, answers, hrun, List.map_cons, ih]

theorem map_left_stopsAt (ns : List (Node E)) (g : Generator) (t : Tally) :
    (stopsAt phase ns g).map Stop.left = (sweepNodes (Visit.ofPhase phase) ns g t).1 := by
  induction ns generalizing g t with
  | nil => rfl
  | cons n ns ih =>
    rw [stopsAt, sweepNodes, List.map_cons]
    exact congrArg _ (ih _ _)

variable {phase}

/-- Every stop is a visit of its instance on some stream. -/
theorem Toured.exists_visit {g g' : Generator} {stops : List (Stop E)} (h : Toured phase g stops g')
    {s : Stop E} (hs : s ∈ stops) : ∃ g₁ g₂, s.node.hooks g₁ phase = (s.outcome, g₂) ∧
      (Visit.ofPhase phase : Visit E Unit).run.run (s.node, g₁) = (s.outcome, (s.left, g₂)) := by
  induction h with
  | done => cases hs
  | stop hooks visit rest ih =>
    obtain rfl | hs := List.mem_cons.1 hs
    · exact ⟨_, _, hooks, visit⟩
    · exact ih hs

end Tours

/-! ## Stages -/

namespace Visit

variable [Element E]

omit [Element E] in
/-- To enter a stage at the end changes the stage of the instance if all went well before. -/
theorem state_enter {v : Visit E Unit} {n n' : Node E} {g g' : Generator} {outcome : Except Fault Unit}
    {state : NodeState} (hv : (v.run.run (n, g)).2.1.state = n.state)
    (h : (v >>= fun _ => Visit.enter state : Visit E Unit).run.run (n, g) = (outcome, (n', g'))) :
    n'.state = if outcome.isOk then state else n.state := by
  rw [Step.run_bind] at h
  rcases hrun : v.run.run (n, g) with ⟨fault | _, n₁, g₁⟩ <;> rw [hrun] at h hv <;> cases h
  · exact hv
  · rfl

theorem state_ready {n n' : Node E} {g g' : Generator} {outcome : Except Fault Unit}
    (h : (ready : Visit E Unit).run.run (n, g) = (outcome, (n', g'))) :
    n'.state = if outcome.isOk then .initialized else n.state :=
  state_enter (v := onElementWith (Element.prepare ⟨n.gid, n.vp⟩)) rfl h

theorem prepared_prepare {s : Stop E} {g g' : Generator}
    (h : (prepare : Visit E Unit).run.run (s.node, g) = (s.outcome, (s.left, g'))) : s.Prepared := by
  obtain ⟨⟨n, outcome⟩, left⟩ := s
  dsimp only at h
  rw [run_prepare] at h
  by_cases hcreated : n.state = .created
  · rw [if_pos hcreated, run_onElement] at h
    rcases hrun : (Element.init : Step E Fault Unit).run.run n.element with ⟨fault | _, e⟩
    -- The initialization faults, and the preparation ends there.
    · rw [hrun] at h
      cases h
      refine ⟨nofun, fun _ fault' hinit => ?uninitialized, fun _ hinit => ?unprepared,
        fun hpast => absurd hcreated hpast⟩
      case uninitialized =>
        rw [hrun] at hinit
        exact ⟨hinit, hcreated⟩
      case unprepared =>
        rw [hrun] at hinit
        cases hinit
    -- The instance is initialized, whatever comes of its preparation.
    · rw [hrun] at h
      have hstate : left.state = .initialized := (state_ready h).trans (ite_self _)
      refine ⟨fun _ => hstate, fun _ fault hinit => ?uninitialized, fun _ _ _ _ => hstate,
        fun hpast => absurd hcreated hpast⟩
      rw [hrun] at hinit
      cases hinit
  · rw [if_neg hcreated] at h
    have hstate := state_ready h
    refine ⟨fun hok => ?succeeded, fun hnew => absurd hnew hcreated,
      fun hnew => absurd hnew hcreated, fun _ fault hfault => ?past⟩
    case succeeded =>
      obtain rfl : outcome = .ok () := hok
      exact hstate
    case past =>
      obtain rfl : outcome = .error fault := hfault
      exact hstate

theorem finalized_finalize {s : Stop E} {g g' : Generator}
    (h : (finalize : Visit E Unit).run.run (s.node, g) = (s.outcome, (s.left, g'))) : s.Finalized := by
  have hstate := state_enter (v := onElement Element.finalize) rfl h
  obtain ⟨⟨n, outcome⟩, left⟩ := s
  cases outcome with
  | ok _ => exact ⟨fun _ => hstate, nofun, fun _ => ⟨fun _ => rfl, fun _ => hstate⟩⟩
  | error fault =>
    refine ⟨nofun, fun _ _ => hstate, fun hother => ⟨fun h => ?_, nofun⟩⟩
    exact absurd (hstate.symm.trans h) hother

/-- What becomes of the stage of an instance in a sweep. -/
theorem staged_ofPhase {phase : Phase} {s : Stop E} {g g' : Generator}
    (h : (ofPhase phase : Visit E Unit).run.run (s.node, g) = (s.outcome, (s.left, g'))) :
    s.Staged phase := by
  cases phase with
  | prepare => exact prepared_prepare h
  | finalize => exact finalized_finalize h
  | initState | postRunCleanup => exact congrArg (fun visited => visited.2.1.state) h.symm

end Visit

/-! ## Sweeps over a registry -/

/-- The command that makes a sweep of a kind over all instances. -/
def Phase.command : Phase → Command E
  | .prepare => .prepare
  | .initState => .reinit
  | .finalize => .finalize
  | .postRunCleanup => .postRunCleanup

/-- What the registry knows of an instance, apart from the element itself. -/
def Node.outline (n : Node E) : Seat × NodeState × Bool := (n.seat, n.state, n.frozen)

/-- A sweep makes its stops at all instances of a thread, in the order of their places. It leaves each of
them where it is, frozen or not as it was, and at the stage that its hooks have earned it. -/
structure Worker.Swept [Element E] (phase : Phase) (w w' : Worker E) (stops : List (Stop E)) : Prop where
  toured : Toured phase w.generator stops w'.generator
  found : stops.map (fun s => s.node) = w.store.nodes
  left : stops.map Stop.left = w'.store.nodes
  place : ∀ i (s : Stop E), stops[i]? = some s → s.node.localId = i
  seat : ∀ s ∈ stops, s.left.seat = s.node.seat
  frozen : ∀ s ∈ stops, s.left.frozen = s.node.frozen
  staged : ∀ s ∈ stops, s.Staged phase

namespace Registry

/-- What the registry knows of the instances of each thread. -/
def outlines (r : Registry E) : List (List (Seat × NodeState × Bool)) :=
  r.workers.map fun w => w.store.nodes.map Node.outline

variable [Element E] {r : Registry E} {config : GridConfig} {catalog : Catalog E}

/-- The stops of a sweep on all threads. -/
def stops (r : Registry E) (phase : Phase) : List (Stop E) := r.workers.flatMap (Worker.stops phase)

theorem workers_command (r : Registry E) (phase : Phase) :
    (r.apply phase.command).workers = (r.sweep phase).2.workers := by
  cases phase <;> rfl

/-- Each thread is swept from its first place to its last. -/
theorem Sound.swept (hr : Sound config catalog r) (phase : Phase) {t : Nat} {w : Worker E}
    (hw : r.workers[t]? = some w) :
    ∃ w', (r.apply phase.command).workers[t]? = some w' ∧ w.Swept phase w' (w.stops phase) := by
  have htoured := toured_stopsAt phase w.store.nodes w.generator {}
  have hfound : (w.stops phase).map (fun s => s.node) = w.store.nodes := by
    have hanswers := map_toAnswer_stopsAt phase w.store.nodes w.generator
    rw [← ElementGrid.map_node_answers phase w.store.nodes w.generator, ← hanswers, List.map_map]
    rfl
  refine ⟨(w.sweep (Visit.ofPhase phase)).2, ?_, htoured, hfound,
    map_left_stopsAt phase w.store.nodes w.generator {}, fun i s hs => ?place, fun s hs => ?seat,
    fun s hs => ?frozen, fun s hs => ?staged⟩
  · rw [workers_command, getElem?_sweep, hw, Option.map_some]
  case place =>
    have hnode : w.store.nodes[i]? = some s.node := by
      rw [← hfound, List.getElem?_map, hs]
      rfl
    exact (hr.seat_eq hw hnode).1
  all_goals obtain ⟨g, g', hhooks, hvisit⟩ := htoured.exists_visit hs
  case seat =>
    have hseat := Visit.keepsSeat_ofPhase phase s.node g
    rwa [hvisit] at hseat
  case frozen =>
    obtain ⟨n', hrun, -, -, hfrozen⟩ := Visit.comesTo_ofPhase phase s.node g
    rw [hvisit] at hrun
    exact (congrArg (fun visited => visited.2.1.frozen) hrun).trans hfrozen
  case staged => exact Visit.staged_ofPhase hvisit

omit [Element E] in
/-- Where nothing moves, what the registry knows of its instances is the same before and after if their
stages and their frozen flags are. -/
theorem SameSeats.outlines_eq {r' : Registry E} (h : r.SameSeats r')
    (hsame : ∀ t i n n', r.node? t i = some n → r'.node? t i = some n' →
      n'.state = n.state ∧ n'.frozen = n.frozen) : r'.outlines = r.outlines := by
  have hlength := congrArg List.length h.seats
  simp only [Registry.seats, List.length_map] at hlength
  apply List.ext_getElem?
  intro t
  rw [outlines, outlines, List.getElem?_map, List.getElem?_map]
  by_cases ht : t < r.workers.length
  · have hw := List.getElem?_eq_getElem ht
    have hw' := List.getElem?_eq_getElem (hlength.symm ▸ ht : t < r'.workers.length)
    rw [hw, hw', Option.map_some, Option.map_some]
    refine congrArg some (h.map_eq (fun t i n n' hn hn' hseat => ?_) hw hw')
    obtain ⟨hstate, hfrozen⟩ := hsame t i n n' hn hn'
    rw [Node.outline, Node.outline, hseat, hstate, hfrozen]
  · rw [List.getElem?_eq_none (Nat.not_lt.1 ht), List.getElem?_eq_none (by omega)]

/-- To put the state of one element back changes nothing that the registry knows. -/
theorem outlines_initState (r : Registry E) (gid : Nat) :
    (r.initState gid).registry.outlines = r.outlines := by
  have hseats : r.SameSeats (r.apply (.initState gid)) := sameSeats_apply r _ nofun nofun nofun
  refine hseats.outlines_eq fun t i n n' hn hn' => ?_
  have hafter := after_apply hn hn'
  refine ⟨?_, hafter.frozen_eq fun _ _ h => by cases h⟩
  obtain rfl | ⟨g, rfl⟩ := hafter
  · rfl
  · rfl

/-! ## Active instances -/

/-- A preparation counts the instances that it prepares and that are not frozen. -/
theorem activeCount_prepare (r : Registry E) :
    r.prepare.registry.activeCount = (r.stops .prepare).countP fun s => s.active := by
  have hanswers : (r.stops .prepare).map Stop.toAnswer = r.answers .prepare := by
    rw [stops, List.map_flatMap, answers]
    exact List.flatMap_congr fun w _ => map_toAnswer_stopsAt _ _ _
  have hcount : r.prepare.registry.activeCount = (r.sweep .prepare).1.active := rfl
  rw [hcount, sweep_fst, ← hanswers]
  simp only [SweepReport.ofTallies, List.foldl_cons, List.foldl_nil, Tally.zero_add, Tally.ofAnswers,
    List.countP_map]
  rfl

omit [Element E] in
theorem activeCount_createById (r : Registry E) (id count : Nat) :
    (r.createById id count).registry.activeCount = r.activeCount := by
  rw [createById]
  split
  · rfl
  · split <;> rfl

omit [Element E] in
theorem activeCount_modifyLocal {α : Type} (r : Registry E) (gid thread : Nat)
    (f : Node E → α × Node E) :
    (r.modifyLocal gid thread f).registry.activeCount = r.activeCount := by
  rw [modifyLocal]
  split <;> rfl

theorem activeCount_repartition (r : Registry E) :
    r.repartition.1.activeCount = r.activeCount := by
  rw [repartition]
  split <;> rfl

/-- Only a preparation counts anew, and only a reset forgets the count. -/
theorem activeCount_apply (r : Registry E) {c : Command E} (hprepare : c ≠ .prepare)
    (hreset : c ≠ .reset) : (r.apply c).activeCount = r.activeCount := by
  cases c with
  | create name count =>
    simp only [apply, create]
    split
    · rfl
    · exact activeCount_createById r _ count
  | createById id count => exact activeCount_createById r id count
  | write gid props =>
    simp only [apply, write]
    split
    · rfl
    · split <;> rfl
  | edit gid thread change => exact activeCount_modifyLocal r gid thread _
  | activate gid thread => exact activeCount_modifyLocal r gid thread _
  | initState gid =>
    simp only [apply, initState]
    split <;> rfl
  | ensureLocalIds =>
    simp only [apply, ensureLocalIds]
    split
    · exact activeCount_repartition _
    · rfl
  | relaxingNodes thread =>
    simp only [apply, relaxingNodes]
    split
    · rfl
    · exact activeCount_repartition r
  | checkRelaxationGlobal reply => cases reply <;> rfl
  | reinit | finalize | postRunCleanup | checkRelaxation => rfl
  | prepare => exact absurd rfl hprepare
  | reset => exact absurd rfl hreset

/-- The count stays until the next preparation or reset. -/
theorem activeCount_run (r : Registry E) {commands : List (Command E)} (hprepare : .prepare ∉ commands)
    (hreset : .reset ∉ commands) : (r.run commands).activeCount = r.activeCount := by
  induction commands generalizing r with
  | nil => rfl
  | cons c cs ih =>
    rw [List.mem_cons, not_or] at hprepare hreset
    rw [run_cons, ih _ hprepare.2 hreset.2]
    exact r.activeCount_apply (Ne.symm hprepare.1) (Ne.symm hreset.1)

/-- No instance is active until there is a preparation. -/
theorem activeCount_run_of_zero {r : Registry E} (h : r.activeCount = 0) {commands : List (Command E)}
    (hprepare : .prepare ∉ commands) : (r.run commands).activeCount = 0 := by
  induction commands generalizing r with
  | nil => exact h
  | cons c cs ih =>
    rw [List.mem_cons, not_or] at hprepare
    refine ih ?_ hprepare.2
    by_cases hreset : c = .reset
    · rw [hreset]
      rfl
    · rw [r.activeCount_apply (Ne.symm hprepare.1) hreset, h]

/-! ## All of it -/

/-- In every state that a registry can come to, whatever the hooks of its elements come to: each sweep
stops at every instance of every thread, in the order of their places, and neither moves nor freezes any. A
preparation leaves an instance initialized if its hooks succeed; if not, a new instance is initialized as
far as its initialization went well, and any other stays at its stage. A finalization that succeeds leaves
it finalized, and no other visit changes its stage. To put the state of one element back changes nothing
that the registry knows of its instances. The active instances are those that the last preparation since
a reset prepared and that were not frozen, and none if there was no preparation. -/
theorem sweeps_isolated {dispatch : Dispatch} (hcatalog : catalog.Formed)
    (h : Reachable config catalog dispatch r) :
    (∀ phase : Phase, (r.apply phase.command).threads = r.threads ∧
      ∀ (t : Nat) (w : Worker E), r.workers[t]? = some w →
        ∃ w', (r.apply phase.command).workers[t]? = some w' ∧ w.Swept phase w' (w.stops phase)) ∧
    (∀ gid, (r.initState gid).registry.outlines = r.outlines) ∧
    (∀ later, .prepare ∉ later → .reset ∉ later →
      (r.prepare.registry.run later).activeCount = (r.stops .prepare).countP fun s => s.active) ∧
    (∀ later, .prepare ∉ later → (r.reset.registry.run later).activeCount = 0) ∧
    ∀ fresh later, start config catalog dispatch = .ok fresh → .prepare ∉ later →
      (fresh.run later).activeCount = 0 := by
  have hr := h.sound hcatalog.numbered
  refine ⟨fun phase => ⟨?_, fun t w hw => hr.swept phase hw⟩, r.outlines_initState, fun later => ?_,
    fun later => activeCount_run_of_zero rfl, fun fresh later hstart => ?_⟩
  · have hr' := (hr.apply hcatalog.numbered phase.command).length_workers
    exact hr'.trans hr.length_workers.symm
  · intro hprepare hreset
    rw [activeCount_run _ hprepare hreset, activeCount_prepare]
  · obtain ⟨_, -, hfresh⟩ := Except.bind_eq_ok_iff.1 hstart
    cases hfresh
    exact activeCount_run_of_zero rfl

/-- An element that refuses to be initialized, one that refuses to be prepared and one that does neither.
Each has its turn in a preparation, and only the last of them is active from then on. -/
theorem sweeps_isolated_refusals :
    let catalog : Catalog Probe := .ofEntries
      [("unborn", .normal, { fails := ["init"] }), ("brittle", .normal, { fails := ["prepare"] }),
        ("sturdy", .normal, {})]
    catalog.Formed ∧ ∃ r w w' stops, Reachable {} catalog .inTurn r ∧ r.workers[0]? = some w ∧
      (r.apply .prepare).workers[0]? = some w' ∧ w.Swept .prepare w' stops ∧
      stops.map (fun s => (s.node.gid, s.outcome.isOk, s.left.state)) =
        [(1, false, .created), (2, false, .initialized), (3, true, .initialized)] ∧
      (r.prepare.registry.run [.activate 2 0, .finalize, .reinit]).activeCount = 1 := by
  intro catalog
  have hcatalog : catalog.Formed := Catalog.formed_ofEntries (by decide)
  obtain ⟨r, w, hr, hw, hstops, hactive⟩ : ∃ r w, Reachable {} catalog .inTurn r ∧
      r.workers[0]? = some w ∧
      (w.stops .prepare).map (fun s => (s.node.gid, s.outcome.isOk, s.left.state)) =
        [(1, false, .created), (2, false, .initialized), (3, true, .initialized)] ∧
      ((r.stops .prepare).countP fun s => s.active) = 1 :=
    ⟨_, _, ⟨_, [.create "unborn" 1, .create "brittle" 1, .create "sturdy" 1], rfl, rfl⟩, rfl,
      by decide +kernel, by decide +kernel⟩
  obtain ⟨hswept, -, hcount, -⟩ := sweeps_isolated hcatalog hr
  obtain ⟨w', hw', hthread⟩ := (hswept .prepare).2 0 w hw
  refine ⟨hcatalog, r, w, w', _, hr, hw, hw', hthread, hstops, ?_⟩
  rw [hcount _ (by simp) (by simp), hactive]

end Registry

end ElementGrid
