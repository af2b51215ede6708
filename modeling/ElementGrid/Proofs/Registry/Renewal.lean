import ElementGrid.Element.Catalogs
import ElementGrid.Proofs.Registry.Instances
/-!
# Registries that begin anew

A reset leaves nothing of what a registry has gone through. Whatever is done with it from then on and
whatever it is asked, it answers as a registry that was just built from the same configuration and the
same models, draws the same numbers and ends in the same state. How the sweeps of either are worked on
makes no difference.

## Main definitions

* `Command.Value`, `Registry.perform` — what a command answers with
* `Query`, `Registry.ask` — what can be asked of a registry
* `Registry.onto` — the same registry with its sweeps worked on in another way
* `Registry.Indistinguishable` — registries that nobody can tell apart

## Main results

* `Registry.perform_onto` — no answer depends on how sweeps are worked on
* `Registry.indistinguishable_onto` — nor does any history
* `Registry.reset_indistinguishable` — a registry after a reset is as good as new
-/

namespace ElementGrid

variable {E : Type}

/-! ## Commands and queries -/

/-- What a command answers with, if it does not fail. -/
def Command.Value : Command E → Type
  | .create _ _ | .createById _ _ => Collection
  | .activate _ _ | .checkRelaxation | .checkRelaxationGlobal _ => Bool
  | .prepare | .reinit => Nat
  | .finalize | .postRunCleanup => SweepReport
  | .relaxingNodes _ => List Nat
  | .write _ _ | .edit _ _ _ | .initState _ | .ensureLocalIds | .reset => Unit

/-- What can be asked of a registry. -/
inductive Query where
  | get (gid : Nat) (thread : Option Nat)
  | localNode (gid thread : Nat)
  | status (gid : Nat) (thread : Option Nat)
  | siblings (gid : Nat)
  | localNodes (thread : Nat)
  | nodeAt (thread localId : Nat)
  | maxGid (thread : Nat)
  | modelOf (gid : Nat)
  | categoryOf (gid : Nat)
  | isLocal (gid : Nat)
  | size
  | threads
  | localCount
  | activeCount
  | stale
  | relaxationUsed
  deriving DecidableEq, Repr

/-- What a query is answered with, if it does not fail. -/
def Query.Value (E : Type) : Query → Type
  | .get _ _ => Slot E
  | .localNode _ _ | .nodeAt _ _ => Node E
  | .siblings _ | .localNodes _ => List (Node E)
  | .status _ _ => PropertyMap
  | .categoryOf _ => Category
  | .maxGid _ | .modelOf _ | .size | .threads | .localCount | .activeCount => Nat
  | .isLocal _ | .stale | .relaxationUsed => Bool

namespace Registry

variable [Element E]

/-- What a command comes to. -/
def perform (r : Registry E) : (c : Command E) → Change E c.Value
  | .create name count => r.create name count
  | .createById id count => r.createById id count
  | .write gid props => r.write gid props
  | .edit gid thread change => r.edit gid thread change
  | .activate gid thread => r.activate gid thread
  | .prepare => r.prepare
  | .reinit => r.reinit
  | .finalize => r.finalize
  | .postRunCleanup => r.postRunCleanup
  | .initState gid => r.initState gid
  | .ensureLocalIds => r.ensureLocalIds
  | .relaxingNodes thread => r.relaxingNodes thread
  | .checkRelaxation => ⟨.ok r.checkRelaxation.1, r.checkRelaxation.2, []⟩
  | .checkRelaxationGlobal reply => (r.checkRelaxationGlobal.against reply).1
  | .reset => r.reset

theorem registry_perform (r : Registry E) (c : Command E) : (r.perform c).registry = r.apply c := by
  cases c <;> rfl

/-- What a query is answered with. -/
def ask (r : Registry E) : (q : Query) → Except RegistryError (q.Value E)
  | .get gid thread => r.get gid thread
  | .localNode gid thread => r.localNode gid thread
  | .status gid thread => r.status gid thread
  | .siblings gid => r.siblings gid
  | .localNodes thread => r.localNodes thread
  | .nodeAt thread localId => r.nodeAt thread localId
  | .maxGid thread => r.maxGid thread
  | .modelOf gid => r.modelOf gid
  | .categoryOf gid => r.categoryOf gid
  | .isLocal gid => .ok (r.isLocal gid)
  | .size => .ok r.size
  | .threads => .ok r.threads
  | .localCount => .ok r.localCount
  | .activeCount => .ok r.activeCount
  | .stale => .ok r.stale
  | .relaxationUsed => .ok r.relaxationUsed

/-- Nobody can tell the registries apart: whatever was done with both of them, they answer every question
alike, every next command has the same result and is reported alike, and to a round with the other
processes both contribute the same. -/
structure Indistinguishable (r r' : Registry E) : Prop where
  ask : ∀ commands q, (r.run commands).ask q = (r'.run commands).ask q
  result : ∀ commands c, ((r.run commands).perform c).result = ((r'.run commands).perform c).result
  events : ∀ commands c, ((r.run commands).perform c).events = ((r'.run commands).perform c).events
  traffic : ∀ commands reply, ((r.run commands).checkRelaxationGlobal.against reply).2 =
    ((r'.run commands).checkRelaxationGlobal.against reply).2

end Registry

/-! ## Sweeps that are worked on in another way -/

/-- The same registry with its sweeps worked on in another way. -/
def Registry.onto (d : Dispatch) (r : Registry E) : Registry E := { r with dispatch := d }

/-- The same change of the same registry with its sweeps worked on in another way. -/
def Change.onto {α : Type} (d : Dispatch) (c : Change E α) : Change E α :=
  { c with registry := c.registry.onto d }

namespace Registry

variable {d : Dispatch} (r : Registry E)

theorem createById_onto (id count : Nat) :
    (r.onto d).createById id count = (r.createById id count).onto d := by
  have hget : (r.onto d).catalog.get? id = r.catalog.get? id := rfl
  have hnext : (r.onto d).nextGid = r.nextGid := rfl
  rw [createById, createById, hget, hnext]
  cases r.catalog.get? id with
  | none => rfl
  | some m =>
    by_cases hcount : count = 0 ∨ ¬ Word.Fits (r.nextGid + count)
    · simp only [hcount]
      rfl
    · simp only [hcount]
      rfl

theorem create_onto (name : String) (count : Nat) :
    (r.onto d).create name count = (r.create name count).onto d := by
  have hlookup : (r.onto d).catalog.lookup? name = r.catalog.lookup? name := rfl
  rw [create, create, hlookup]
  cases r.catalog.lookup? name with
  | none => rfl
  | some id => exact r.createById_onto id count

theorem modifyLocal_onto {α : Type} (gid thread : Nat) (f : Node E → α × Node E) :
    (r.onto d).modifyLocal gid thread f = (r.modifyLocal gid thread f).onto d := by
  have hlocal : (r.onto d).localNode gid thread = r.localNode gid thread := rfl
  rw [modifyLocal, modifyLocal, hlocal]
  cases r.localNode gid thread <;> rfl

variable [Element E]

theorem write_onto (gid : Nat) (props : PropertyMap) :
    (r.onto d).write gid props = (r.write gid props).onto d := by
  have hplan : (r.onto d).plan gid props = r.plan gid props := rfl
  rw [write, write, hplan]
  rcases r.plan gid props with e | ⟨frozen, staged⟩
  · rfl
  · cases hstaged : staged.all Option.isNone <;> simp only [hstaged] <;> rfl

theorem initState_onto (gid : Nat) :
    (r.onto d).initState gid = (r.initState gid).onto d := by
  have hmodel : (r.onto d).modelOf gid = r.modelOf gid := rfl
  rw [initState, initState, hmodel]
  cases r.modelOf gid <;> rfl

theorem repartition_onto :
    (r.onto d).repartition = (r.repartition.1.onto d, r.repartition.2) := by
  have hall : ((r.onto d).workers.all fun w => w.relaxingSize = (r.onto d).size) =
      r.workers.all fun w => w.relaxingSize = r.size := rfl
  rw [repartition, repartition, hall]
  cases r.workers.all fun w => w.relaxingSize = r.size <;> rfl

theorem relaxingNodes_onto (thread : Nat) :
    (r.onto d).relaxingNodes thread = (r.relaxingNodes thread).onto d := by
  have hworker : (r.onto d).worker thread = r.worker thread := rfl
  rw [relaxingNodes, relaxingNodes, hworker]
  cases r.worker thread with
  | error e => rfl
  | ok w =>
    simp only [repartition_onto]
    rfl

theorem ensureLocalIds_onto :
    (r.onto d).ensureLocalIds = r.ensureLocalIds.onto d := by
  let told : Registry E :=
    { r with workers := r.workers.map (Worker.learnSize r.size), stale := false }
  have hlists : (if told.relaxationUsed then (told.onto d).repartition else (told.onto d, [])) =
      Prod.map (onto d) id (if told.relaxationUsed then told.repartition else (told, [])) := by
    cases told.relaxationUsed
    · rfl
    · exact told.repartition_onto
  exact congrArg (fun made => (⟨.ok (), made.1, made.2⟩ : Change E Unit)) hlists

theorem checkRelaxationGlobal_onto (reply : Except ExchangeError Gathered) :
    (r.onto d).checkRelaxationGlobal.against reply =
      ((r.checkRelaxationGlobal.against reply).1.onto d,
        (r.checkRelaxationGlobal.against reply).2) := by
  cases reply <;> rfl

/-- How sweeps are worked on makes no difference to what a command comes to. -/
theorem perform_onto (c : Command E) : (r.onto d).perform c = (r.perform c).onto d := by
  cases c with
  | create name count => exact r.create_onto name count
  | createById id count => exact r.createById_onto id count
  | write gid props => exact r.write_onto gid props
  | edit gid thread change =>
    exact r.modifyLocal_onto gid thread fun n => ((), { n with element := change n.element })
  | activate gid thread => exact r.modifyLocal_onto gid thread _
  | initState gid => exact r.initState_onto gid
  | ensureLocalIds => exact r.ensureLocalIds_onto
  | relaxingNodes thread => exact r.relaxingNodes_onto thread
  | checkRelaxationGlobal reply => exact congrArg Prod.fst (r.checkRelaxationGlobal_onto reply)
  | prepare | reinit | finalize | postRunCleanup | checkRelaxation | reset => rfl

theorem apply_onto (c : Command E) : (r.onto d).apply c = (r.apply c).onto d := by
  rw [← registry_perform, ← registry_perform, perform_onto]
  rfl

/-- Nor does it make a difference to where a history leads. -/
theorem run_onto (commands : List (Command E)) :
    (r.onto d).run commands = (r.run commands).onto d := by
  induction commands generalizing r with
  | nil => rfl
  | cons c cs ih => rw [run_cons, run_cons, apply_onto, ih]

theorem ask_onto (q : Query) : (r.onto d).ask q = r.ask q := by
  cases q <;> rfl

/-- Nobody can tell how the sweeps of a registry are worked on. -/
theorem indistinguishable_onto (d : Dispatch) : (r.onto d).Indistinguishable r where
  ask commands q := by rw [run_onto, ask_onto]
  result commands c := by
    rw [run_onto, perform_onto]
    rfl
  events commands c := by
    rw [run_onto, perform_onto]
    rfl
  traffic commands reply := by rw [run_onto, checkRelaxationGlobal_onto]

/-! ## Registries after a reset -/

variable {r} {config : GridConfig} {catalog : Catalog E} {dispatch : Dispatch}

/-- A registry has the configuration, the models and the way to work on sweeps that it was built with. -/
theorem Reachable.frame (h : Reachable config catalog dispatch r) :
    r.config = config ∧ r.catalog = catalog ∧ r.dispatch = dispatch := by
  refine Reachable.induction
    (P := fun r => r.config = config ∧ r.catalog = catalog ∧ r.dispatch = dispatch)
    (fun fresh hstart => ?start) (fun r c hr => ?apply) h
  case start =>
    obtain ⟨-, rfl⟩ := start_eq_ok_iff.1 hstart
    exact ⟨rfl, rfl, rfl⟩
  case apply =>
    obtain ⟨hconfig, hcatalog, hdispatch⟩ := hr
    obtain ⟨hconfig', hcatalog', -⟩ := frame_apply r c
    have hkept := congrArg Registry.dispatch (r.apply_onto (d := r.dispatch) c)
    exact ⟨hconfig'.trans hconfig, hcatalog'.trans hcatalog, hkept.trans hdispatch⟩

/-- A reset takes a registry back to where it was built. -/
theorem Reachable.start_eq_reset (h : Reachable config catalog dispatch r) :
    start config catalog dispatch = .ok r.reset.registry := by
  obtain ⟨hconfig, hcatalog, hdispatch⟩ := h.frame
  obtain ⟨fresh, -, hstart, -⟩ := h
  obtain ⟨-, rfl⟩ := start_eq_ok_iff.1 hstart
  rw [hstart, reset, hconfig, hcatalog, hdispatch]

/-- Whatever a registry has gone through, a reset succeeds and gives what is newly built from the same
configuration and the same models; if that works on its sweeps in another way still nobody can tell the
two apart, and whatever is done with both of them they end in the same state. -/
theorem reset_indistinguishable (h : Reachable config catalog dispatch r) :
    r.reset.result = .ok () ∧ start config catalog dispatch = .ok r.reset.registry ∧
      ∀ dispatch', ∃ fresh, start config catalog dispatch' = .ok fresh ∧
        r.reset.registry.Indistinguishable fresh ∧
        ∀ commands, r.reset.registry.run commands = (fresh.run commands).onto dispatch := by
  refine ⟨rfl, h.start_eq_reset, fun dispatch' => ?_⟩
  obtain ⟨_, hcheck, hfresh⟩ := Except.bind_eq_ok_iff.1 h.start_eq_reset
  let fresh : Registry E :=
    { config, catalog, dispatch := dispatch', workers := freshWorkers config }
  have honto : r.reset.registry = fresh.onto dispatch := by
    cases hfresh
    rfl
  refine ⟨fresh, Except.bind_eq_ok_iff.2 ⟨_, hcheck, rfl⟩, ?_, fun commands => ?_⟩
  · rw [honto]
    exact fresh.indistinguishable_onto dispatch
  · rw [honto, run_onto]

/-- A pooled registry holds relaxing elements, one of them frozen, when it is reset. It is then asked for
elements of another model and draws numbers to prepare them, as one does that is new and works in turn. -/
theorem reset_indistinguishable_pooled :
    let config : GridConfig := { processes := 2, threads := 2, rank := 1 }
    let pool : Dispatch := .pooled { workers := 3 }
    ∃ used fresh : Registry StandardElement,
      Reachable config StandardElement.catalog pool used ∧ used.relaxationUsed = true ∧
        used.activeCount = 2 ∧
        start config StandardElement.catalog .inTurn = .ok fresh ∧
        used.reset.registry.Indistinguishable fresh ∧
        used.reset.registry.run [.create "counter" 4, .prepare] =
          (fresh.run [.create "counter" 4, .prepare]).onto pool := by
  intro config pool
  let history : List (Command StandardElement) :=
    [.create "relaxing" 6, .checkRelaxation, .write 3 (.ofList [("frozen", .bool true)]), .prepare]
  obtain ⟨used, hused, hrelaxation, hactive⟩ : ∃ used : Registry StandardElement,
      Reachable config StandardElement.catalog pool used ∧ used.relaxationUsed = true ∧
        used.activeCount = 2 :=
    ⟨_, ⟨_, history, rfl, rfl⟩, by decide +kernel, by decide +kernel⟩
  obtain ⟨-, -, halike⟩ := reset_indistinguishable hused
  obtain ⟨fresh, hfresh, hindistinguishable, hrun⟩ := halike .inTurn
  exact ⟨used, fresh, hused, hrelaxation, hactive, hfresh, hindistinguishable, hrun _⟩

end Registry

end ElementGrid
