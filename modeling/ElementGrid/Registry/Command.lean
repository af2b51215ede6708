import ElementGrid.Registry.Create
import ElementGrid.Registry.Lifecycle
import ElementGrid.Registry.Relaxation
import ElementGrid.Registry.Status
/-!
# Histories of a registry

What a registry has gone through is a list of commands. A state is reachable if some list of commands
leads to it from a registry without elements.

## Main definitions

* `Command` — an operation that may change a registry
* `Registry.apply`, `Registry.run` — the registry after a command and after a list of them
* `Registry.Reachable` — the states that a registry can come to

## Design notes

A command that fails is part of a history like any other, because a failing operation may have changed
something.
-/

namespace ElementGrid

/-- An operation that may change a registry of elements of type `E`. -/
inductive Command (E : Type) where
  | create (name : String) (count : Nat)
  | createById (id count : Nat)
  | write (gid : Nat) (props : PropertyMap)
  /-- The element of the instance on a thread is changed by whoever has a hold of it. -/
  | edit (gid thread : Nat) (change : E → E)
  | activate (gid thread : Nat)
  | prepare
  | reinit
  | finalize
  | postRunCleanup
  | initState (gid : Nat)
  | ensureLocalIds
  | relaxingNodes (thread : Nat)
  | checkRelaxation
  /-- The check that all processes agree on, in a round that ends with `reply`. -/
  | checkRelaxationGlobal (reply : Except ExchangeError Gathered)
  | reset

namespace Registry

variable {E : Type}

/-- The element of an instance on a thread changed in place. -/
def edit (r : Registry E) (gid thread : Nat) (change : E → E) : Change E Unit :=
  r.modifyLocal gid thread fun n => ((), { n with element := change n.element })

variable [Element E]

/-- The registry after a command. -/
def apply (r : Registry E) : Command E → Registry E
  | .create name count => (r.create name count).registry
  | .createById id count => (r.createById id count).registry
  | .write gid props => (r.write gid props).registry
  | .edit gid thread change => (r.edit gid thread change).registry
  | .activate gid thread => (r.activate gid thread).registry
  | .prepare => r.prepare.registry
  | .reinit => r.reinit.registry
  | .finalize => r.finalize.registry
  | .postRunCleanup => r.postRunCleanup.registry
  | .initState gid => (r.initState gid).registry
  | .ensureLocalIds => r.ensureLocalIds.registry
  | .relaxingNodes thread => (r.relaxingNodes thread).registry
  | .checkRelaxation => r.checkRelaxation.2
  | .checkRelaxationGlobal reply => (r.checkRelaxationGlobal.against reply).1.registry
  | .reset => r.reset.registry

/-- The registry after a list of commands. -/
def run (r : Registry E) (commands : List (Command E)) : Registry E := commands.foldl apply r

/-- Some list of commands leads to the registry from one without elements. -/
def Reachable (config : GridConfig) (catalog : Catalog E) (dispatch : Dispatch) (r : Registry E) :
    Prop :=
  ∃ fresh commands, start config catalog dispatch = .ok fresh ∧ fresh.run commands = r

@[simp]
theorem run_nil (r : Registry E) : r.run [] = r := rfl

@[simp]
theorem run_cons (r : Registry E) (c : Command E) (cs : List (Command E)) :
    r.run (c :: cs) = (r.apply c).run cs := rfl

@[simp]
theorem run_append (r : Registry E) (cs ds : List (Command E)) :
    r.run (cs ++ ds) = (r.run cs).run ds := by
  simp [run, List.foldl_append]

/-- What holds of registries without elements and survives every command holds of every reachable
state. -/
theorem Reachable.induction {config : GridConfig} {catalog : Catalog E} {dispatch : Dispatch}
    {P : Registry E → Prop} (hstart : ∀ r, start config catalog dispatch = .ok r → P r)
    (happly : ∀ r c, P r → P (r.apply c)) {r : Registry E} (h : Reachable config catalog dispatch r) :
    P r := by
  obtain ⟨fresh, commands, hfresh, rfl⟩ := h
  have hrun : ∀ cs r, P r → P (r.run cs) := by
    intro cs
    induction cs with
    | nil => exact fun _ hr => hr
    | cons c cs ih => exact fun r hr => ih (r.apply c) (happly r c hr)
  exact hrun commands fresh (hstart fresh hfresh)

end Registry

end ElementGrid
