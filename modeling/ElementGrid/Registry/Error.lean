import ElementGrid.Config
import ElementGrid.Exchange.Gathered
import ElementGrid.Sweep
/-!
# Registry errors

## Main definitions

* `RegistryError` — why a registry refuses or fails, with its wording
-/

namespace ElementGrid

/-- Why a registry refuses or fails. -/
inductive RegistryError where
  /-- No model has the name. -/
  | unknownModel (name : String)
  /-- No model has the number. -/
  | unknownModelId (id : Nat)
  /-- The name is taken. -/
  | duplicateModel (name : String)
  /-- No element has the number. -/
  | unknownElement (gid : Nat)
  /-- The thread holds no instance of the element. -/
  | notLocal (gid thread : Nat)
  /-- The element has one instance only. -/
  | notReplicated (gid : Nat)
  /-- The process has no such thread. -/
  | invalidThread (thread threads : Nat)
  /-- The thread has no such place. -/
  | outOfRange (localId size : Nat)
  /-- Elements were created since the threads were last brought up to date. -/
  | staleLocalIds
  /-- So many elements cannot be created. -/
  | invalidCount (count : Nat)
  /-- The properties are refused. -/
  | property (error : PropertyError)
  /-- A structural property cannot be written at this stage of life. -/
  | illegalWrite (gid : Nat) (key : String) (state : NodeState)
  /-- Hooks faulted. -/
  | lifecycleFaults (faults : SweepFaults)
  /-- The configuration is refused. -/
  | config (error : ConfigError)
  /-- The exchange fails. -/
  | exchange (error : ExchangeError)
  deriving DecidableEq, Repr

/-- The wording of a registry error. -/
def RegistryError.message : RegistryError → String
  | unknownModel name => s!"unknown model '{name}'"
  | unknownModelId id => s!"unknown model id {ModelId.label id}"
  | duplicateModel name => s!"model '{name}' is already registered"
  | unknownElement gid => s!"GID {gid} does not name an existing element"
  | notLocal gid thread => s!"GID {gid} is not hosted on thread {thread}"
  | notReplicated gid => s!"GID {gid} is not a replicated element"
  | invalidThread thread threads =>
    s!"thread {thread} out of range for {threads} threads per process"
  | outOfRange localId size => s!"local id {localId} out of range for {size} hosted elements"
  | staleLocalIds =>
    "thread-local ids are stale; call ensure_valid_thread_local_ids first"
  | invalidCount count => s!"cannot create {count} elements"
  | property error => error.message
  | illegalWrite gid key state =>
    s!"property '{key}' of GID {gid} cannot be written in state {state.name}"
  | lifecycleFaults faults => faults.text
  | config error => error.message
  | exchange error => error.message

end ElementGrid
