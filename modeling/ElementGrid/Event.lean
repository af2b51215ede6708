/-!
# Events

What the grid reports to whoever watches it. Operations return their events in the order in which
they happened.

## Main definitions

* `Phase` — the kinds of sweep
* `Event` — what is reported
-/

namespace ElementGrid

/-- The kinds of sweep over the elements of a process. -/
inductive Phase where
  | prepare
  | initState
  | finalize
  | postRunCleanup
  deriving DecidableEq, Repr

/-- The name of a kind of sweep. -/
def Phase.name : Phase → String
  | prepare => "prepare"
  | initState => "init_state"
  | finalize => "finalize"
  | postRunCleanup => "post_run_cleanup"

/-- What is reported. -/
inductive Event where
  /-- Elements of a model were created. -/
  | created (model : String) (count : Nat)
  /-- The process now holds so many instances. -/
  | localNodes (count : Nat)
  /-- A sweep called its hook on so many instances. -/
  | swept (phase : Phase) (processed : Nat)
  /-- So many of the hooks of a sweep faulted. -/
  | sweepFaults (phase : Phase) (count : Nat)
  /-- The list of relaxing instances was made anew and has so many. -/
  | repartitioned (nodes : Nat)
  /-- A gathering sent and received so many bytes. -/
  | gathered (sent received : Nat)
  /-- So many records of a view said nothing new. -/
  | duplicates (count : Nat)
  /-- A record of a view was dropped for another one of the same element. -/
  | conflict
  deriving DecidableEq, Repr

end ElementGrid
