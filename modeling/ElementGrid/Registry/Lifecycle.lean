import ElementGrid.Registry.Lookup
/-!
# Sweeps over a registry

Each sweep visits all instances of the process, one thread's after another's or side by side.

## Main definitions

* `Registry.sweep` — the visits of one kind of sweep, with their report
* `Registry.prepare`, `Registry.reinit` — sweeps whose faults are errors
* `Registry.finalize`, `Registry.postRunCleanup` — sweeps whose faults are only reported
* `Registry.initState` — puts the state of one element back
-/

namespace ElementGrid

/-- The visits of one thread. -/
def Worker.sweep {E : Type} (visit : Visit E Unit) (w : Worker E) : Tally × Worker E :=
  let (nodes, generator, tally) := sweepNodes visit w.store.nodes w.generator {}
  (tally, { w with store := { w.store with nodes }, generator })

/-- The visit of one instance of a thread, if it is there, noted in a tally. -/
def Worker.visitOne {E : Type} (visit : Visit E Unit) (gid : Nat) (tally : Tally) (w : Worker E) :
    Tally × Worker E :=
  match w.store.find? gid with
  | none => (tally, w)
  | some n =>
    let (r, (n', generator)) := visit.run.run (n, w.generator)
    (tally.record n' r, { w with store := w.store.modify gid fun _ => n', generator })

namespace Registry

variable {E : Type} [Element E] (r : Registry E)

/-- The visits of one kind of sweep over all threads, with their report. -/
def sweep (phase : Phase) : SweepReport × Registry E :=
  let (tallies, workers) :=
    r.dispatch.updatePartitions (fun _ => Worker.sweep (Visit.ofPhase phase)) r.workers
  (.ofTallies phase tallies, { r with workers })

/-- The outcome of a sweep whose faults are errors. -/
def outcome {α : Type} (report : SweepReport) (value : α) : Except RegistryError α :=
  match report.faults? with
  | some faults => .error (.lifecycleFaults faults)
  | none => .ok value

/-- Initializes and prepares all instances, and counts those that are ready and not frozen. -/
def prepare : Change E Nat :=
  let (report, r') := r.sweep .prepare
  ⟨outcome report report.active, { r' with activeCount := report.active }, report.events⟩

/-- Puts the state of all instances back, and counts them. -/
def reinit : Change E Nat :=
  let (report, r') := r.sweep .initState
  ⟨outcome report report.succeeded, r', report.events⟩

/-- Finalizes all instances. -/
def finalize : Change E SweepReport :=
  let (report, r') := r.sweep .finalize
  ⟨.ok report, r', report.events⟩

/-- Cleans up after all instances. -/
def postRunCleanup : Change E SweepReport :=
  let (report, r') := r.sweep .postRunCleanup
  ⟨.ok report, r', report.events⟩

/-- The visits of one element's instances, thread by thread. -/
def visitAll (visit : Visit E Unit) (gid : Nat) : Tally → List (Worker E) → Tally × List (Worker E)
  | t, [] => (t, [])
  | t, w :: ws =>
    let (t', w') := w.visitOne visit gid t
    let (t'', ws') := visitAll visit gid t' ws
    (t'', w' :: ws')

/-- Puts the state of one element's instances on this process back. -/
def initState (gid : Nat) : Change E Unit :=
  match r.modelOf gid with
  | .error e => ⟨.error e, r, []⟩
  | .ok _ =>
    let (tally, workers) := visitAll Visit.initState gid {} r.workers
    ⟨outcome (.ofTallies .initState [tally]) (), { r with workers }, []⟩

end Registry

end ElementGrid
