import ElementGrid.Element.Basic
/-!
# Probes

Elements for trying out a registry: one with a structural and a dynamic property whose hooks fault on
demand, and one that has nothing at all.

## Main definitions

* `Probe` — an element whose hooks fault on demand
* `Inert` — an element without properties
-/

namespace ElementGrid

open Step (ask assign modifyFirst)

/-- An element with a structural capacity and a dynamic level, whose hooks fault on demand. -/
structure Probe where
  capacity : Int := 0
  level : Double := .zero
  /-- It takes part in waveform relaxation. -/
  relaxes : Bool := false
  /-- The hooks that fault. -/
  fails : List String := []
  deriving DecidableEq, Repr

/-- Faults if the element is to fail in `hook`. -/
def Probe.guard (hook : String) (e : Probe) : Except Fault Unit :=
  if e.fails.contains hook then .error s!"{hook} refused" else .ok ()

/-- The hook of a probe that does nothing or faults. -/
def Probe.hook (name : String) : Step Probe Fault Unit := fun e => (e.guard name, e)

instance : Element Probe where
  status e m := (m.insert "capacity" (.int e.capacity)).insert "level" (.double e.level)
  write := do
    if let some capacity ← ask fun r => r.int "capacity" then
      if capacity < 0 then throw (.badProperty "capacity must be non-negative")
      modifyFirst fun e => { e with capacity }
    assign (← ask fun r => r.double "level") fun level e => { e with level }
  mutability _ key := if key = "capacity" then .structural else .dynamic
  init := Probe.hook "init"
  initState := do
    Probe.hook "init_state"
    modify fun e => { e with level := .zero }
  prepare _ := Step.onFirst (Probe.hook "prepare")
  finalize := Probe.hook "finalize"
  postRunCleanup := Probe.hook "post_run_cleanup"
  usesRelaxation e := e.relaxes

/-- An element without properties, whose hooks do nothing. -/
structure Inert where
  deriving DecidableEq, Repr

instance : Element Inert where
  status _ m := m
  write := pure ()

end ElementGrid
