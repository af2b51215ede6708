import ElementGrid.Node
import ElementGrid.Event
/-!
# Sweeps

A sweep calls a hook on every instance. A hook that faults does not stop the sweep: its fault is noted
and the next instance has its turn. When all threads are through, what they noted is put together.

## Main definitions

* `Visit` — what a sweep does with one instance
* `Visit.prepare`, `Visit.initState`, `Visit.finalize`, `Visit.postRunCleanup` — the four visits
* `Tally` — what one thread noted
* `sweepNodes` — the visits of one thread
* `SweepFaults` — the faults of a sweep in order, with their wording
* `SweepReport` — what came of a sweep
-/

namespace ElementGrid

/-- One instance whose hook faulted. -/
structure NodeFault where
  gid : Nat
  vp : Vp
  fault : Fault
  deriving DecidableEq, Repr

/-- The wording of a fault. -/
def NodeFault.text (f : NodeFault) : String := s!"GID {f.gid} on VP {f.vp.text}: {f.fault}"

/-- The faults of a sweep, by number and then by virtual process. -/
structure SweepFaults where
  phase : Phase
  faults : List NodeFault
  deriving DecidableEq, Repr

namespace SweepFaults

/-- The order by number, then by thread and rank. -/
def before (a b : NodeFault) : Bool :=
  a.gid < b.gid || (a.gid == b.gid &&
    (a.vp.thread < b.vp.thread || (a.vp.thread == b.vp.thread && a.vp.rank ≤ b.vp.rank)))

/-- The faults of a sweep in order. -/
def ofList (phase : Phase) (faults : List NodeFault) : SweepFaults :=
  ⟨phase, faults.mergeSort before⟩

/-- The list without what repeats the item before it. -/
def dropRepeats : List Nat → List Nat
  | a :: b :: rest => if a = b then dropRepeats (b :: rest) else a :: dropRepeats (b :: rest)
  | l => l

variable (s : SweepFaults)

/-- How many hooks faulted. -/
def size : Nat := s.faults.length

/-- No hook faulted. -/
def isEmpty : Bool := s.faults.isEmpty

/-- The numbers of the instances whose hooks faulted, each once. -/
def gids : List Nat := dropRepeats (s.faults.map NodeFault.gid)

/-- The wording of the faults of a sweep. -/
def text : String :=
  s!"{s.size} element(s) faulted during {s.phase.name}: " ++
    "; ".intercalate (s.faults.map NodeFault.text)

end SweepFaults

/-- What one thread noted in a sweep. -/
structure Tally where
  processed : Nat := 0
  succeeded : Nat := 0
  /-- Instances that succeeded and are not frozen. -/
  active : Nat := 0
  faults : List NodeFault := []
  deriving DecidableEq, Repr

namespace Tally

/-- The outcome of a hook on an instance is noted. -/
def record {E : Type} (t : Tally) (n : Node E) : Except Fault Unit → Tally
  | .ok () =>
    { t with
      processed := t.processed + 1
      succeeded := t.succeeded + 1
      active := t.active + if n.frozen then 0 else 1 }
  | .error fault =>
    { t with processed := t.processed + 1, faults := t.faults ++ [⟨n.gid, n.vp, fault⟩] }

/-- What two threads noted together. -/
def add (t u : Tally) : Tally :=
  ⟨t.processed + u.processed, t.succeeded + u.succeeded, t.active + u.active, t.faults ++ u.faults⟩

end Tally

/-- What a sweep does with one instance, given the random stream of its thread. -/
abbrev Visit (E α : Type) := Step (Node E × Generator) Fault α

namespace Visit

variable {E : Type}

/-- A hook of the element of an instance. -/
def onElement (h : Step E Fault Unit) : Visit E Unit := fun (n, g) =>
  let (r, e) := h.run.run n.element
  (r, ({ n with element := e }, g))

/-- A hook of the element of an instance that may draw. -/
def onElementWith (h : Step (E × Generator) Fault Unit) : Visit E Unit := fun (n, g) =>
  let (r, (e, g')) := h.run.run (n.element, g)
  (r, ({ n with element := e }, g'))

/-- The instance reaches a stage. -/
def enter (state : NodeState) : Visit E Unit := Step.modifyFirst fun n => { n with state }

variable [Element E]

/-- Initializes an instance that is new, then prepares it. -/
def prepare : Visit E Unit := do
  if (← get).1.state = .created then
    onElement Element.init
    enter .initialized
  let n := (← get).1
  onElementWith (Element.prepare ⟨n.gid, n.vp⟩)
  enter .initialized

/-- Puts the state of an instance back. -/
def initState : Visit E Unit := onElement Element.initState

/-- Finalizes an instance. -/
def finalize : Visit E Unit := do
  onElement Element.finalize
  enter .finalized

/-- Cleans up after an instance. -/
def postRunCleanup : Visit E Unit := onElement Element.postRunCleanup

/-- The visit of a kind of sweep. -/
def ofPhase : Phase → Visit E Unit
  | .prepare => prepare
  | .initState => initState
  | .finalize => finalize
  | .postRunCleanup => postRunCleanup

end Visit

/-- The visits of one thread in order, with what it has noted so far. -/
def sweepNodes {E : Type} (visit : Visit E Unit) :
    List (Node E) → Generator → Tally → List (Node E) × Generator × Tally
  | [], g, t => ([], g, t)
  | n :: ns, g, t =>
    let (r, (n', g')) := visit.run.run (n, g)
    let (ns', g'', t') := sweepNodes visit ns g' (t.record n' r)
    (n' :: ns', g'', t')

/-- What came of a sweep over all threads of a process. -/
structure SweepReport where
  phase : Phase
  processed : Nat
  succeeded : Nat
  /-- Instances that succeeded and are not frozen. -/
  active : Nat
  faults : SweepFaults
  deriving DecidableEq, Repr

namespace SweepReport

/-- What the threads noted, put together in thread order. -/
def ofTallies (phase : Phase) (tallies : List Tally) : SweepReport :=
  let all := tallies.foldl Tally.add {}
  ⟨phase, all.processed, all.succeeded, all.active, .ofList phase all.faults⟩

variable (r : SweepReport)

/-- No hook faulted. -/
def isClean : Bool := r.faults.isEmpty

/-- The faults, if there are any. -/
def faults? : Option SweepFaults := if r.isClean then none else some r.faults

/-- What is reported of a sweep: how many hooks were called, and how many of them faulted, if any. -/
def events : List Event :=
  .swept r.phase r.processed ::
    if r.isClean then [] else [.sweepFaults r.phase r.faults.size]

end SweepReport

end ElementGrid
