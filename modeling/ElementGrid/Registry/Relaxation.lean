import ElementGrid.Registry.Lookup
import ElementGrid.Exchange.Program
/-!
# Waveform relaxation

Some elements have to be stepped again and again until their values settle. Each thread keeps a list of
its own that take part and are not frozen; the list is made anew when elements were created or a frozen
flag was written.

## Main definitions

* `Registry.checkRelaxation` — whether an instance of this process takes part
* `Registry.checkRelaxationGlobal` — the same, agreed by all processes
* `Registry.relaxingNodes` — the list of a thread
* `Registry.ensureLocalIds` — brings all threads up to date with the number of elements
-/

namespace ElementGrid

namespace Worker

variable {E : Type} [Element E] (w : Worker E)

/-- Some instance of the thread takes part. -/
def usesRelaxation : Bool := w.store.nodes.any fun n => Element.usesRelaxation n.element

/-- The places of the instances that take part and are not frozen. -/
def relaxingNow : List Nat :=
  (w.store.nodes.filter fun n => Element.usesRelaxation n.element && !n.frozen).map Node.localId

/-- The length of the thread's list for `size` elements, and the worker with that list. -/
def repartition (size : Nat) : Nat × Worker E :=
  let w' :=
    if w.relaxingSize = size then w
    else { w with relaxing := w.relaxingNow, relaxingSize := size }
  (w'.relaxing.length, w')

/-- The worker after its thread has heard how many elements there are. -/
def learnSize (size : Nat) (w : Worker E) : Worker E :=
  { w with store := w.store.raiseMaxGid size }

end Worker

namespace Registry

variable {E : Type} [Element E] (r : Registry E)

/-- Whether some instance of this process takes part, which the registry remembers. -/
def checkRelaxation : Bool × Registry E :=
  let used := (r.dispatch.mapPartitions (fun _ w => w.usesRelaxation) r.workers).any id
  (used, { r with relaxationUsed := used })

/-- Whether some instance of any process takes part. The registry remembers what it finds itself, and
then what all agree on, if they come to agree. -/
def checkRelaxationGlobal : Exchange (Change E Bool) := do
  let (used, r') := r.checkRelaxation
  match ← Exchange.anyTrue used with
  | .ok agreed => return ⟨.ok agreed, { r' with relaxationUsed := agreed }, []⟩
  | .error e => return ⟨.error (.exchange e), r', []⟩

/-- The registry with all lists up to date, and what is reported of making them. -/
def repartition : Registry E × List Event :=
  if r.workers.all fun w => w.relaxingSize = r.size then (r, [])
  else
    let (counts, workers) :=
      r.dispatch.updatePartitions (fun _ w => w.repartition r.size) r.workers
    ({ r with workers }, [.repartitioned (counts.foldr (· + ·) 0)])

/-- The list of a thread. -/
def relaxingNodes (thread : Nat) : Change E (List Nat) :=
  match r.worker thread with
  | .error e => ⟨.error e, r, []⟩
  | .ok _ =>
    let (r', events) := r.repartition
    ⟨(fun w => w.relaxing) <$> r'.worker thread, r', events⟩

/-- Tells all threads how many elements there are. From then on places are trusted until elements are
created; if waveform relaxation is used the lists are brought up to date. -/
def ensureLocalIds : Change E Unit :=
  let told : Registry E :=
    { r with workers := r.workers.map (Worker.learnSize r.size), stale := false }
  let (r', events) := if told.relaxationUsed then told.repartition else (told, [])
  ⟨.ok (), r', events⟩

end Registry

end ElementGrid
