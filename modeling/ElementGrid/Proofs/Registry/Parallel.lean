import Mathlib.Logic.Function.Iterate
import ElementGrid.Element.Catalogs
import ElementGrid.Registry.Lifecycle
import ElementGrid.Proofs.Sweep
/-!
# Workers that sweep at once

The workers of a pool sweep side by side. Each calls the hooks of its own instances one after the other,
and which worker is next is up to the machine. When all are through, what they noted is collected by
thread.

A hook call touches an instance and the stream of its thread and nothing else, so of a mixed run each
worker sees its own calls only. Whatever the order, it leaves what it would have left alone.

## Main definitions

* `Visit.call` — a visit up to the end of its next hook
* `Sweeper`, `Sweeper.call` — a worker in the middle of a sweep, and its next hook call
* `Registry.turns` — hook calls of the workers in the order of a schedule
* `Registry.join` — what is left of a sweep when its workers are through
* `Registry.SweptBy` — an order of the hook calls in which all get through, and what it leaves
* `Registry.inTurn` — the order in which one worker is through before the next begins

## Main results

* `Sweeper.outcome_call` — no hook call changes what a worker comes to in the end
* `Registry.getElem?_turns` — of a mixed run a worker sees its own calls
* `Registry.over_turns` — with turns enough for each, all workers get through
* `Registry.sweep_of_sweptBy` — in whatever order, a sweep comes to what it comes to in turn
-/

namespace ElementGrid

variable {E : Type} [Element E]

/-! ## Hook calls -/

namespace Visit

/-- A visit up to the end of its next hook, with whether it is over then. Only the preparation of a new
instance has two hooks. -/
def call : Phase → Visit E Bool
  | .prepare => do
    if (← get).1.state = .created then
      onElement Element.init
      enter .initialized
      return false
    else
      ready
      return true
  | phase => do
    ofPhase phase
    return true

/-- Hook by hook a visit comes to what it comes to as a whole: either the hook was its last, or the same
visit is yet to be paid to what the hook has left, an instance that is no longer new. -/
theorem call_cases (phase : Phase) (n : Node E) (g : Generator) :
    (∃ result s, (call phase).run.run (n, g) = (result.map fun _ => true, s) ∧
      (ofPhase phase).run.run (n, g) = (result, s)) ∨
    (∃ s : Node E × Generator, (call phase).run.run (n, g) = (.ok false, s) ∧
      (ofPhase phase).run.run (n, g) = (ofPhase phase).run.run s ∧
      phase = .prepare ∧ n.state = .created ∧ s.1.state = .initialized) := by
  -- A visit that is followed by nothing but its answer.
  have hlast : ∀ v : Visit E Unit, ∃ result s,
      (v >>= fun _ => pure true : Visit E Bool).run.run (n, g) = (result.map fun _ => true, s) ∧
        v.run.run (n, g) = (result, s) := by
    intro v
    rw [Step.run_bind]
    rcases v.run.run (n, g) with ⟨fault | _, s⟩ <;> exact ⟨_, _, rfl, rfl⟩
  cases phase with
  | prepare =>
    rw [call, Step.run_bind]
    show (∃ result s, (ite _ _ _ : Visit E Bool).run.run (n, g) = _ ∧ _) ∨
      (∃ s, (ite _ _ _ : Visit E Bool).run.run (n, g) = _ ∧ _)
    by_cases hnew : n.state = .created
    · simp only [if_pos hnew, ofPhase, run_prepare, Step.run_bind]
      rcases (onElement (Element.init : Step E Fault Unit)).run.run (n, g) with ⟨fault | _, n', g'⟩
      · exact .inl ⟨.error fault, _, rfl, rfl⟩
      · exact .inr ⟨({ n' with state := .initialized }, g'), rfl, rfl, trivial, hnew, rfl⟩
    · simp only [if_neg hnew, ofPhase, run_prepare]
      exact .inl (hlast ready)
  | initState => exact .inl (hlast _)
  | finalize => exact .inl (hlast _)
  | postRunCleanup => exact .inl (hlast _)

end Visit

/-! ## Workers in the middle of a sweep -/

/-- A worker in the middle of a sweep. -/
structure Sweeper (E : Type) where
  /-- The instances whose visits are over. -/
  done : List (Node E) := []
  /-- The instances still to be visited; of the first one a hook may have run. -/
  rest : List (Node E)
  generator : Generator
  tally : Tally := {}

namespace Sweeper

omit [Element E] in
def ofWorker (w : Worker E) : Sweeper E := { rest := w.store.nodes, generator := w.generator }

/-- The worker with what it has as its thread's own. -/
def leave (s : Sweeper E) (w : Worker E) : Worker E :=
  { w with store := { w.store with nodes := s.done ++ s.rest }, generator := s.generator }

variable (phase : Phase) (s : Sweeper E)

/-- The visit of the next instance is over. -/
def finish (n : Node E) (ns : List (Node E)) (g : Generator) (result : Except Fault Unit) : Sweeper E :=
  ⟨s.done ++ [n], ns, g, s.tally.record n result⟩

/-- The next hook call of the worker, if there is one left. -/
def call : Sweeper E :=
  match s.rest with
  | [] => s
  | n :: ns =>
    match (Visit.call phase).run.run (n, s.generator) with
    | (.ok false, (n', g)) => { s with rest := n' :: ns, generator := g }
    | (.ok true, (n', g)) => s.finish n' ns g (.ok ())
    | (.error fault, (n', g)) => s.finish n' ns g (.error fault)

/-- What the worker has in the end, if it goes on alone. -/
def outcome : List (Node E) × Generator × Tally :=
  let (nodes, g, t) := sweepNodes (Visit.ofPhase phase) s.rest s.generator s.tally
  (s.done ++ nodes, g, t)

/-- A bound of the hook calls that are left: one for each instance, and one more to initialize each new
one. -/
def callsLeft : Nat :=
  s.rest.length + s.rest.countP fun n => phase = .prepare && n.state = .created

theorem outcome_call : (s.call phase).outcome phase = s.outcome phase := by
  obtain ⟨done, _ | ⟨n, ns⟩, g, t⟩ := s
  · rfl
  · obtain ⟨result, ⟨n', g'⟩, hcall, hvisit⟩ | ⟨⟨n', g'⟩, hcall, hvisit, -⟩ :=
      Visit.call_cases phase n g
    · cases result <;>
        simp only [call, hcall, Except.map, finish, outcome, sweepNodes, hvisit, List.append_assoc,
          List.cons_append, List.nil_append]
    · simp only [call, hcall, outcome, sweepNodes, hvisit]

theorem callsLeft_call : (s.call phase).callsLeft phase ≤ s.callsLeft phase - 1 := by
  obtain ⟨done, _ | ⟨n, ns⟩, g, t⟩ := s
  · exact Nat.le_refl 0
  · obtain ⟨result, ⟨n', g'⟩, hcall, -⟩ | ⟨⟨n', g'⟩, hcall, -, rfl, hnew, hready⟩ :=
      Visit.call_cases phase n g
    · cases result <;> simp only [call, hcall, Except.map, finish, callsLeft, List.length_cons,
        List.countP_cons] <;> omega
    · have hready : n'.state = .initialized := hready
      simp [call, hcall, callsLeft, hnew, hready]

omit [Element E] in
theorem callsLeft_ofWorker_le (w : Worker E) : (ofWorker w).callsLeft phase ≤ 2 * w.store.size := by
  have := List.countP_le_length (p := fun n : Node E => phase = .prepare && n.state = .created)
    (l := w.store.nodes)
  show w.store.nodes.length + w.store.nodes.countP _ ≤ 2 * w.store.nodes.length
  omega

theorem outcome_iterate (k : Nat) : ((call phase)^[k] s).outcome phase = s.outcome phase := by
  induction k with
  | zero => rfl
  | succ k ih => rw [Function.iterate_succ_apply', outcome_call, ih]

theorem callsLeft_iterate (k : Nat) :
    ((call phase)^[k] s).callsLeft phase ≤ s.callsLeft phase - k := by
  induction k with
  | zero => exact Nat.le_refl _
  | succ k ih =>
    have hstep := callsLeft_call phase ((call phase)^[k] s)
    rw [Function.iterate_succ_apply']
    omega

variable {s}

theorem outcome_of_rest_eq_nil (h : s.rest = []) :
    s.outcome phase = (s.done, s.generator, s.tally) := by
  simp only [outcome, h, sweepNodes, List.append_nil]

/-- A worker that is through, after whatever number of its hook calls, leaves what it would have left if it
had swept in one go. -/
theorem leave_of_rest_eq_nil {w : Worker E} {k : Nat}
    (h : ((call phase)^[k] (ofWorker w)).rest = []) :
    (((call phase)^[k] (ofWorker w)).tally, ((call phase)^[k] (ofWorker w)).leave w) =
      w.sweep (Visit.ofPhase phase) := by
  have hend : ((call phase)^[k] (ofWorker w)).outcome phase =
      sweepNodes (Visit.ofPhase phase) w.store.nodes w.generator {} :=
    outcome_iterate phase (ofWorker w) k
  rw [outcome_of_rest_eq_nil phase h] at hend
  rw [Worker.sweep, ← hend, leave, h, List.append_nil]

end Sweeper

/-! ## Sweeps of several workers -/

namespace Registry

variable (r : Registry E) (phase : Phase)

/-- The workers of a process after some hook calls, taken in the order of the schedule by the threads that
it names. A worker that is through lets its turns pass. -/
def turns (schedule : List Nat) : List (Sweeper E) :=
  schedule.foldl (fun ss thread => ss.modify thread (Sweeper.call phase))
    (r.workers.map Sweeper.ofWorker)

/-- What is left of a sweep when its workers have got so far: what they noted, collected by thread, and the
registry with what they have. -/
def join (ss : List (Sweeper E)) : SweepReport × Registry E :=
  let swept := r.workers.zipWith (fun w s => (s.tally, s.leave w)) ss
  (.ofTallies phase (swept.map Prod.fst), { r with workers := swept.map Prod.snd })

/-- In this order of the hook calls all workers get through, and they leave this report and this
registry. -/
def SweptBy (schedule : List Nat) (report : SweepReport) (r' : Registry E) : Prop :=
  (∀ s ∈ r.turns phase schedule, s.rest = []) ∧
    r.join phase (r.turns phase schedule) = (report, r')

omit [Element E] in
/-- The order in which one worker is through before the next begins, with two calls for each instance. -/
def inTurn : List Nat :=
  (r.workers.mapIdx fun thread w => List.replicate (2 * w.store.size) thread).flatten

/-- Of a mixed run a worker sees its own calls, and all of them. -/
theorem getElem?_turns (schedule : List Nat) (thread : Nat) :
    (r.turns phase schedule)[thread]? =
      r.workers[thread]?.map fun w =>
        (Sweeper.call phase)^[schedule.count thread] (Sweeper.ofWorker w) := by
  have hall : ∀ ss : List (Sweeper E),
      (schedule.foldl (fun ss thread => ss.modify thread (Sweeper.call phase)) ss)[thread]? =
        ss[thread]?.map (Sweeper.call phase)^[schedule.count thread] := by
    induction schedule with
    | nil => intro ss; simp
    | cons next rest ih =>
      intro ss
      rw [List.foldl_cons, ih, List.getElem?_modify, List.count_cons]
      by_cases hnext : next = thread
      · simp [hnext, Function.comp_def]
      · simp [hnext]
  rw [turns, hall, List.getElem?_map, Option.map_map]
  rfl

/-- With turns enough for each, all workers get through. Two for each instance are enough. -/
theorem over_turns {schedule : List Nat}
    (h : ∀ thread w, r.workers[thread]? = some w → 2 * w.store.size ≤ schedule.count thread) :
    ∀ s ∈ r.turns phase schedule, s.rest = [] := by
  intro s hs
  obtain ⟨thread, hthread⟩ := List.mem_iff_getElem?.1 hs
  rw [getElem?_turns, Option.map_eq_some_iff] at hthread
  obtain ⟨w, hw, rfl⟩ := hthread
  have hleft := Sweeper.callsLeft_iterate phase (Sweeper.ofWorker w) (schedule.count thread)
  have hstart := Sweeper.callsLeft_ofWorker_le phase w
  have henough := h thread w hw
  have hlength : ((Sweeper.call phase)^[schedule.count thread] (Sweeper.ofWorker w)).rest.length = 0 := by
    rw [Sweeper.callsLeft] at hleft
    omega
  exact List.length_eq_zero_iff.1 hlength

/-- In whatever order the workers got through, they leave what they leave in turn. -/
theorem join_turns {schedule : List Nat} (h : ∀ s ∈ r.turns phase schedule, s.rest = []) :
    r.join phase (r.turns phase schedule) = r.sweep phase := by
  have hswept : r.workers.zipWith (fun w s => (s.tally, s.leave w)) (r.turns phase schedule) =
      r.workers.mapIdx fun _ => Worker.sweep (Visit.ofPhase phase) := by
    ext1 thread
    have hs := r.getElem?_turns phase schedule thread
    rw [List.getElem?_zipWith, List.getElem?_mapIdx]
    cases hw : r.workers[thread]? with
    | none => rfl
    | some w =>
      rw [hw, Option.map_some] at hs
      have hover := h _ (List.mem_of_getElem? hs)
      rw [hs, Option.map_some, ← Sweeper.leave_of_rest_eq_nil phase hover]
  rw [join, hswept, sweep, Dispatch.updatePartitions]

omit [Element E] in
theorem le_count_inTurn {thread : Nat} {w : Worker E} (hw : r.workers[thread]? = some w) :
    2 * w.store.size ≤ r.inTurn.count thread := by
  have hpart : List.replicate (2 * w.store.size) thread ∈
      r.workers.mapIdx fun thread w => List.replicate (2 * w.store.size) thread := by
    refine List.mem_of_getElem? (i := thread) ?_
    rw [List.getElem?_mapIdx, hw, Option.map_some]
  have hcount := (List.sublist_flatten_of_mem hpart).count_le thread
  rwa [List.count_replicate_self] at hcount

/-- However the hook calls of the workers are mixed, once all are through every thread has the instances
and the stream that it has when the threads are swept one after the other, and the report is the same, so
each of the four operations comes to what it comes to in turn. Any order that goes on long enough gets all
of them through, and to take them one after the other is one of these orders. -/
theorem sweep_of_sweptBy (r : Registry E) :
    (∀ phase, r.SweptBy phase r.inTurn (r.sweep phase).1 (r.sweep phase).2) ∧
    ∀ schedule,
      ((∀ thread w, r.workers[thread]? = some w → 2 * w.store.size ≤ schedule.count thread) →
        ∀ phase, ∃ report r', r.SweptBy phase schedule report r') ∧
      ∀ report r',
        (∀ phase, r.SweptBy phase schedule report r' → r.sweep phase = (report, r')) ∧
        (r.SweptBy .prepare schedule report r' →
          r.prepare = ⟨outcome report report.active, { r' with activeCount := report.active },
            report.events⟩) ∧
        (r.SweptBy .initState schedule report r' →
          r.reinit = ⟨outcome report report.succeeded, r', report.events⟩) ∧
        (r.SweptBy .finalize schedule report r' → r.finalize = ⟨.ok report, r', report.events⟩) ∧
        (r.SweptBy .postRunCleanup schedule report r' →
          r.postRunCleanup = ⟨.ok report, r', report.events⟩) := by
  have hsweep : ∀ phase schedule report r', r.SweptBy phase schedule report r' →
      r.sweep phase = (report, r') := by
    rintro phase schedule report r' ⟨hover, hjoin⟩
    rw [← r.join_turns phase hover, hjoin]
  refine ⟨fun phase => ?inTurn, fun schedule => ⟨fun henough phase => ?through, fun report r' =>
    ⟨fun phase => hsweep phase schedule report r', ?prepare, ?reinit, ?finalize, ?cleanup⟩⟩⟩
  case inTurn =>
    have hover := r.over_turns phase fun _ _ => r.le_count_inTurn
    exact ⟨hover, r.join_turns phase hover⟩
  case through => exact ⟨_, _, r.over_turns phase henough, rfl⟩
  case prepare =>
    intro h
    rw [prepare, hsweep _ _ _ _ h]
  case reinit =>
    intro h
    rw [reinit, hsweep _ _ _ _ h]
  case finalize =>
    intro h
    rw [finalize, hsweep _ _ _ _ h]
  case cleanup =>
    intro h
    rw [postRunCleanup, hsweep _ _ _ _ h]

/-- Two threads take turns at preparing two counters, which draw, and two elements of which one refuses. -/
theorem sweep_of_sweptBy_alternating :
    ∃ fresh : Registry StandardElement,
      start { processes := 1, threads := 2, rank := 0 }
        (StandardElement.catalogWith { failOn := [4] }) = .ok fresh ∧
      let r := ((fresh.create "counter" 2).registry.create "faulty" 2).registry
      let schedule := [1, 0, 0, 1, 1, 0, 1, 0]
      (∀ thread w, r.workers[thread]? = some w → 2 * w.store.size ≤ schedule.count thread) ∧
      ∃ report r', r.SweptBy .prepare schedule report r' ∧ report.faults.gids = [4] ∧
        r.prepare = ⟨outcome report report.active, { r' with activeCount := report.active },
          report.events⟩ := by
  refine ⟨_, rfl, ?_⟩
  intro r schedule
  have henough : ∀ thread w, r.workers[thread]? = some w →
      2 * w.store.size ≤ schedule.count thread := by
    have hall : ∀ thread < r.workers.length, ∀ w ∈ r.workers[thread]?,
        2 * w.store.size ≤ schedule.count thread := by decide +kernel
    intro thread w hw
    exact hall thread (List.getElem?_eq_some_iff.1 hw).1 w hw
  have hfaults : (r.sweep .prepare).1.faults.gids = [4] := by decide +kernel
  obtain ⟨report, r', hswept⟩ := ((sweep_of_sweptBy r).2 schedule).1 henough .prepare
  obtain ⟨hsweep, hprepare, -⟩ := ((sweep_of_sweptBy r).2 schedule).2 report r'
  rw [hsweep .prepare hswept] at hfaults
  exact ⟨henough, report, r', hswept, hfaults, hprepare hswept⟩

end Registry

end ElementGrid
