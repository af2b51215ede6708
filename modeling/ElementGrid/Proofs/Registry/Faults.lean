import ElementGrid.Element.Probe
import ElementGrid.Proofs.Registry.Writing
import ElementGrid.Proofs.Sweep
/-!
# What a sweep reports

A sweep over a registry calls the hooks of every instance, thread by thread. Its report tells each fault
once and counts every instance, whichever threads fault and whatever their instances are.

## Main definitions

* `Registry.hosted` — the instances of all threads
* `Registry.answers`, `Registry.answersOf` — what the hooks of all instances, or of one element's, come to
* `SweepReport.Exact` — the report of a sweep tells what the hooks have come to

## Main results

* `Registry.exact_sweep` — the report of a sweep
* `Registry.faults_exact` — the five operations that sweep, with what each of them returns
-/

namespace ElementGrid

variable {E : Type}

section Answers

variable [Element E]

/-- The instances of a thread with what the hooks of a phase come to. -/
def Worker.answers (phase : Phase) (w : Worker E) : List (Answer E) :=
  ElementGrid.answers phase w.store.nodes w.generator

/-- The instance of an element on a thread, if there is one, with what putting back its state comes to. -/
def Worker.answersOf (gid : Nat) (w : Worker E) : List (Answer E) :=
  (w.store.nodes.filter fun n => n.gid = gid).map fun n => ⟨n, (n.hooks w.generator .initState).1⟩

end Answers

namespace Registry

/-- The instances of all threads. -/
def hosted (r : Registry E) : List (Node E) := r.workers.flatMap fun w => w.store.nodes

/-- The instances of all threads with what the hooks of a phase come to. -/
def answers [Element E] (r : Registry E) (phase : Phase) : List (Answer E) :=
  r.workers.flatMap (Worker.answers phase)

/-- The instances of one element with what putting back their state comes to. -/
def answersOf [Element E] (r : Registry E) (gid : Nat) : List (Answer E) :=
  r.workers.flatMap (Worker.answersOf gid)

end Registry

/-- The report of a sweep tells what the hooks of all instances have come to. -/
structure SweepReport.Exact [Element E] (report : SweepReport) (r : Registry E) (phase : Phase) :
    Prop where
  phase_eq : report.phase = phase
  faults : report.faults.Exact phase (r.answers phase)
  processed : report.processed = r.hosted.length
  processed_eq : report.processed = report.succeeded + report.faults.faults.length
  active : report.active =
    ((r.answers phase).filter fun a => a.outcome.isOk && !a.node.frozen).length

namespace Registry

variable {r : Registry E} {config : GridConfig} {catalog : Catalog E}

/-! ## Instances are told apart -/

theorem Sound.rank_of_hosted (hr : Sound config catalog r) {n : Node E} (hn : n ∈ r.hosted) :
    n.vp.rank = config.rank := by
  obtain ⟨w, hw, hn⟩ := List.mem_flatMap.1 hn
  obtain ⟨t, ht⟩ := List.getElem?_of_mem hw
  rw [hr.vp_eq ht hn]

/-- No two instances of a process have both number and thread in common. -/
theorem Sound.apart_hosted (hr : Sound config catalog r) : r.hosted.Pairwise Node.Apart := by
  -- On one thread the numbers are told apart, and of two threads the threads are.
  refine List.pairwise_flatMap.2 ⟨fun w hw => ?_, ?_⟩
  · exact (List.pairwise_map.1 (hr.ascending_of_mem hw)).imp fun h => .inl (Nat.ne_of_lt h)
  · rw [List.pairwise_iff_getElem]
    intro s t hs ht hst n hn m hm
    rw [Node.Apart, hr.vp_eq (List.getElem?_eq_getElem hs) hn,
      hr.vp_eq (List.getElem?_eq_getElem ht) hm]
    exact .inr (Nat.ne_of_lt hst)

/-- The faults of some of the instances of a process, put in order. -/
theorem Sound.exact_ofList (hr : Sound config catalog r) (phase : Phase) {l : List (Answer E)}
    (hnodes : (l.map Answer.node).Sublist r.hosted) :
    (SweepFaults.ofList phase (l.filterMap Answer.fault?)).Exact phase l :=
  SweepFaults.exact_ofList phase (hr.apart_hosted.sublist hnodes)
    fun _ hn => hr.rank_of_hosted (hnodes.subset hn)

variable [Element E]

theorem map_node_answers (r : Registry E) (phase : Phase) :
    (r.answers phase).map Answer.node = r.hosted := by
  rw [answers, List.map_flatMap, hosted]
  exact List.flatMap_congr fun w _ => ElementGrid.map_node_answers phase _ _

theorem map_node_answersOf (r : Registry E) (gid : Nat) :
    (r.answersOf gid).map Answer.node = r.hosted.filter fun n => n.gid = gid := by
  rw [answersOf, List.map_flatMap, hosted, List.filter_flatMap]
  refine List.flatMap_congr fun w _ => ?_
  rw [Worker.answersOf, List.map_map]
  exact List.map_id _

/-! ## Sweeps -/

omit [Element E] in
/-- A sweep whose faults are errors fails if and only if there is a fault. -/
theorem outcome_eq {α : Type} (report : SweepReport) (value : α) :
    outcome report value =
      if report.faults.faults = [] then .ok value else .error (.lifecycleFaults report.faults) := by
  rw [outcome, SweepReport.faults?, SweepReport.isClean, SweepFaults.isEmpty]
  cases report.faults.faults <;> rfl

theorem tally_sweep (phase : Phase) (w : Worker E) :
    (w.sweep (Visit.ofPhase phase)).1 = .ofAnswers (w.answers phase) :=
  (tally_sweepNodes phase _ _ {}).trans (Tally.zero_add _)

/-- The report of a sweep is what is noted of the answers of all instances. -/
theorem sweep_fst (r : Registry E) (phase : Phase) :
    (r.sweep phase).1 = .ofTallies phase [.ofAnswers (r.answers phase)] := by
  have htallies : (r.dispatch.updatePartitions (fun _ => Worker.sweep (Visit.ofPhase phase))
      r.workers).1 = (r.workers.map (Worker.answers phase)).map Tally.ofAnswers := by
    apply List.ext_getElem?
    intro t
    simp only [Dispatch.updatePartitions, List.getElem?_map, List.getElem?_mapIdx, Option.map_map]
    congr 1
    funext w
    exact tally_sweep phase w
  rw [sweep]
  simp only [SweepReport.ofTallies, htallies, Tally.foldl_add_ofAnswers]
  rfl

/-- The report of a sweep tells what the hooks of all instances have come to. -/
theorem exact_sweep (hr : Sound config catalog r) (phase : Phase) :
    (r.sweep phase).1.Exact r phase := by
  have hnodes := r.map_node_answers phase
  have hfaults := hr.exact_ofList phase (l := r.answers phase) (by rw [hnodes])
  rw [sweep_fst]
  simp only [SweepReport.ofTallies, List.foldl_cons, List.foldl_nil, Tally.zero_add]
  refine ⟨rfl, hfaults, ?processed, ?sum, List.countP_eq_length_filter⟩
  case processed =>
    rw [← hnodes, List.length_map]
    rfl
  case sum =>
    have hlength := hfaults.perm.length_eq
    exact (Tally.processed_ofAnswers _).trans (congrArg (_ + ·) hlength.symm)

/-! ## One element -/

theorem tally_visitOne (gid : Nat) (t : Tally) {w : Worker E} (hs : w.store.gids.Pairwise (· < ·)) :
    (w.visitOne Visit.initState gid t).1 = t.add (.ofAnswers (w.answersOf gid)) := by
  -- A store keeps one instance of a number at most, the one that the look-up finds.
  rw [Worker.visitOne, Worker.answersOf, Store.filter_nodes hs]
  cases w.store.find? gid with
  | none => exact t.add_zero.symm
  | some n =>
    obtain ⟨n', hrun, hgid, hvp, hfrozen⟩ := Visit.comesTo_ofPhase .initState n w.generator
    have hvisit : (Visit.initState : Visit E Unit).run.run (n, w.generator) = _ := hrun
    simp only [hvisit]
    exact Tally.record_eq t hgid hvp hfrozen _

theorem tally_visitAll (gid : Nat) {ws : List (Worker E)}
    (hs : ∀ w ∈ ws, w.store.gids.Pairwise (· < ·)) (t : Tally) :
    (visitAll Visit.initState gid t ws).1 =
      t.add (.ofAnswers (ws.flatMap (Worker.answersOf gid))) := by
  induction ws generalizing t with
  | nil => exact t.add_zero.symm
  | cons w ws ih =>
    obtain ⟨hw, hws⟩ := List.forall_mem_cons.1 hs
    rw [visitAll, List.flatMap_cons, Tally.ofAnswers_append, ← Tally.add_assoc, ← tally_visitOne gid t hw]
    exact ih hws _

/-- Putting back the state of one element ends with the faults of its instances. -/
theorem result_initState (hr : Sound config catalog r) {gid id : Nat} (hid : r.modelOf gid = .ok id) :
    ∃ faults : SweepFaults, faults.Exact .initState (r.answersOf gid) ∧
      (r.initState gid).result =
        if faults.faults = [] then .ok () else .error (.lifecycleFaults faults) := by
  have hfaults := hr.exact_ofList .initState (r.map_node_answersOf gid ▸ List.filter_sublist)
  refine ⟨_, hfaults, ?_⟩
  rw [initState, hid]
  simp only [tally_visitAll gid (fun _ => hr.ascending_of_mem) {}, Tally.zero_add, outcome_eq]
  rfl

/-- In every state that a registry can come to, whatever the hooks of its elements come to: the faults of a
sweep are those of the instances whose hooks fault, one for each, by number and then by virtual process, and
their numbers are told once each. A sweep over all instances counts each of them, those that succeed, and
among these the ones that are not frozen. Preparing, and putting back the state of all instances or of one
element, fails if and only if there is a fault; finalizing and cleaning up always end with their report. -/
theorem faults_exact {dispatch : Dispatch} (hcatalog : catalog.Formed)
    (h : Reachable config catalog dispatch r) :
    (∀ phase, (r.answers phase).map Answer.node = r.hosted) ∧
    (∃ report : SweepReport, report.Exact r .prepare ∧ r.prepare.result =
      if report.faults.faults = [] then .ok report.active else .error (.lifecycleFaults report.faults)) ∧
    (∃ report : SweepReport, report.Exact r .initState ∧ r.reinit.result =
      if report.faults.faults = [] then .ok report.succeeded
      else .error (.lifecycleFaults report.faults)) ∧
    (∃ report : SweepReport, report.Exact r .finalize ∧ r.finalize.result = .ok report) ∧
    (∃ report : SweepReport, report.Exact r .postRunCleanup ∧ r.postRunCleanup.result = .ok report) ∧
    ∀ gid, Gid.first ≤ gid → gid ≤ r.size →
      (r.answersOf gid).map Answer.node = r.hosted.filter (fun n => n.gid = gid) ∧
      ∃ faults : SweepFaults, faults.Exact .initState (r.answersOf gid) ∧ (r.initState gid).result =
        if faults.faults = [] then .ok () else .error (.lifecycleFaults faults) := by
  have hr := h.sound hcatalog.numbered
  refine ⟨r.map_node_answers, ⟨_, exact_sweep hr .prepare, outcome_eq _ _⟩,
    ⟨_, exact_sweep hr .initState, outcome_eq _ _⟩, ⟨_, exact_sweep hr .finalize, rfl⟩,
    ⟨_, exact_sweep hr .postRunCleanup, rfl⟩,
    fun gid hfirst hsize => ?_⟩
  obtain ⟨_, hcategory⟩ := hr.exists_categoryOf hfirst hsize
  obtain ⟨_, hid, -⟩ := Except.bind_eq_ok_iff.1 hcategory
  exact ⟨r.map_node_answersOf gid, result_initState hr hid⟩

/-- Two replicated elements that refuse to be prepared and one that does not, each on two threads. -/
theorem faults_exact_refusals :
    let catalog : Catalog Probe := .ofEntries
      [("brittle", .device, { fails := ["prepare"] }), ("sturdy", .device, {})]
    catalog.Formed ∧ ∃ r, Reachable { threads := 2 } catalog .inTurn r ∧
      (∃ report : SweepReport, report.Exact r .prepare ∧ report.processed = 6 ∧
        report.faults.faults.length = 4 ∧
        r.prepare.result = .error (.lifecycleFaults report.faults)) ∧
      Gid.first ≤ 2 ∧ 2 ≤ r.size ∧ (r.initState 2).result = .ok () := by
  intro catalog
  have hcatalog : catalog.Formed := Catalog.formed_ofEntries (by decide)
  obtain ⟨r, hr, hhosted, hfaults, hsize, hnone⟩ : ∃ r, Reachable { threads := 2 } catalog .inTurn r ∧
      r.hosted.length = 6 ∧ ((r.answers .prepare).filterMap Answer.fault?).length = 4 ∧ 2 ≤ r.size ∧
      (r.answersOf 2).filterMap Answer.fault? = [] :=
    ⟨_, ⟨_, [.create "brittle" 2, .create "sturdy" 1], rfl, rfl⟩, by decide +kernel, by decide +kernel,
      by decide +kernel, by decide +kernel⟩
  obtain ⟨-, ⟨report, hreport, hprepare⟩, -, -, -, hone⟩ := faults_exact hcatalog hr
  obtain ⟨-, faults, hexact, hinit⟩ := hone 2 (by decide) hsize
  have hlength : report.faults.faults.length = 4 := hreport.faults.perm.length_eq.trans hfaults
  refine ⟨hcatalog, r, hr, ⟨report, hreport, hreport.processed.trans hhosted, hlength, ?_⟩,
    by decide, hsize, ?_⟩
  · rw [hprepare, if_neg (List.ne_nil_of_length_eq_add_one hlength)]
  · rw [hinit, if_pos (List.perm_nil.1 (hnone ▸ hexact.perm))]

end Registry

end ElementGrid
