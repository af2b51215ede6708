import Mathlib.Data.List.Perm.Basic
import ElementGrid.Proofs.Registry.Lookups
/-!
# Putting back the state of one element and of all

The state of all instances of a process is put back by a sweep, thread by thread, and that of one element
by a walk to its instances. Both put back an instance by its element alone, so to put back one element
after the other, in any order, comes to the same as the sweep.

## Main definitions

* `Node.putBack` — an instance after its state has been put back
* `Registry.putBackWhere` — a registry after this has been done to the instances of some numbers
* `Registry.initStates` — elements put back one after the other
* `Registry.faultsOf` — the faults that an operation reports

## Main results

* `Registry.registry_reinit` — the sweep puts back all instances
* `Registry.registry_initState` — the walk puts back those of its element
* `Registry.registry_initStates`, `Registry.results_initStates` — one element after the other
* `Registry.reinit_by_element` — the sweep is the walks to all elements, in any order
-/

namespace ElementGrid

variable {E : Type}

/-- Lists of the items of each key, for keys that are all there and told once, are the list itself in
another order. -/
theorem perm_flatMap_filter {α : Type} {key : α → Nat} {l : List α} {keys : List Nat}
    (hkeys : keys.Nodup) (hall : ∀ a ∈ l, key a ∈ keys) :
    (keys.flatMap fun k => l.filter fun a => key a = k).Perm l := by
  induction keys generalizing l with
  | nil =>
    rw [List.eq_nil_iff_forall_not_mem.2 fun a ha => List.not_mem_nil (hall a ha)]
    exact .nil
  | cons k keys ih =>
    obtain ⟨hk, hkeys⟩ := List.nodup_cons.1 hkeys
    let others := l.filter fun a => ¬ key a = k
    have hothers : ∀ a ∈ others, key a ∈ keys := by
      intro a ha
      obtain ⟨ha, hne⟩ := List.mem_filter.1 ha
      exact (List.mem_cons.1 (hall a ha)).resolve_left (of_decide_eq_true hne)
    -- To leave out the items of the first key takes nothing from the other keys.
    have hsame : (keys.flatMap fun k' => l.filter fun a => key a = k') =
        keys.flatMap fun k' => others.filter fun a => key a = k' := by
      refine List.flatMap_congr fun k' hk' => ?_
      rw [List.filter_filter]
      refine List.filter_congr fun a _ => ?_
      by_cases hkey : key a = k'
      · have hne : ¬ k' = k := fun h => hk (h ▸ hk')
        simp [hkey, hne]
      · simp [hkey]
    rw [List.flatMap_cons, hsame]
    have hsplit := List.filter_append_perm (fun a => decide (key a = k)) l
    refine ((ih hkeys hothers).append_left _).trans ?_
    simpa [others] using hsplit

/-! ## Instances and threads -/

section Threads

variable [Element E]

/-- The instance after its state has been put back, or as far back as it was put before it faulted. -/
def Node.putBack (n : Node E) : Node E :=
  { n with element := ((Element.initState : Step E Fault Unit).run.run n.element).2 }

/-- The thread after the instances of those numbers that satisfy `p` have been put back. -/
def Worker.putBackWhere (p : Nat → Bool) (w : Worker E) : Worker E :=
  let nodes := w.store.nodes.map fun n => if p n.gid then n.putBack else n
  { w with store := { w.store with nodes } }

theorem Worker.putBackWhere_congr {p q : Nat → Bool} {w : Worker E}
    (h : ∀ n ∈ w.store.nodes, p n.gid = q n.gid) : w.putBackWhere p = w.putBackWhere q := by
  rw [putBackWhere, putBackWhere, List.map_congr_left fun n hn => by rw [h n hn]]

theorem Worker.putBackWhere_of_none {p : Nat → Bool} {w : Worker E}
    (h : ∀ n ∈ w.store.nodes, p n.gid = false) : w.putBackWhere p = w := by
  rw [putBackWhere_congr (q := fun _ => false) h]
  show ({ w with store := { w.store with nodes := w.store.nodes.map id } } : Worker E) = w
  rw [List.map_id]

/-- To put back some instances and then others is to put back all of them. -/
theorem Worker.putBackWhere_putBackWhere {p q : Nat → Bool} (h : ∀ gid, p gid = true → q gid = false)
    (w : Worker E) :
    (w.putBackWhere p).putBackWhere q = w.putBackWhere fun gid => p gid || q gid := by
  simp only [putBackWhere, List.map_map]
  congr 2
  refine List.map_congr_left fun n _ => ?_
  by_cases hp : p n.gid = true
  · have hq : q n.putBack.gid = false := h n.gid hp
    simp [hp, hq]
  · simp [hp]

/-- Putting back state draws nothing, and a fault ends nothing. -/
theorem sweepNodes_initState (ns : List (Node E)) (g : Generator) (t : Tally) :
    (sweepNodes Visit.initState ns g t).1 = ns.map Node.putBack ∧
      (sweepNodes Visit.initState ns g t).2.1 = g := by
  induction ns generalizing t with
  | nil => exact ⟨rfl, rfl⟩
  | cons n ns ih =>
    obtain ⟨hnodes, hgenerator⟩ := ih _
    exact ⟨congrArg (n.putBack :: ·) hnodes, hgenerator⟩

theorem Worker.sweep_initState (w : Worker E) :
    (w.sweep (Visit.ofPhase .initState)).2 = w.putBackWhere fun _ => true := by
  obtain ⟨hnodes, hgenerator⟩ := sweepNodes_initState w.store.nodes w.generator {}
  show ({ w with store := { w.store with nodes := _ }, generator := _ } : Worker E) = _
  rw [Visit.ofPhase, hnodes, hgenerator]
  rfl

omit [Element E] in
theorem Store.modify_eq {s : Store E} (hs : s.gids.Pairwise (· < ·)) (gid : Nat)
    (f : Node E → Node E) :
    s.modify gid f = { s with nodes := s.nodes.map fun n => if n.gid = gid then f n else n } := by
  rw [← Store.nodes_modify hs, Store.modify]
  split <;> rfl

/-- The walk to an element finds its instance on the thread, if there is one, and puts it back. -/
theorem Worker.visitOne_initState {w : Worker E} (hs : w.store.gids.Pairwise (· < ·)) (gid : Nat)
    (t : Tally) : (w.visitOne Visit.initState gid t).2 = w.putBackWhere (· == gid) := by
  rw [visitOne]
  cases hfind : w.store.find? gid with
  | none =>
    refine (putBackWhere_of_none fun n hn => ?_).symm
    exact beq_eq_false_iff_ne.2 ((Store.find?_eq_none_iff hs).1 hfind n hn)
  | some n =>
    show ({ w with store := w.store.modify gid fun _ => n.putBack } : Worker E) = _
    rw [Store.modify_eq hs, putBackWhere]
    congr 2
    refine List.map_congr_left fun m hm => ?_
    by_cases hgid : m.gid = gid
    · have hfind' := (Store.find?_eq_some_iff hs).2 ⟨hm, hgid⟩
      obtain rfl : n = m := Option.some.inj (hfind.symm.trans hfind')
      simp [hgid]
    · simp [hgid]

end Threads

/-! ## Registries -/

namespace Registry

variable {r : Registry E} {config : GridConfig} {catalog : Catalog E} {gid id : Nat} [Element E]

/-- The registry after the instances of those numbers that satisfy `p` have been put back. -/
def putBackWhere (r : Registry E) (p : Nat → Bool) : Registry E :=
  { r with workers := r.workers.map (Worker.putBackWhere p) }

/-- The elements of some numbers put back one after the other, and what each call comes to. -/
def initStates (r : Registry E) : List Nat → List (Except RegistryError Unit) × Registry E
  | [] => ([], r)
  | gid :: gids =>
    let change := r.initState gid
    let (results, r') := change.registry.initStates gids
    (change.result :: results, r')

theorem putBackWhere_congr {p q : Nat → Bool} (h : ∀ n ∈ r.hosted, p n.gid = q n.gid) :
    r.putBackWhere p = r.putBackWhere q := by
  rw [putBackWhere, putBackWhere, List.map_congr_left fun w hw => Worker.putBackWhere_congr fun n hn =>
    h n (List.mem_flatMap.2 ⟨w, hw, hn⟩)]

theorem putBackWhere_of_none {p : Nat → Bool} (h : ∀ n ∈ r.hosted, p n.gid = false) :
    r.putBackWhere p = r := by
  have hworkers : r.workers.map (Worker.putBackWhere p) = r.workers :=
    (List.map_congr_left fun w hw => Worker.putBackWhere_of_none fun n hn =>
      h n (List.mem_flatMap.2 ⟨w, hw, hn⟩)).trans (List.map_id _)
  rw [putBackWhere, hworkers]

theorem putBackWhere_putBackWhere {p q : Nat → Bool} (h : ∀ gid, p gid = true → q gid = false) :
    (r.putBackWhere p).putBackWhere q = r.putBackWhere fun gid => p gid || q gid := by
  simp only [putBackWhere, List.map_map]
  congr 1
  exact List.map_congr_left fun w _ => w.putBackWhere_putBackWhere h

/-- The sweep puts back all instances. -/
theorem registry_reinit (r : Registry E) : r.reinit.registry = r.putBackWhere fun _ => true := by
  have hworkers : (r.sweep .initState).2.workers =
      r.workers.map (Worker.putBackWhere fun _ => true) := by
    refine List.ext_getElem? fun t => ?_
    rw [getElem?_sweep, List.getElem?_map]
    congr 1
    funext w
    exact w.sweep_initState
  rw [putBackWhere, ← hworkers]
  rfl

/-- The walk to an element puts back its instances, whether some of them fault or not, and nothing else
changes. -/
theorem registry_initState (hr : Sound config catalog r) (hid : r.modelOf gid = .ok id) :
    (r.initState gid).registry = r.putBackWhere (· == gid) := by
  have hworkers : (visitAll Visit.initState gid {} r.workers).2 =
      r.workers.map (Worker.putBackWhere (· == gid)) := by
    rw [workers_visitAll]
    exact List.map_congr_left fun w hw => Worker.visitOne_initState (hr.ascending_of_mem hw) gid {}
  rw [putBackWhere, ← hworkers, initState, hid]

/-- A process without an instance of the element has nothing to do. -/
theorem initState_of_away (hid : r.modelOf gid = .ok id)
    (haway : ∀ w ∈ r.workers, w.store.find? gid = none) : r.initState gid = ⟨.ok (), r, []⟩ := by
  have hvisits : ∀ ws : List (Worker E), (∀ w ∈ ws, w.store.find? gid = none) →
      visitAll Visit.initState gid {} ws = ({}, ws) := by
    intro ws h
    induction ws with
    | nil => rfl
    | cons w ws ih =>
      obtain ⟨hw, hws⟩ := List.forall_mem_cons.1 h
      simp only [visitAll, Worker.visitOne, hw, ih hws]
  have hresult : outcome (.ofTallies .initState [{}]) () = .ok () :=
    (outcome_eq _ _).trans (if_pos List.mergeSort_nil)
  rw [initState, hid]
  simp only [hvisits _ haway, hresult]

/-! ## What the calls come to -/

theorem answers_initState (ns : List (Node E)) (g : Generator) :
    ElementGrid.answers .initState ns g = ns.map fun n => ⟨n, (n.hooks g .initState).1⟩ := by
  induction ns with
  | nil => rfl
  | cons n ns ih => exact congrArg (_ :: ·) ih

/-- The instances of one element answer the sweep as they answer the walk. -/
theorem answersOf_eq_filter (r : Registry E) (gid : Nat) :
    r.answersOf gid = (r.answers .initState).filter fun a => a.node.gid = gid := by
  rw [answersOf, answers, List.filter_flatMap]
  refine List.flatMap_congr fun w _ => ?_
  rw [Worker.answersOf, Worker.answers, answers_initState, List.filter_map]
  rfl

/-- What an element answers is not touched by putting back others. -/
theorem answersOf_putBackWhere {p : Nat → Bool} (h : p gid = false) :
    (r.putBackWhere p).answersOf gid = r.answersOf gid := by
  rw [answersOf, putBackWhere, List.flatMap_map, answersOf]
  refine List.flatMap_congr fun w _ => ?_
  have hnodes : ((w.putBackWhere p).store.nodes.filter fun n => n.gid = gid) =
      w.store.nodes.filter fun n => n.gid = gid := by
    have hkept : ∀ n : Node E, (if p n.gid then n.putBack else n).gid = n.gid := by
      intro n
      split <;> rfl
    simp only [Worker.putBackWhere, List.filter_map, Function.comp_def, hkept]
    refine (List.map_congr_left fun n hn => ?_).trans (List.map_id _)
    have hgid : n.gid = gid := of_decide_eq_true (List.mem_filter.1 hn).2
    rw [hgid, h]
    rfl
  rw [Worker.answersOf, hnodes]
  rfl

theorem result_initState_eq (hr : Sound config catalog r) (hid : r.modelOf gid = .ok id) :
    (r.initState gid).result =
      outcome (.ofTallies .initState [.ofAnswers (r.answersOf gid)]) () := by
  rw [initState, hid]
  simp only [tally_visitAll gid (fun _ => hr.ascending_of_mem) {}, Tally.zero_add]
  rfl

/-- The faults that an operation reports. -/
def faultsOf {α : Type} : Except RegistryError α → List NodeFault
  | .error (.lifecycleFaults s) => s.faults
  | _ => []

omit [Element E] in
theorem faultsOf_outcome {α : Type} (report : SweepReport) (value : α) :
    faultsOf (outcome report value) = report.faults.faults := by
  rw [outcome_eq]
  split
  · rename_i hnone
    exact hnone.symm
  · rfl

omit [Element E] in
/-- An operation whose faults are errors succeeds if and only if it reports none. -/
theorem exists_outcome_eq_ok_iff {α : Type} {report : SweepReport} {value : α} :
    (∃ a, outcome report value = .ok a) ↔ faultsOf (outcome report value) = [] := by
  rw [faultsOf_outcome, outcome_eq]
  split
  · rename_i hnone
    exact ⟨fun _ => hnone, fun _ => ⟨value, rfl⟩⟩
  · rename_i hsome
    refine ⟨?_, fun h => absurd h hsome⟩
    rintro ⟨_, h⟩
    cases h

/-- The walk to an element reports the faults of its instances. -/
theorem faultsOf_initState (hr : Sound config catalog r) (hid : r.modelOf gid = .ok id) :
    (faultsOf (r.initState gid).result).Perm ((r.answersOf gid).filterMap Answer.fault?) := by
  rw [result_initState_eq hr hid, faultsOf_outcome]
  exact List.mergeSort_perm _ _

/-- The sweep reports the faults of all instances. -/
theorem faultsOf_reinit (hr : Sound config catalog r) :
    (faultsOf r.reinit.result).Perm ((r.answers .initState).filterMap Answer.fault?) := by
  show (faultsOf (outcome (r.sweep .initState).1 (r.sweep .initState).1.succeeded)).Perm _
  rw [faultsOf_outcome]
  exact (exact_sweep hr .initState).faults.perm

/-! ## One element after the other -/

section InTurn

variable (hcatalog : catalog.Numbered)
include hcatalog

/-- Different elements put back one after the other are put back all together. -/
theorem registry_initStates (hr : Sound config catalog r) {gids : List Nat} (hnodup : gids.Nodup)
    (hknown : ∀ gid ∈ gids, ∃ id, r.modelOf gid = .ok id) :
    (r.initStates gids).2 = r.putBackWhere fun gid => gid ∈ gids := by
  induction gids generalizing r with
  | nil => exact (putBackWhere_of_none fun n _ => by simp).symm
  | cons gid gids ih =>
    obtain ⟨hnew, hnodup⟩ := List.nodup_cons.1 hnodup
    obtain ⟨⟨id, hid⟩, hrest⟩ := List.forall_mem_cons.1 hknown
    have hafter : Sound config catalog (r.initState gid).registry := hr.apply hcatalog (.initState gid)
    show ((r.initState gid).registry.initStates gids).2 = _
    rw [registry_initState hr hid] at hafter ⊢
    -- Which numbers are given out, and to which models, is as before.
    rw [ih hafter hnodup hrest, putBackWhere_putBackWhere]
    · congr 1
      funext gid'
      simp [List.mem_cons, Bool.beq_eq_decide_eq]
    · intro gid' hgid'
      rw [eq_of_beq hgid']
      exact decide_eq_false hnew

/-- Each call comes to what it would have come to as the first. -/
theorem results_initStates (hr : Sound config catalog r) {gids : List Nat} (hnodup : gids.Nodup)
    (hknown : ∀ gid ∈ gids, ∃ id, r.modelOf gid = .ok id) :
    (r.initStates gids).1 = gids.map fun gid => (r.initState gid).result := by
  induction gids generalizing r with
  | nil => rfl
  | cons gid gids ih =>
    obtain ⟨hnew, hnodup⟩ := List.nodup_cons.1 hnodup
    obtain ⟨⟨id, hid⟩, hrest⟩ := List.forall_mem_cons.1 hknown
    have hafter : Sound config catalog (r.initState gid).registry := hr.apply hcatalog (.initState gid)
    show (r.initState gid).result :: ((r.initState gid).registry.initStates gids).1 = _
    rw [registry_initState hr hid] at hafter ⊢
    rw [ih hafter hnodup hrest, List.map_cons]
    refine congrArg _ (List.map_congr_left fun gid' hgid' => ?_)
    obtain ⟨id', hid'⟩ := hrest gid' hgid'
    have hother : (gid' == gid) = false := beq_eq_false_iff_ne.2 fun h => hnew (h ▸ hgid')
    rw [result_initState_eq hafter hid', result_initState_eq hr hid',
      answersOf_putBackWhere (p := (· == gid)) hother]

end InTurn

/-! ## All elements in any order -/

omit [Element E] in
theorem Sound.mem_range'_of_hosted (hr : Sound config catalog r) {n : Node E} (hn : n ∈ r.hosted) :
    n.gid ∈ List.range' Gid.first r.size := by
  obtain ⟨w, hw, hn⟩ := List.mem_flatMap.1 hn
  have hbounds := hr.gid_bounds hw hn
  rw [List.mem_range'_1, size]
  simp only [Gid.first] at hbounds ⊢
  omega

/-- The walks to all elements report the faults that the sweep reports. -/
theorem perm_faultsOf (hr : Sound config catalog r) {order : List Nat}
    (horder : order.Perm (List.range' Gid.first r.size))
    (hknown : ∀ gid ∈ order, ∃ id, r.modelOf gid = .ok id) :
    (faultsOf r.reinit.result).Perm (order.flatMap fun gid => faultsOf (r.initState gid).result) := by
  have hnodup : order.Nodup := horder.nodup_iff.2 List.nodup_range'
  have hall : ∀ a ∈ r.answers .initState, a.node.gid ∈ order := by
    intro a ha
    have hnode : a.node ∈ r.hosted := r.map_node_answers .initState ▸ List.mem_map_of_mem ha
    exact horder.mem_iff.2 (hr.mem_range'_of_hosted hnode)
  have hwalks : (order.flatMap r.answersOf).Perm (r.answers .initState) := by
    rw [List.flatMap_congr fun gid _ => r.answersOf_eq_filter gid]
    exact perm_flatMap_filter hnodup hall
  have hfaults : (order.flatMap fun gid => (r.answersOf gid).filterMap Answer.fault?).Perm
      (order.flatMap fun gid => faultsOf (r.initState gid).result) := by
    refine List.Perm.flatMap_left order fun gid hgid => ?_
    obtain ⟨id, hid⟩ := hknown gid hgid
    exact (faultsOf_initState hr hid).symm
  calc (faultsOf r.reinit.result).Perm ((r.answers .initState).filterMap Answer.fault?) :=
        faultsOf_reinit hr
    _ |>.Perm ((order.flatMap r.answersOf).filterMap Answer.fault?) := hwalks.symm.filterMap _
    _ |>.Perm (order.flatMap fun gid => faultsOf (r.initState gid).result) := by
        rwa [List.filterMap_flatMap]

/-- In every state that a registry can come to, whatever the hook that puts back an element makes of it.
Putting back the elements that were created one after the other, each once and in any order, leaves the
registry that putting back all of them leaves; each call comes to what it would have come to alone, the
faults of all calls together are those that the sweep reports, and the sweep succeeds if and only if all
calls do. A single call puts back all instances of its element on this process, whether they fault or
not, and changes nothing else; it ends well or with faults of this phase, and where the process holds no
instance of the element it does nothing. -/
theorem reinit_by_element {dispatch : Dispatch} (hcatalog : catalog.Formed)
    (h : Reachable config catalog dispatch r) :
    (∀ order : List Nat, order.Perm (List.range' Gid.first r.size) →
      (r.initStates order).2 = r.reinit.registry ∧
      (r.initStates order).1 = order.map (fun gid => (r.initState gid).result) ∧
      (faultsOf r.reinit.result).Perm ((r.initStates order).1.flatMap faultsOf) ∧
      ((∃ count, r.reinit.result = .ok count) ↔
        ∀ result ∈ (r.initStates order).1, result = .ok ())) ∧
    ∀ gid, Gid.first ≤ gid → gid ≤ r.size →
      (r.initState gid).registry = r.putBackWhere (· == gid) ∧
      ((r.initState gid).result = .ok () ∨ ∃ faults : SweepFaults,
        faults.phase = .initState ∧ (∀ f ∈ faults.faults, f.gid = gid) ∧ faults.faults ≠ [] ∧
        (r.initState gid).result = .error (.lifecycleFaults faults)) ∧
      (r.isLocal gid = false → r.initState gid = ⟨.ok (), r, []⟩) := by
  have hr := h.sound hcatalog.numbered
  refine ⟨fun order horder => ?all, fun gid hfirst hsize => ?one⟩
  case all =>
    have hnodup : order.Nodup := horder.nodup_iff.2 List.nodup_range'
    have hknown : ∀ gid ∈ order, ∃ id, r.modelOf gid = .ok id := by
      intro gid hgid
      have hbounds := List.mem_range'_1.1 (horder.mem_iff.1 hgid)
      obtain ⟨id, -, hid, -⟩ := hr.exists_model hbounds.1
        (by simp only [Gid.first] at hbounds; omega)
      exact ⟨id, hid⟩
    have hresults := results_initStates hcatalog.numbered hr hnodup hknown
    have hfaults : (faultsOf r.reinit.result).Perm ((r.initStates order).1.flatMap faultsOf) := by
      rw [hresults, List.flatMap_map]
      exact perm_faultsOf hr horder hknown
    refine ⟨?registry, hresults, hfaults, ?succeeds⟩
    case registry =>
      rw [registry_initStates hcatalog.numbered hr hnodup hknown, registry_reinit]
      exact putBackWhere_congr fun n hn =>
        decide_eq_true (horder.mem_iff.2 (hr.mem_range'_of_hosted hn))
    case succeeds =>
      have hcall : ∀ result ∈ (r.initStates order).1, faultsOf result = [] ↔ result = .ok () := by
        intro result hresult
        rw [hresults] at hresult
        obtain ⟨gid, hgid, rfl⟩ := List.mem_map.1 hresult
        obtain ⟨id, hid⟩ := hknown gid hgid
        rw [result_initState_eq hr hid, ← exists_outcome_eq_ok_iff]
        constructor
        · rintro ⟨_, h⟩
          exact h
        · exact fun h => ⟨(), h⟩
      calc (∃ count, r.reinit.result = .ok count)
          ↔ faultsOf r.reinit.result = [] := exists_outcome_eq_ok_iff
        _ ↔ (r.initStates order).1.flatMap faultsOf = [] :=
            ⟨fun h => List.nil_perm.1 (h ▸ hfaults), fun h => List.perm_nil.1 (h ▸ hfaults)⟩
        _ ↔ ∀ result ∈ (r.initStates order).1, result = .ok () := by
            rw [List.flatMap_eq_nil_iff]
            exact forall₂_congr hcall
  case one =>
    obtain ⟨id, -, hid, -⟩ := hr.exists_model hfirst hsize
    refine ⟨registry_initState hr hid, ?result, fun haway => ?away⟩
    case result =>
      obtain ⟨faults, hexact, hresult⟩ := result_initState hr hid
      by_cases hnone : faults.faults = []
      · exact .inl (hresult.trans (if_pos hnone))
      · refine .inr ⟨faults, hexact.phase_eq, fun f hf => ?_, hnone, hresult.trans (if_neg hnone)⟩
        obtain ⟨a, ha, hfault⟩ := List.mem_filterMap.1 (hexact.perm.mem_iff.1 hf)
        rw [answersOf_eq_filter, List.mem_filter, decide_eq_true_eq] at ha
        rw [← (Answer.fault?_eq_some_iff.1 hfault).2.1, ha.2]
    case away =>
      refine initState_of_away hid fun w hw => Option.eq_none_iff_forall_ne_some.2 fun n hfind => ?_
      obtain ⟨t, ht⟩ := List.getElem?_of_mem hw
      rw [hr.isLocal_of_find? ht hfind] at haway
      cases haway

/-- The second of two processes with two threads each. The first element is replicated and refuses to be
put back; of the other two, the second lives on the other process and the third on this one. -/
theorem reinit_by_element_refusals :
    let catalog : Catalog Probe := .ofEntries
      [("brittle", .device, { fails := ["init_state"] }), ("sturdy", .normal, {})]
    let config : GridConfig := { processes := 2, threads := 2, rank := 1 }
    catalog.Formed ∧ ∃ r, Reachable config catalog .inTurn r ∧
      [3, 1, 2].Perm (List.range' Gid.first r.size) ∧ r.isLocal 2 = false ∧
      (r.initStates [3, 1, 2]).2 = r.reinit.registry ∧
      ((r.initStates [3, 1, 2]).1.flatMap faultsOf).length = 2 ∧
      r.initState 2 = ⟨.ok (), r, []⟩ := by
  intro catalog config
  have hcatalog : catalog.Formed := Catalog.formed_ofEntries (by decide)
  obtain ⟨r, hr, horder, haway, hfaults⟩ : ∃ r, Reachable config catalog .inTurn r ∧
      [3, 1, 2].Perm (List.range' Gid.first r.size) ∧ r.isLocal 2 = false ∧
      ((r.answers .initState).filterMap Answer.fault?).length = 2 :=
    ⟨_, ⟨_, [.create "brittle" 1, .create "sturdy" 2], rfl, rfl⟩, by decide +kernel,
      by decide +kernel, by decide +kernel⟩
  obtain ⟨hall, hone⟩ := reinit_by_element hcatalog hr
  obtain ⟨hregistry, -, hperm, -⟩ := hall [3, 1, 2] horder
  have hlength := (faultsOf_reinit (hr.sound hcatalog.numbered)).length_eq
  have hsecond : 2 ≤ r.size := by
    have := List.mem_range'_1.1 (horder.mem_iff.1 (by decide : 2 ∈ [3, 1, 2]))
    simp only [Gid.first] at this
    omega
  exact ⟨hcatalog, r, hr, horder, haway, hregistry, hperm.length_eq.symm.trans (hlength.trans hfaults),
    (hone 2 (by decide) hsecond).2.2 haway⟩

end Registry

end ElementGrid
