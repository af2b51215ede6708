import Mathlib.Data.List.Pairwise
import ElementGrid.Proofs.Registry.Seats
/-!
# The faults of a sweep

A thread calls the hooks of its instances one after the other. What it notes adds up answer by answer, and
so does what several threads note, so the report of a sweep can be read off the answers of all instances.

## Main definitions

* `Node.hooks` — what the hooks of a phase come to on an instance
* `Answer`, `answers` — the instances of a thread with what their hooks come to
* `SweepFaults.Exact` — the faults are those of the answers, none lost and none told twice

## Main results

* `Visit.comesTo_ofPhase` — a visit comes to what the hooks come to
* `tally_sweepNodes` — what a thread has noted when it is through
* `SweepFaults.exact_ofList` — the faults on one process, put in order
-/

namespace ElementGrid

variable {E : Type}

/-! ## Answers -/

/-- An instance as a sweep finds it, with what its hooks come to. -/
structure Answer (E : Type) where
  node : Node E
  outcome : Except Fault Unit

namespace Answer

variable (a : Answer E)

/-- The fault of the instance, if its hooks fault. -/
def fault? : Option NodeFault :=
  match a.outcome with
  | .ok _ => none
  | .error fault => some ⟨a.node.gid, a.node.vp, fault⟩

def succeeded : Bool := a.outcome.isOk

/-- The hooks of the instance succeed, and it is not frozen. -/
def active : Bool := a.succeeded && !a.node.frozen

variable {a}

theorem fault?_eq_some_iff {f : NodeFault} :
    a.fault? = some f ↔ a.outcome = .error f.fault ∧ a.node.gid = f.gid ∧ a.node.vp = f.vp := by
  obtain ⟨gid, vp, fault⟩ := f
  rw [fault?]
  cases a.outcome with
  | ok _ => simp
  | error fault' => simp [and_comm, and_left_comm]

end Answer

namespace Tally

/-- What is noted of some answers. -/
def ofAnswers (l : List (Answer E)) : Tally :=
  ⟨l.length, l.countP Answer.succeeded, l.countP Answer.active, l.filterMap Answer.fault?⟩

theorem add_assoc (t u v : Tally) : (t.add u).add v = t.add (u.add v) := by
  simp only [add, Nat.add_assoc, List.append_assoc]

@[simp]
theorem zero_add (t : Tally) : Tally.add {} t = t := by
  simp only [add, Nat.zero_add, List.nil_append]

@[simp]
theorem add_zero (t : Tally) : t.add {} = t := by
  simp only [add, Nat.add_zero, List.append_nil]

theorem ofAnswers_append (l l' : List (Answer E)) :
    ofAnswers (l ++ l') = (ofAnswers l).add (ofAnswers l') := by
  simp only [ofAnswers, add, List.length_append, List.countP_append, List.filterMap_append]

theorem ofAnswers_cons (a : Answer E) (l : List (Answer E)) :
    ofAnswers (a :: l) = (ofAnswers [a]).add (ofAnswers l) :=
  ofAnswers_append [a] l

/-- What several threads note is what is noted of all their answers. -/
theorem foldl_add_ofAnswers (ls : List (List (Answer E))) (t : Tally) :
    (ls.map ofAnswers).foldl add t = t.add (ofAnswers ls.flatten) := by
  induction ls generalizing t with
  | nil => exact (add_zero t).symm
  | cons l ls ih =>
    rw [List.map_cons, List.foldl_cons, ih, List.flatten_cons, ofAnswers_append, add_assoc]

/-- To note an outcome is to add the answer that it is. The instance may have changed, but not in what is
noted of it. -/
theorem record_eq (t : Tally) {n n' : Node E} (hgid : n'.gid = n.gid) (hvp : n'.vp = n.vp)
    (hfrozen : n'.frozen = n.frozen) (outcome : Except Fault Unit) :
    t.record n' outcome = t.add (ofAnswers [⟨n, outcome⟩]) := by
  cases outcome with
  | error fault =>
    simp [record, add, ofAnswers, Answer.succeeded, Answer.active, Answer.fault?, Except.isOk,
      Except.toBool, hgid, hvp]
  | ok _ =>
    cases hf : n.frozen <;>
      simp [record, add, ofAnswers, Answer.succeeded, Answer.active, Answer.fault?, Except.isOk,
        Except.toBool, hfrozen, hf]

/-- Every hook either succeeds or faults once. -/
theorem processed_ofAnswers (l : List (Answer E)) :
    (ofAnswers l).processed = (ofAnswers l).succeeded + (ofAnswers l).faults.length := by
  induction l with
  | nil => rfl
  | cons a l ih =>
    have hone : (ofAnswers [a]).processed =
        (ofAnswers [a]).succeeded + (ofAnswers [a]).faults.length := by
      obtain ⟨n, fault | _⟩ := a <;> rfl
    rw [ofAnswers_cons]
    simp only [add, List.length_append]
    omega

end Tally

/-! ## Hooks -/

section Hooks

variable [Element E]

/-- What preparing an element comes to, in the place of an instance. -/
def Node.prepareHook (n : Node E) (e : E) (g : Generator) : Except Fault Unit × Generator :=
  let hook : Step (E × Generator) Fault Unit := Element.prepare ⟨n.gid, n.vp⟩
  let (result, (_, g')) := hook.run.run (e, g)
  (result, g')

/-- What the hooks of a phase come to on an instance, and what they leave of the stream of its thread. A
preparation initializes a new instance first and goes on only if that succeeds. -/
def Node.hooks (n : Node E) (g : Generator) : Phase → Except Fault Unit × Generator
  | .prepare =>
    if n.state = .created then
      match (Element.init : Step E Fault Unit).run.run n.element with
      | (.ok _, e) => n.prepareHook e g
      | (.error fault, _) => (.error fault, g)
    else n.prepareHook n.element g
  | .initState => (((Element.initState : Step E Fault Unit).run.run n.element).1, g)
  | .finalize => (((Element.finalize : Step E Fault Unit).run.run n.element).1, g)
  | .postRunCleanup => (((Element.postRunCleanup : Step E Fault Unit).run.run n.element).1, g)

/-- What the instances of one thread answer. Each finds the stream as those before it have left it. -/
def answers (phase : Phase) : List (Node E) → Generator → List (Answer E)
  | [], _ => []
  | n :: ns, g => ⟨n, (n.hooks g phase).1⟩ :: answers phase ns (n.hooks g phase).2

theorem map_node_answers (phase : Phase) (ns : List (Node E)) (g : Generator) :
    (answers phase ns g).map Answer.node = ns := by
  induction ns generalizing g with
  | nil => rfl
  | cons n ns ih => rw [answers, List.map_cons, ih]

namespace Visit

/-- What is left of a preparation where nothing is left to initialize. -/
def ready : Visit E Unit := do
  let n := (← get).1
  onElementWith (Element.prepare ⟨n.gid, n.vp⟩)
  enter .initialized

omit [Element E] in
/-- A hook of the element of an instance leaves the stream alone. -/
theorem run_onElement (h : Step E Fault Unit) (n : Node E) (g : Generator) :
    (onElement h).run.run (n, g) =
      ((h.run.run n.element).1, ({ n with element := (h.run.run n.element).2 }, g)) := rfl

theorem run_prepare (n : Node E) (g : Generator) :
    (Visit.prepare : Visit E Unit).run.run (n, g) =
      if n.state = .created then
        match (onElement (Element.init : Step E Fault Unit)).run.run (n, g) with
        | (.ok _, (n', g')) => Visit.ready.run.run ({ n' with state := .initialized }, g')
        | (.error fault, s) => (.error fault, s)
      else Visit.ready.run.run (n, g) := by
  rw [Visit.prepare, Step.run_bind]
  show (ite _ _ _ : Visit E Unit).run.run (n, g) = _
  split
  · rw [Step.run_bind]
    rcases (onElement (Element.init : Step E Fault Unit)).run.run (n, g) with ⟨_ | _, n', g'⟩ <;> rfl
  · rfl

/-- The visit comes to `result` and leaves of its instance what is noted of it. -/
def ComesTo (v : Visit E Unit) (n : Node E) (g : Generator) (result : Except Fault Unit × Generator) :
    Prop :=
  ∃ n' : Node E, v.run.run (n, g) = (result.1, (n', result.2)) ∧ n'.gid = n.gid ∧ n'.vp = n.vp ∧
    n'.frozen = n.frozen

omit [Element E] in
theorem comesTo_onElement (h : Step E Fault Unit) (n : Node E) (g : Generator) :
    (onElement h).ComesTo n g ((h.run.run n.element).1, g) :=
  ⟨_, rfl, rfl, rfl, rfl⟩

omit [Element E] in
/-- To enter a stage at the end changes nothing of what a visit comes to. -/
theorem ComesTo.enter {v : Visit E Unit} {n : Node E} {g : Generator}
    {result : Except Fault Unit × Generator} (h : v.ComesTo n g result) (state : NodeState) :
    ComesTo (v >>= fun _ => Visit.enter state) n g result := by
  obtain ⟨n', hrun, hgid, hvp, hfrozen⟩ := h
  obtain ⟨outcome, g'⟩ := result
  rw [ComesTo, Step.run_bind, hrun]
  cases outcome with
  | error fault => exact ⟨n', rfl, hgid, hvp, hfrozen⟩
  | ok _ => exact ⟨{ n' with state }, rfl, hgid, hvp, hfrozen⟩

theorem comesTo_ready (n : Node E) (g : Generator) :
    (ready : Visit E Unit).ComesTo n g (n.prepareHook n.element g) :=
  let hook : Visit E Unit := onElementWith (Element.prepare ⟨n.gid, n.vp⟩)
  have hhook : hook.ComesTo n g (n.prepareHook n.element g) :=
    ⟨(hook.run.run (n, g)).2.1, rfl, rfl, rfl, rfl⟩
  hhook.enter .initialized

theorem comesTo_prepare (n : Node E) (g : Generator) :
    (prepare : Visit E Unit).ComesTo n g (n.hooks g .prepare) := by
  rw [ComesTo, run_prepare]
  simp only [Node.hooks]
  split
  -- Initializing draws nothing, so a preparation that goes on finds the stream as it was.
  · rw [run_onElement]
    rcases (Element.init : Step E Fault Unit).run.run n.element with ⟨fault | _, e⟩
    · exact ⟨_, rfl, rfl, rfl, rfl⟩
    · exact comesTo_ready { n with state := .initialized, element := e } g
  · exact comesTo_ready n g

/-- A visit comes to what the hooks of its phase come to. -/
theorem comesTo_ofPhase (phase : Phase) (n : Node E) (g : Generator) :
    (ofPhase phase : Visit E Unit).ComesTo n g (n.hooks g phase) := by
  cases phase with
  | prepare => exact comesTo_prepare n g
  | initState => exact comesTo_onElement _ n g
  | finalize => exact (comesTo_onElement _ n g).enter .finalized
  | postRunCleanup => exact comesTo_onElement _ n g

end Visit

/-- What a thread has noted when it is through. -/
theorem tally_sweepNodes (phase : Phase) (ns : List (Node E)) (g : Generator) (t : Tally) :
    (sweepNodes (Visit.ofPhase phase) ns g t).2.2 = t.add (.ofAnswers (answers phase ns g)) := by
  induction ns generalizing g t with
  | nil => exact t.add_zero.symm
  | cons n ns ih =>
    obtain ⟨n', hrun, hgid, hvp, hfrozen⟩ := Visit.comesTo_ofPhase phase n g
    rw [sweepNodes, hrun, answers, Tally.ofAnswers_cons, ← Tally.add_assoc,
      ← Tally.record_eq t hgid hvp hfrozen]
    -- A faulting instance ends nothing: the rest goes on with what it has left of the stream.
    exact ih _ _

/-- What is noted of an instance and what is made of it come of the same visit. -/
theorem getElem?_sweepNodes (phase : Phase) {ns : List (Node E)} {i : Nat} {n : Node E}
    (h : ns[i]? = some n) (g : Generator) (t : Tally) :
    ∃ g', (answers phase ns g)[i]? = some ⟨n, (n.hooks g' phase).1⟩ ∧
      (sweepNodes (Visit.ofPhase phase) ns g t).1[i]? =
        some ((Visit.ofPhase phase : Visit E Unit).run.run (n, g')).2.1 := by
  induction ns generalizing i g t with
  | nil => cases h
  | cons m ns ih =>
    obtain ⟨m', hrun, -⟩ := Visit.comesTo_ofPhase phase m g
    rw [sweepNodes, hrun, answers]
    cases i with
    | zero =>
      cases h
      exact ⟨g, rfl, by rw [hrun]; rfl⟩
    | succ i => exact ih h _ _

end Hooks

/-! ## The order of the faults -/

/-- The one fault comes before the other: by number, and for one number by virtual process. On one process
that is by thread. -/
def NodeFault.Precedes (a b : NodeFault) : Prop :=
  a.gid < b.gid ∨ a.gid = b.gid ∧ a.vp.rank = b.vp.rank ∧ a.vp.thread < b.vp.thread

namespace SweepFaults

theorem before_iff {a b : NodeFault} : before a b = true ↔
    a.gid < b.gid ∨ a.gid = b.gid ∧
      (a.vp.thread < b.vp.thread ∨ a.vp.thread = b.vp.thread ∧ a.vp.rank ≤ b.vp.rank) := by
  simp only [before, Bool.or_eq_true, Bool.and_eq_true, decide_eq_true_eq, beq_iff_eq]

theorem before_trans (a b c : NodeFault) (hab : before a b = true) (hbc : before b c = true) :
    before a c = true := by
  rw [before_iff] at *
  omega

theorem before_total (a b : NodeFault) : (before a b || before b a) = true := by
  rw [Bool.or_eq_true, before_iff, before_iff]
  omega

theorem cases_of_short {l : List Nat} (h : ∀ a b rest, l = a :: b :: rest → False) :
    l = [] ∨ ∃ a, l = [a] := by
  cases l with
  | nil => exact .inl rfl
  | cons a l =>
    cases l with
    | nil => exact .inr ⟨a, rfl⟩
    | cons b l => exact absurd rfl (h a b l)

theorem mem_dropRepeats {l : List Nat} {a : Nat} : a ∈ dropRepeats l ↔ a ∈ l := by
  induction l using dropRepeats.induct with
  | case1 b rest ih =>
    rw [dropRepeats, if_pos rfl, ih]
    simp
  | case2 b c rest hne ih =>
    rw [dropRepeats, if_neg hne, List.mem_cons, ih, List.mem_cons (l := c :: rest)]
  | case3 l hshort => obtain rfl | ⟨b, rfl⟩ := cases_of_short hshort <;> rfl

/-- What is left of a list in order without its repetitions is strictly in order. -/
theorem pairwise_dropRepeats {l : List Nat} (h : l.Pairwise (· ≤ ·)) :
    (dropRepeats l).Pairwise (· < ·) := by
  induction l using dropRepeats.induct with
  | case1 b rest ih =>
    rw [dropRepeats, if_pos rfl]
    exact ih h.tail
  | case2 b c rest hne ih =>
    obtain ⟨hfirst, hrest⟩ := List.pairwise_cons.1 h
    rw [dropRepeats, if_neg hne]
    refine List.pairwise_cons.2 ⟨fun a ha => ?_, ih hrest⟩
    have hbc := hfirst c List.mem_cons_self
    rcases List.mem_cons.1 (mem_dropRepeats.1 ha) with rfl | ha
    · omega
    · have := (List.pairwise_cons.1 hrest).1 a ha
      omega
  | case3 l hshort =>
    obtain rfl | ⟨b, rfl⟩ := cases_of_short hshort
    · exact .nil
    · exact List.pairwise_singleton _ _

/-- The faults are those of the answers, one for each instance that faults, in order, and their numbers are
those of the instances that fault, each once. -/
structure Exact (s : SweepFaults) (phase : Phase) (l : List (Answer E)) : Prop where
  phase_eq : s.phase = phase
  perm : s.faults.Perm (l.filterMap Answer.fault?)
  ordered : s.faults.Pairwise NodeFault.Precedes
  gids_ascending : s.gids.Pairwise (· < ·)
  mem_gids_iff : ∀ gid, gid ∈ s.gids ↔
    ∃ a ∈ l, a.node.gid = gid ∧ ∃ fault, a.outcome = .error fault

theorem mem_gids_iff_of_perm {s : SweepFaults} {l : List (Answer E)}
    (h : s.faults.Perm (l.filterMap Answer.fault?)) (gid : Nat) :
    gid ∈ s.gids ↔ ∃ a ∈ l, a.node.gid = gid ∧ ∃ fault, a.outcome = .error fault := by
  simp only [gids, mem_dropRepeats, List.mem_map, h.mem_iff, List.mem_filterMap,
    Answer.fault?_eq_some_iff]
  constructor
  · rintro ⟨f, ⟨a, ha, hfault, hgid, -⟩, rfl⟩
    exact ⟨a, ha, hgid, f.fault, hfault⟩
  · rintro ⟨a, ha, rfl, fault, hfault⟩
    exact ⟨⟨a.node.gid, a.node.vp, fault⟩, ⟨a, ha, hfault, rfl, rfl⟩, rfl⟩

end SweepFaults

/-- The instances are told apart by number and thread. -/
def Node.Apart (n m : Node E) : Prop := n.gid ≠ m.gid ∨ n.vp.thread ≠ m.vp.thread

/-- The faults of instances that are told apart are told apart as well. -/
theorem pairwise_fault? {l : List (Answer E)} (h : (l.map Answer.node).Pairwise Node.Apart) :
    (l.filterMap Answer.fault?).Pairwise fun a b => a.gid ≠ b.gid ∨ a.vp.thread ≠ b.vp.thread := by
  rw [List.pairwise_filterMap]
  refine (List.pairwise_map.1 h).imp fun {_ _} hapart a ha b hb => ?_
  obtain ⟨-, hgid, hvp⟩ := Answer.fault?_eq_some_iff.1 ha
  obtain ⟨-, hgid', hvp'⟩ := Answer.fault?_eq_some_iff.1 hb
  rwa [← hgid, ← hvp, ← hgid', ← hvp']

/-- The faults on one process, put in order. No two instances have both number and thread in
common, so none of them is told twice. -/
theorem SweepFaults.exact_ofList (phase : Phase) {l : List (Answer E)} {rank : Nat}
    (hapart : (l.map Answer.node).Pairwise Node.Apart)
    (hrank : ∀ n ∈ l.map Answer.node, n.vp.rank = rank) :
    (ofList phase (l.filterMap Answer.fault?)).Exact phase l := by
  let faults := (ofList phase (l.filterMap Answer.fault?)).faults
  have hperm : faults.Perm (l.filterMap Answer.fault?) := List.mergeSort_perm _ _
  have hsorted : faults.Pairwise (before · ·) := List.pairwise_mergeSort before_trans before_total _
  have hranks : ∀ f ∈ faults, f.vp.rank = rank := by
    intro f hf
    obtain ⟨a, ha, hfault⟩ := List.mem_filterMap.1 (hperm.mem_iff.1 hf)
    rw [← (Answer.fault?_eq_some_iff.1 hfault).2.2]
    exact hrank a.node (List.mem_map_of_mem ha)
  refine ⟨rfl, hperm, ?ordered, ?ascending, mem_gids_iff_of_perm hperm⟩
  case ordered =>
    have hapart := (hperm.pairwise_iff fun hab => hab.imp Ne.symm Ne.symm).2 (pairwise_fault? hapart)
    refine (hsorted.and hapart).imp_of_mem fun {a b} ha hb hab => ?_
    have := before_iff.1 hab.1
    have := hab.2
    -- `before` compares the threads first, which agrees with the order told where all ranks are one.
    have := hranks a ha
    have := hranks b hb
    rw [NodeFault.Precedes]
    omega
  case ascending =>
    refine pairwise_dropRepeats (List.pairwise_map.2 (hsorted.imp fun hab => ?_))
    have := before_iff.1 hab
    omega

end ElementGrid
