import ElementGrid.Registry.Command
import ElementGrid.Proofs.Except
/-!
# Seats

An instance keeps its number, its model, its category, its virtual process and its place for as long as
it is stored: this is its seat. Only creations give out seats and only a reset takes them back; every
other operation on a registry leaves all seats as they are, whatever the hooks of the elements do.

## Main definitions

* `Seat`, `Node.seat`, `Store.seats` — what of an instance no operation changes
* `Step.Keeps` — a step that leaves a part of the state alone
* `Visit.KeepsSeat` — a visit that does not move its instance
* `Registry.SameSeats` — the registries agree on all that creations give out

## Main results

* `Visit.keeps_ofPhase` — what a sweep leaves alone
* `Registry.sameSeats_apply` — a command that does not create or reset leaves all seats alone
-/

namespace ElementGrid

/-- What of an instance no operation changes once it is stored. -/
structure Seat where
  gid : Nat
  model : Nat
  category : Category
  vp : Vp
  localId : Nat
  deriving DecidableEq, Repr

variable {E : Type}

/-- The seat of an instance. -/
def Node.seat (n : Node E) : Seat := ⟨n.gid, n.model, n.category, n.vp, n.localId⟩

/-- The seats of a thread by place. -/
def Store.seats (s : Store E) : List Seat := s.nodes.map Node.seat

/-! ## Visits -/

/-- A step that is followed by another one fails where the first fails. -/
theorem Step.run_bind {σ ε α β : Type} (x : Step σ ε α) (f : α → Step σ ε β) (s : σ) :
    (x >>= f).run.run s =
      match x.run.run s with
      | (.ok a, s') => (f a).run.run s'
      | (.error e, s') => (.error e, s') := by
  rw [ExceptT.run_bind, StateT.run_bind]
  rcases x.run.run s with ⟨e | a, s'⟩ <;> rfl

/-- The step leaves what `view` shows of the state alone, whether it fails or not. -/
def Step.Keeps {σ ε α β : Type} (view : σ → β) (h : Step σ ε α) : Prop :=
  ∀ s, view (h.run.run s).2 = view s

theorem Step.Keeps.bind {σ ε α α' β : Type} {view : σ → β} {h : Step σ ε α} {k : α → Step σ ε α'}
    (hh : h.Keeps view) (hk : ∀ a, (k a).Keeps view) : Step.Keeps view (h >>= k) := by
  intro s
  have hfirst := hh s
  rw [Step.run_bind]
  rcases hrun : h.run.run s with ⟨e | a, s'⟩ <;> rw [hrun] at hfirst
  · exact hfirst
  · exact (hk a s').trans hfirst

namespace Visit

variable {α β : Type}

/-- The visit leaves the seat of its instance alone, whether it faults or not. -/
def KeepsSeat (v : Visit E α) : Prop := ∀ n g, (v.run.run (n, g)).2.1.seat = n.seat

variable [Element E] {view : Node E × Generator → β}

theorem keeps_prepare (henter : ∀ state, Step.Keeps view (enter state : Visit E Unit))
    (hinit : Step.Keeps view (onElement (Element.init : Step E Fault Unit)))
    (hprepare : ∀ ctx, Step.Keeps view (onElementWith (Element.prepare (E := E) ctx))) :
    Step.Keeps view (prepare : Visit E Unit) := by
  have hget : Step.Keeps view (get : Visit E (Node E × Generator)) := fun _ => rfl
  have hrest : Step.Keeps view (do
      let n := (← (get : Visit E (Node E × Generator))).1
      onElementWith (Element.prepare ⟨n.gid, n.vp⟩)
      enter .initialized : Visit E Unit) :=
    hget.bind fun _ => (hprepare _).bind fun _ => henter _
  refine hget.bind fun s => ?_
  split
  · exact hinit.bind fun _ => (henter _).bind fun _ => hrest
  · exact hrest

/-- A sweep leaves alone what no hook changes, nor an instance that reaches a stage. -/
theorem keeps_ofPhase (henter : ∀ state, Step.Keeps view (enter state : Visit E Unit))
    (hinit : Step.Keeps view (onElement (Element.init : Step E Fault Unit)))
    (hinitState : Step.Keeps view (onElement (Element.initState : Step E Fault Unit)))
    (hprepare : ∀ ctx, Step.Keeps view (onElementWith (Element.prepare (E := E) ctx)))
    (hfinalize : Step.Keeps view (onElement (Element.finalize : Step E Fault Unit)))
    (hcleanup : Step.Keeps view (onElement (Element.postRunCleanup : Step E Fault Unit)))
    (phase : Phase) : Step.Keeps view (ofPhase phase : Visit E Unit) := by
  cases phase with
  | prepare => exact keeps_prepare henter hinit hprepare
  | initState => exact hinitState
  | finalize => exact hfinalize.bind fun _ => henter _
  | postRunCleanup => exact hcleanup

/-- No sweep moves an instance. -/
theorem keepsSeat_ofPhase (phase : Phase) : KeepsSeat (ofPhase phase : Visit E Unit) := by
  have hkeeps : Step.Keeps (fun s : Node E × Generator => s.1.seat) (ofPhase phase : Visit E Unit) :=
    keeps_ofPhase (fun _ _ => rfl) (fun _ => rfl) (fun _ => rfl) (fun _ _ => rfl) (fun _ => rfl)
      (fun _ => rfl) phase
  exact fun n g => hkeeps (n, g)

end Visit

/-! ## Stores -/

theorem seats_sweepNodes {visit : Visit E Unit} (hv : visit.KeepsSeat) (ns : List (Node E))
    (g : Generator) (t : Tally) :
    (sweepNodes visit ns g t).1.map Node.seat = ns.map Node.seat := by
  induction ns generalizing g t with
  | nil => rfl
  | cons n ns ih =>
    have hn := hv n g
    rw [sweepNodes]
    rcases hrun : visit.run.run (n, g) with ⟨r, n', g'⟩
    rw [hrun] at hn
    simp only [List.map_cons, ih, hn]

/-- A change at one place that a view of the items does not show changes nothing in view. -/
theorem map_modify_of_eq {α β : Type} {view : α → β} {f : α → α} {i : Nat} {l : List α}
    (h : ∀ a, l[i]? = some a → view (f a) = view a) : (l.modify i f).map view = l.map view := by
  induction l generalizing i with
  | nil => simp
  | cons a l ih =>
    cases i with
    | zero => simp [h a rfl]
    | succ i => simpa using ih fun b hb => h b (by simpa using hb)

namespace Store

variable {s : Store E} {gid : Nat}

theorem index?_of_find? {n : Node E} (h : s.find? gid = some n) :
    ∃ i, s.index? gid = some i ∧ s.nodes[i]? = some n := by
  obtain ⟨i, hi, hn⟩ := Option.bind_eq_some_iff.1 h
  exact ⟨i, hi, hn⟩

theorem seats_modify {f : Node E → Node E} (hf : ∀ n, (f n).seat = n.seat) :
    (s.modify gid f).seats = s.seats := by
  rw [modify]
  split
  · exact map_modify_of_eq fun n _ => hf n
  · rfl

/-- The instance that is found may be replaced by one with its seat. -/
theorem seats_modify_const {n n' : Node E} (hfind : s.find? gid = some n)
    (hseat : n'.seat = n.seat) : (s.modify gid fun _ => n').seats = s.seats := by
  obtain ⟨i, hi, hn⟩ := index?_of_find? hfind
  rw [modify, hi]
  refine map_modify_of_eq fun m hm => ?_
  rw [hn] at hm
  cases hm
  exact hseat

end Store

/-! ## Registries -/

namespace Worker

theorem seats_sweep {visit : Visit E Unit} (hv : visit.KeepsSeat) (w : Worker E) :
    (w.sweep visit).2.store.seats = w.store.seats :=
  seats_sweepNodes hv w.store.nodes w.generator {}

theorem seats_visitOne {visit : Visit E Unit} (hv : visit.KeepsSeat) (gid : Nat) (t : Tally)
    (w : Worker E) : (w.visitOne visit gid t).2.store.seats = w.store.seats := by
  rw [visitOne]
  split
  · rfl
  · rename_i n hfind
    have hn := hv n w.generator
    rcases hrun : visit.run.run (n, w.generator) with ⟨r, n', g'⟩
    rw [hrun] at hn
    exact Store.seats_modify_const hfind hn

theorem seats_commitWorker (gid : Nat) (frozen : Option Bool) (staged : Option E) (w : Worker E) :
    (Registry.commitWorker gid frozen staged w).store.seats = w.store.seats := by
  cases staged with
  | none => rfl
  | some e => exact Store.seats_modify fun _ => rfl

theorem seats_repartition [Element E] (size : Nat) (w : Worker E) :
    (w.repartition size).2.store.seats = w.store.seats := by
  simp only [repartition]
  split <;> rfl

end Worker

namespace Registry

/-- The seats of all threads. -/
def seats (r : Registry E) : List (List Seat) := r.workers.map fun w => w.store.seats

/-- The registries agree on all that creations give out. -/
structure SameSeats (r r' : Registry E) : Prop where
  config : r'.config = r.config
  catalog : r'.catalog = r.catalog
  batches : r'.batches = r.batches
  nextGid : r'.nextGid = r.nextGid
  seats : r'.seats = r.seats

variable {r r' r'' : Registry E}

theorem SameSeats.refl (r : Registry E) : r.SameSeats r := ⟨rfl, rfl, rfl, rfl, rfl⟩

theorem SameSeats.trans (h : r.SameSeats r') (h' : r'.SameSeats r'') : r.SameSeats r'' :=
  ⟨h'.config.trans h.config, h'.catalog.trans h.catalog, h'.batches.trans h.batches,
    h'.nextGid.trans h.nextGid, h'.seats.trans h.seats⟩

theorem worker_of_localNode {gid thread : Nat} {n : Node E}
    (h : r.localNode gid thread = .ok n) :
    ∃ w, r.workers[thread]? = some w ∧ w.store.find? gid = some n := by
  obtain ⟨_, -, h⟩ := Except.bind_eq_ok_iff.1 h
  obtain ⟨w, hw, h⟩ := Except.bind_eq_ok_iff.1 h
  refine ⟨w, ?_, ?_⟩
  · rw [worker] at hw
    split at hw
    · rename_i w' hw'
      cases hw
      exact hw'
    · cases hw
  · split at h
    · rename_i n' hn'
      cases h
      exact hn'
    · cases h

/-- A changing sweep keeps all seats if it does so on each thread. -/
theorem seats_updatePartitions {β : Type} (d : Dispatch) {f : Nat → Worker E → β × Worker E}
    (hf : ∀ i w, (f i w).2.store.seats = w.store.seats) (ws : List (Worker E)) :
    (d.updatePartitions f ws).2.map (fun w => w.store.seats) = ws.map fun w => w.store.seats := by
  apply List.ext_getElem?
  intro t
  simp only [Dispatch.updatePartitions, List.getElem?_map, List.getElem?_mapIdx]
  cases ws[t]? with
  | none => rfl
  | some w => exact congrArg some (hf t w)

theorem seats_visitAll {visit : Visit E Unit} (hv : visit.KeepsSeat) (gid : Nat) (t : Tally)
    (ws : List (Worker E)) :
    (visitAll visit gid t ws).2.map (fun w => w.store.seats) = ws.map fun w => w.store.seats := by
  induction ws generalizing t with
  | nil => rfl
  | cons w ws ih =>
    simp only [visitAll, List.map_cons, ih, Worker.seats_visitOne hv]

theorem seats_zipWith_commitWorker (gid : Nat) (frozen : Option Bool) {staged : List (Option E)}
    {ws : List (Worker E)} (h : staged.length = ws.length) :
    (List.zipWith (commitWorker gid frozen) staged ws).map (fun w => w.store.seats) =
      ws.map fun w => w.store.seats := by
  induction ws generalizing staged with
  | nil => simp
  | cons w ws ih =>
    obtain ⟨e, staged, rfl⟩ := List.exists_cons_of_length_eq_add_one h
    simp only [List.zipWith_cons_cons, List.map_cons, Worker.seats_commitWorker,
      ih (Nat.succ.inj h)]

variable [Element E]

theorem sameSeats_sweep (r : Registry E) (phase : Phase) : r.SameSeats (r.sweep phase).2 :=
  ⟨rfl, rfl, rfl, rfl, seats_updatePartitions r.dispatch
    (fun _ w => Worker.seats_sweep (Visit.keepsSeat_ofPhase phase) w) r.workers⟩

theorem sameSeats_initState (r : Registry E) (gid : Nat) :
    r.SameSeats (r.initState gid).registry := by
  rw [initState]
  split
  · exact .refl r
  · exact ⟨rfl, rfl, rfl, rfl, seats_visitAll (Visit.keepsSeat_ofPhase .initState) gid {} r.workers⟩

omit [Element E] in
theorem sameSeats_modifyLocal {α : Type} (r : Registry E) (gid thread : Nat)
    {f : Node E → α × Node E} (hf : ∀ n, (f n).2.seat = n.seat) :
    r.SameSeats (r.modifyLocal gid thread f).registry := by
  rw [modifyLocal]
  split
  · exact .refl r
  · rename_i n hlocal
    refine ⟨rfl, rfl, rfl, rfl, map_modify_of_eq fun w hw => ?_⟩
    obtain ⟨w', hw', hfind⟩ := worker_of_localNode hlocal
    rw [hw'] at hw
    cases hw
    exact Store.seats_modify_const hfind (hf n)

theorem length_of_plan {r : Registry E} {gid : Nat} {props : PropertyMap} {frozen : Option Bool}
    {staged : List (Option E)} (h : r.plan gid props = .ok (frozen, staged)) :
    staged.length = r.workers.length := by
  obtain ⟨_, -, h⟩ := Except.bind_eq_ok_iff.1 h
  split at h
  · cases h
  · obtain ⟨frozen', -, h⟩ := Except.bind_eq_ok_iff.1 h
    obtain ⟨staged', hstaged, h⟩ := Except.bind_eq_ok_iff.1 h
    cases h
    exact Except.length_of_mapM_eq_ok hstaged

theorem sameSeats_write (r : Registry E) (gid : Nat) (props : PropertyMap) :
    r.SameSeats (r.write gid props).registry := by
  rw [write]
  split
  · exact .refl r
  · rename_i frozen staged hplan
    -- A plan that left out a thread would drop the thread's store.
    have hlength := length_of_plan hplan
    split
    · exact .refl r
    · refine ⟨rfl, rfl, rfl, rfl, ?_⟩
      have hcommit := seats_zipWith_commitWorker gid frozen hlength
      simp only [commit, seats]
      split
      · rw [List.map_map]
        exact hcommit
      · exact hcommit

theorem sameSeats_repartition (r : Registry E) : r.SameSeats r.repartition.1 := by
  rw [repartition]
  split
  · exact .refl r
  · exact ⟨rfl, rfl, rfl, rfl,
      seats_updatePartitions r.dispatch (fun _ w => Worker.seats_repartition _ w) r.workers⟩

theorem sameSeats_relaxingNodes (r : Registry E) (thread : Nat) :
    r.SameSeats (r.relaxingNodes thread).registry := by
  rw [relaxingNodes]
  split
  · exact .refl r
  · exact sameSeats_repartition r

theorem sameSeats_ensureLocalIds (r : Registry E) : r.SameSeats r.ensureLocalIds.registry := by
  have htold : r.SameSeats
      { r with workers := r.workers.map (Worker.learnSize r.size), stale := false } :=
    ⟨rfl, rfl, rfl, rfl, by simp only [seats, List.map_map]; rfl⟩
  simp only [ensureLocalIds]
  split
  · exact htold.trans (sameSeats_repartition _)
  · exact htold

theorem sameSeats_checkRelaxation (r : Registry E) : r.SameSeats r.checkRelaxation.2 :=
  ⟨rfl, rfl, rfl, rfl, rfl⟩

theorem sameSeats_checkRelaxationGlobal (r : Registry E) (reply : Except ExchangeError Gathered) :
    r.SameSeats (r.checkRelaxationGlobal.against reply).1.registry := by
  cases reply <;> exact ⟨rfl, rfl, rfl, rfl, rfl⟩

/-- A command that neither creates nor resets leaves all seats alone. -/
theorem sameSeats_apply (r : Registry E) (c : Command E) (hcreate : ∀ name n, c ≠ .create name n)
    (hid : ∀ id n, c ≠ .createById id n) (hreset : c ≠ .reset) : r.SameSeats (r.apply c) := by
  cases c with
  | create name count => exact absurd rfl (hcreate name count)
  | createById id count => exact absurd rfl (hid id count)
  | write gid props => exact sameSeats_write r gid props
  | edit gid thread change => exact sameSeats_modifyLocal r gid thread fun _ => rfl
  | activate gid thread =>
    refine sameSeats_modifyLocal r gid thread fun n => ?_
    rw [Node.activate]
    split <;> rfl
  | prepare =>
    have h := sameSeats_sweep r .prepare
    exact ⟨h.config, h.catalog, h.batches, h.nextGid, h.seats⟩
  | reinit => exact sameSeats_sweep r .initState
  | finalize => exact sameSeats_sweep r .finalize
  | postRunCleanup => exact sameSeats_sweep r .postRunCleanup
  | initState gid => exact sameSeats_initState r gid
  | ensureLocalIds => exact sameSeats_ensureLocalIds r
  | relaxingNodes thread => exact sameSeats_relaxingNodes r thread
  | checkRelaxation => exact sameSeats_checkRelaxation r
  | checkRelaxationGlobal reply => exact sameSeats_checkRelaxationGlobal r reply
  | reset => exact absurd rfl hreset

end Registry

end ElementGrid
