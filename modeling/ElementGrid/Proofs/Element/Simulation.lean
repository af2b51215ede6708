import Mathlib.Data.List.Forall2
import ElementGrid.Sweep
import ElementGrid.Proofs.Registry.Seats
/-!
# Elements that do alike

Two types of elements may stand for each other: what one does with its hooks, the other does too, and
related elements stay related. Then a visit cannot tell their instances apart, and neither can a sweep.

## Main definitions

* `Step.Alike` — steps with one outcome that lead related states to related states
* `Simulation` — a relation of elements that all hooks keep
* `Simulation.Nodes` — instances that differ in their elements and virtual processes only

## Main results

* `Simulation.ofPhase` — the visits of a sweep do alike
* `Simulation.sweepNodes` — and so do the sweeps of a thread
-/

namespace ElementGrid

/-! ## Outcomes and steps -/

/-- Results that fail alike, or succeed with related values. -/
inductive Except.Alike {ε α β : Type} (Q : α → β → Prop) : Except ε α → Except ε β → Prop
  | error (e : ε) : Alike Q (.error e) (.error e)
  | ok {a : α} {b : β} : Q a b → Alike Q (.ok a) (.ok b)

namespace Except.Alike

variable {ε α β γ δ : Type} {Q : α → β → Prop} {Q' : γ → δ → Prop}

theorem of_eq {x y : Except ε α} (h : x = y) : Alike Eq x y := by
  subst h
  cases x with
  | error e => exact .error e
  | ok a => exact .ok rfl

theorem eq {x y : Except ε α} (h : Alike Eq x y) : x = y := by
  cases h with
  | error e => rfl
  | ok hab => rw [hab]

theorem bind {x : Except ε α} {y : Except ε β} {f : α → Except ε γ} {g : β → Except ε δ}
    (h : Alike Q x y) (hnext : ∀ a b, Q a b → Alike Q' (f a) (g b)) :
    Alike Q' (x >>= f) (y >>= g) := by
  cases h with
  | error e => exact .error e
  | ok hab => exact hnext _ _ hab

theorem exists_ok_iff {x : Except ε α} {y : Except ε β} (h : Alike Q x y) :
    (∃ a, x = .ok a) ↔ ∃ b, y = .ok b := by
  cases h with
  | error e => simp
  | ok hab => simp

end Except.Alike

namespace Step

variable {σ τ ρ ε α β γ δ : Type}

/-- The steps come to results that are alike and lead related states to related states, also where they
fail. -/
def Alike (R : σ → τ → Prop) (Q : α → β → Prop) (f : Step σ ε α) (g : Step τ ε β) : Prop :=
  ∀ s t, R s t → Except.Alike Q (f.run.run s).1 (g.run.run t).1 ∧ R (f.run.run s).2 (g.run.run t).2

/-- States that are related and have one thing beside them. -/
def Beside (R : σ → τ → Prop) (ρ : Type) (p : σ × ρ) (q : τ × ρ) : Prop := R p.1 q.1 ∧ p.2 = q.2

variable {R : σ → τ → Prop} {Q : α → β → Prop} {Q' : γ → δ → Prop}

theorem Alike.bind {f : Step σ ε α} {g : Step τ ε β} {f' : α → Step σ ε γ} {g' : β → Step τ ε δ}
    (h : Alike R Q f g) (hnext : ∀ a b, Q a b → Alike R Q' (f' a) (g' b)) :
    Alike R Q' (f >>= f') (g >>= g') := by
  intro s t hst
  obtain ⟨hresult, hstate⟩ := h s t hst
  rw [run_bind, run_bind]
  rcases hf : f.run.run s with ⟨x, s'⟩
  rcases hg : g.run.run t with ⟨y, t'⟩
  rw [hf, hg] at hresult hstate
  cases hresult with
  | error e => exact ⟨.error e, hstate⟩
  | ok hab => exact hnext _ _ hab s' t' hstate

/-- A step does as it does itself, as long as related states are the same. -/
theorem alike_self {R : σ → σ → Prop} (hR : ∀ s t, R s t ↔ s = t) (f : Step σ ε α) :
    Alike R Eq f f := by
  intro s t hst
  obtain rfl := (hR s t).1 hst
  exact ⟨.of_eq rfl, (hR _ _).2 rfl⟩

theorem beside_eq_iff {p q : σ × ρ} : Beside Eq ρ p q ↔ p = q := Prod.ext_iff.symm

theorem alike_get : Alike R R (get : Step σ ε σ) (get : Step τ ε τ) :=
  fun _ _ hst => ⟨.ok hst, hst⟩

end Step

/-! ## Relations that all hooks keep -/

/-- A relation of elements that all hooks keep. How elements show themselves and whether they take part
in waveform relaxation does not matter: no hook asks for it. -/
structure Simulation (E F : Type) [Element E] [Element F] where
  rel : E → F → Prop
  /-- Virtual processes that the hooks do not tell apart. -/
  vps : Vp → Vp → Prop
  mutability : ∀ {e f}, rel e f → Element.mutability e = Element.mutability f
  write : Step.Alike (Step.Beside rel PropertyReader) Eq Element.write Element.write
  init : Step.Alike rel Eq Element.init Element.init
  initState : Step.Alike rel Eq Element.initState Element.initState
  prepare : ∀ {v v'}, vps v v' → ∀ gid,
    Step.Alike (Step.Beside rel Generator) Eq (Element.prepare ⟨gid, v⟩) (Element.prepare ⟨gid, v'⟩)
  finalize : Step.Alike rel Eq Element.finalize Element.finalize
  postRunCleanup : Step.Alike rel Eq Element.postRunCleanup Element.postRunCleanup

namespace Simulation

variable {E F : Type} [Element E] [Element F] (S : Simulation E F)

/-- Instances that differ in their elements and their virtual processes only, and in these as the
simulation allows. -/
structure Nodes (n : Node E) (m : Node F) : Prop where
  gid : n.gid = m.gid
  model : n.model = m.model
  category : n.category = m.category
  vp : S.vps n.vp m.vp
  localId : n.localId = m.localId
  state : n.state = m.state
  frozen : n.frozen = m.frozen
  element : S.rel n.element m.element

/-- The states of a visit: related instances and one stream. -/
abbrev Visited : Node E × Generator → Node F × Generator → Prop := Step.Beside S.Nodes Generator

variable {S}

theorem onElement {h : Step E Fault Unit} {h' : Step F Fault Unit} (hh : Step.Alike S.rel Eq h h') :
    Step.Alike S.Visited Eq (Visit.onElement h) (Visit.onElement h') := by
  rintro ⟨n, g⟩ ⟨m, g'⟩ ⟨hnodes, hstream⟩
  obtain ⟨hresult, helement⟩ := hh n.element m.element hnodes.element
  exact ⟨hresult, { hnodes with element := helement }, hstream⟩

theorem onElementWith {h : Step (E × Generator) Fault Unit} {h' : Step (F × Generator) Fault Unit}
    (hh : Step.Alike (Step.Beside S.rel Generator) Eq h h') :
    Step.Alike S.Visited Eq (Visit.onElementWith h) (Visit.onElementWith h') := by
  rintro ⟨n, g⟩ ⟨m, g'⟩ ⟨hnodes, hstream⟩
  obtain ⟨hresult, helement, hstream'⟩ := hh (n.element, g) (m.element, g') ⟨hnodes.element, hstream⟩
  exact ⟨hresult, { hnodes with element := helement }, hstream'⟩

theorem enter (state : NodeState) :
    Step.Alike S.Visited Eq (Visit.enter state) (Visit.enter state) := by
  rintro ⟨n, g⟩ ⟨m, g'⟩ ⟨hnodes, hstream⟩
  exact ⟨.ok rfl, { hnodes with state := rfl }, hstream⟩

theorem prepareVisit : Step.Alike S.Visited Eq Visit.prepare Visit.prepare := by
  -- What follows the initialization, if there is one.
  have hrest : Step.Alike S.Visited Eq
      (do
        let n := (← (get : Visit E (Node E × Generator))).1
        Visit.onElementWith (Element.prepare ⟨n.gid, n.vp⟩)
        Visit.enter .initialized)
      (do
        let m := (← (get : Visit F (Node F × Generator))).1
        Visit.onElementWith (Element.prepare ⟨m.gid, m.vp⟩)
        Visit.enter .initialized) := by
    refine Step.alike_get.bind fun s t hst => ?_
    simp only [hst.1.gid]
    exact (onElementWith (S.prepare hst.1.vp t.1.gid)).bind fun _ _ _ => enter .initialized
  refine Step.alike_get.bind fun s t hst => ?_
  rw [hst.1.state]
  split
  · exact (onElement S.init).bind fun _ _ _ => (enter .initialized).bind fun _ _ _ => hrest
  · exact hrest

theorem ofPhase (phase : Phase) :
    Step.Alike S.Visited Eq (Visit.ofPhase phase) (Visit.ofPhase phase) := by
  cases phase with
  | prepare => exact prepareVisit
  | initState => exact onElement S.initState
  | finalize => exact (onElement S.finalize).bind fun _ _ _ => enter .finalized
  | postRunCleanup => exact onElement S.postRunCleanup

/-- The visits of a thread leave related instances and one stream behind. -/
theorem sweepNodes (phase : Phase) {ns : List (Node E)} {ms : List (Node F)}
    (h : List.Forall₂ S.Nodes ns ms) (g : Generator) (t t' : Tally) :
    List.Forall₂ S.Nodes (ElementGrid.sweepNodes (Visit.ofPhase phase) ns g t).1
        (ElementGrid.sweepNodes (Visit.ofPhase phase) ms g t').1 ∧
      (ElementGrid.sweepNodes (Visit.ofPhase phase) ns g t).2.1 =
        (ElementGrid.sweepNodes (Visit.ofPhase phase) ms g t').2.1 := by
  induction h generalizing g t t' with
  | nil => exact ⟨.nil, rfl⟩
  | @cons n m ns ms hnm _ ih =>
    obtain ⟨-, hnodes, hstream⟩ := ofPhase phase (n, g) (m, g) ⟨hnm, rfl⟩
    rw [ElementGrid.sweepNodes, ElementGrid.sweepNodes]
    rcases hn : (Visit.ofPhase phase : Visit E Unit).run.run (n, g) with ⟨r, n', g'⟩
    rcases hm : (Visit.ofPhase phase : Visit F Unit).run.run (m, g) with ⟨r', m', g''⟩
    rw [hn, hm] at hnodes hstream
    obtain rfl : g' = g'' := hstream
    obtain ⟨htail, hend⟩ := ih g' (t.record n' r) (t'.record m' r')
    exact ⟨.cons hnodes htail, hend⟩

end Simulation

end ElementGrid
