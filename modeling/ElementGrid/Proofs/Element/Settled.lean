import ElementGrid.Element.Catalogs
import ElementGrid.Element.Probe
import ElementGrid.Proofs.Registry.Seats
/-!
# Elements that do not change their minds

Whether an element takes part in waveform relaxation is up to the element, and could change with every
hook. The elements of most models settle it once and for all when they are made.

## Main definitions

* `Element.HooksKeep` — no hook changes a given part of an element
* `Element.Settled` — no hook and no write changes whether an element takes part

## Main results

* `Element.HooksKeep.keeps_ofPhase` — what no hook changes no sweep changes either
* `StandardElement.settled`, `Probe.settled` — the standard elements and the probes are settled
-/

namespace ElementGrid

/-! ## Steps -/

/-- A view that shows the same of all states is left alone by every step. -/
theorem Step.keeps_of_constant {σ ε α β : Type} {view : σ → β} (hview : ∀ s s', view s = view s')
    (h : Step σ ε α) : h.Keeps view := fun _ => hview _ _

section Parts

variable {σ τ ε α β : Type} {view : σ → β}

theorem Step.keeps_throw (e : ε) : Step.Keeps view (throw e : Step σ ε α) := fun _ => rfl

theorem Step.keeps_onSecond (h : Step τ ε α) :
    Step.Keeps (fun s : σ × τ => view s.1) (Step.onSecond h) := fun _ => rfl

theorem Step.keeps_modifyFirst {f : σ → σ} (hf : ∀ s, view (f s) = view s) :
    Step.Keeps (fun s : σ × τ => view s.1) (Step.modifyFirst f : Step (σ × τ) ε Unit) :=
  fun s => hf s.1

theorem Step.keeps_assign (value : Option α) {f : α → σ → σ} (hf : ∀ a s, view (f a s) = view s) :
    Step.Keeps (fun s : σ × τ => view s.1) (Step.assign value f : Step (σ × τ) ε Unit) := by
  cases value with
  | none => exact fun _ => rfl
  | some a => exact keeps_modifyFirst (hf a)

end Parts

section Sums

variable {A B β : Type} {view : A ⊕ B → β}

theorem Element.keeps_sumHook {f : Step A Fault Unit} {g : Step B Fault Unit}
    (hf : f.Keeps fun a => view (.inl a)) (hg : g.Keeps fun b => view (.inr b)) :
    Step.Keeps view (Element.sumHook f g) := by
  rintro (a | b)
  · exact hf a
  · exact hg b

theorem Element.keeps_sumHookWith {ε τ : Type} {f : Step (A × τ) ε Unit} {g : Step (B × τ) ε Unit}
    (hf : f.Keeps fun s => view (.inl s.1)) (hg : g.Keeps fun s => view (.inr s.1)) :
    Step.Keeps (fun s : (A ⊕ B) × τ => view s.1) (Element.sumHookWith f g) := by
  rintro ⟨a | b, t⟩
  · exact hf (a, t)
  · exact hg (b, t)

end Sums

/-! ## Hooks -/

/-- No hook changes what `view` shows of an element. -/
structure Element.HooksKeep {E β : Type} [Element E] (view : E → β) : Prop where
  init : Step.Keeps view (Element.init : Step E Fault Unit)
  initState : Step.Keeps view (Element.initState : Step E Fault Unit)
  prepare : ∀ ctx, Step.Keeps (fun s : E × Generator => view s.1) (Element.prepare ctx)
  finalize : Step.Keeps view (Element.finalize : Step E Fault Unit)
  postRunCleanup : Step.Keeps view (Element.postRunCleanup : Step E Fault Unit)

namespace Element.HooksKeep

variable {E A B β : Type} [Element E] [Element A] [Element B]

theorem of_constant {view : E → β} (h : ∀ e e', view e = view e') : HooksKeep view where
  init := Step.keeps_of_constant h _
  initState := Step.keeps_of_constant h _
  prepare _ := Step.keeps_of_constant (fun _ _ => h _ _) _
  finalize := Step.keeps_of_constant h _
  postRunCleanup := Step.keeps_of_constant h _

theorem sum {view : A ⊕ B → β} (hA : HooksKeep fun a => view (.inl a))
    (hB : HooksKeep fun b => view (.inr b)) : HooksKeep view where
  init := keeps_sumHook hA.init hB.init
  initState := keeps_sumHook hA.initState hB.initState
  prepare ctx := keeps_sumHookWith (hA.prepare ctx) (hB.prepare ctx)
  finalize := keeps_sumHook hA.finalize hB.finalize
  postRunCleanup := keeps_sumHook hA.postRunCleanup hB.postRunCleanup

/-- Nor does a sweep change it of the element of an instance. -/
theorem keeps_ofPhase {view : E → β} (h : HooksKeep view) (phase : Phase) :
    Step.Keeps (fun s : Node E × Generator => view s.1.element) (Visit.ofPhase phase : Visit E Unit) :=
  Visit.keeps_ofPhase (fun _ _ => rfl) (fun s => h.init s.1.element) (fun s => h.initState s.1.element)
    (fun ctx s => h.prepare ctx (s.1.element, s.2)) (fun s => h.finalize s.1.element)
    (fun s => h.postRunCleanup s.1.element) phase

end Element.HooksKeep

/-! ## Elements -/

/-- No hook and no write changes whether an element takes part in waveform relaxation. -/
structure Element.Settled (E : Type) [Element E] : Prop where
  write : Step.Keeps (fun s : E × PropertyReader => usesRelaxation s.1) write
  init : Step.Keeps usesRelaxation (init : Step E Fault Unit)
  initState : Step.Keeps usesRelaxation (initState : Step E Fault Unit)
  prepare : ∀ ctx, Step.Keeps (fun s : E × Generator => usesRelaxation s.1) (prepare ctx)
  finalize : Step.Keeps usesRelaxation (finalize : Step E Fault Unit)
  postRunCleanup : Step.Keeps usesRelaxation (postRunCleanup : Step E Fault Unit)

namespace Element

variable {A B : Type} [Element A] [Element B]

/-- What is to be settled, apart from the writes, is that no hook changes it. -/
theorem settled_of_hooks (hwrite : Step.Keeps (fun s : A × PropertyReader => usesRelaxation s.1) write)
    (h : HooksKeep (usesRelaxation : A → Bool)) : Settled A :=
  ⟨hwrite, h.init, h.initState, h.prepare, h.finalize, h.postRunCleanup⟩

theorem Settled.hooks (h : Settled A) : HooksKeep (usesRelaxation : A → Bool) :=
  ⟨h.init, h.initState, h.prepare, h.finalize, h.postRunCleanup⟩

theorem settled_of_constant (h : ∀ a a' : A, usesRelaxation a = usesRelaxation a') : Settled A :=
  settled_of_hooks (Step.keeps_of_constant (fun _ _ => h _ _) _) (.of_constant h)

theorem Settled.sum (hA : Settled A) (hB : Settled B) : Settled (A ⊕ B) :=
  settled_of_hooks (keeps_sumHookWith hA.write hB.write) (.sum hA.hooks hB.hooks)

end Element

theorem StandardElement.settled : Element.Settled StandardElement :=
  .sum (Element.settled_of_constant fun _ _ => rfl) <|
  .sum (Element.settled_of_constant fun _ _ => rfl) <|
  .sum (Element.settled_of_constant fun _ _ => rfl) <|
  .sum (Element.settled_of_constant fun _ _ => rfl) <|
  Element.settled_of_constant fun _ _ => rfl

theorem Probe.settled : Element.Settled Probe where
  write := by
    have hlevel : Step.Keeps (fun s : Probe × PropertyReader => Element.usesRelaxation s.1) (do
        Step.assign (← Step.ask fun r => r.double "level") fun level e => { e with level }) :=
      (Step.keeps_onSecond _).bind fun level? => Step.keeps_assign level? fun _ _ => rfl
    refine (Step.keeps_onSecond _).bind fun capacity? => ?_
    cases capacity? with
    | none => exact hlevel
    | some capacity =>
      have hrest := (Step.keeps_modifyFirst (f := fun e : Probe => { e with capacity })
        fun _ => rfl).bind fun _ => hlevel
      show Step.Keeps _ (ite _ _ _)
      split
      · exact (Step.keeps_throw _).bind fun _ => hrest
      · exact hrest
  init := fun _ => rfl
  initState := Step.Keeps.bind (fun _ => rfl) fun _ _ => rfl
  prepare _ := fun _ => rfl
  finalize := fun _ => rfl
  postRunCleanup := fun _ => rfl

end ElementGrid
