import ElementGrid.Property.Reader
import ElementGrid.Random.Draw
import ElementGrid.Ident
/-!
# Elements

What an element does is up to its model. The registry needs to know how an element shows and takes its
properties, which of them may change while it runs, and which hooks it has for the phases of a run.

## Main definitions

* `Step` — a step that changes a state and may fail
* `Mutability` — when a property can be written
* `Element` — what the registry needs to know of a type of elements

## Design notes

A hook that fails has still changed its state: what it did before failing stays done. The registry
decides what becomes of it.
-/

namespace ElementGrid

/-- A step that changes a state of type `σ` and fails with an `ε` or yields an `α`. What it did before
failing stays done. -/
abbrev Step (σ ε α : Type) := ExceptT ε (StateM σ) α

/-- The text with which a hook of an element fails. -/
abbrev Fault := String

/-- When a property can be written. -/
inductive Mutability where
  /-- Only before the element runs. -/
  | structural
  /-- At any time. -/
  | dynamic
  deriving DecidableEq, Repr

/-- What an element is told of its place when it is prepared. -/
structure PrepareContext where
  gid : Nat
  vp : Vp
  deriving DecidableEq, Repr

/-- What the registry needs to know of a type of elements. -/
class Element (E : Type) where
  /-- The status with the element's own properties added. -/
  status : E → PropertyMap → PropertyMap
  /-- Takes properties: reads those that the element has and changes it accordingly. -/
  write : Step (E × PropertyReader) PropertyError Unit
  /-- When a property of the element can be written. -/
  mutability : E → String → Mutability := fun _ _ => .dynamic
  /-- Runs once, before the first preparation. -/
  init : Step E Fault Unit := pure ()
  /-- Puts the state back to that of a new element. -/
  initState : Step E Fault Unit := pure ()
  /-- Runs before each run, and may draw from the stream of its virtual process. -/
  prepare : PrepareContext → Step (E × Generator) Fault Unit := fun _ => pure ()
  /-- Runs after each run. -/
  finalize : Step E Fault Unit := pure ()
  /-- Runs when everything is taken down. -/
  postRunCleanup : Step E Fault Unit := pure ()
  /-- The element takes part in waveform relaxation. -/
  usesRelaxation : E → Bool := fun _ => false

namespace Step

variable {σ τ ε α : Type}

/-- A step on the first part of a state. -/
def onFirst (h : Step σ ε α) : Step (σ × τ) ε α := fun (s, t) =>
  let (r, s') := h.run.run s
  (r, (s', t))

/-- A step on the second part of a state. -/
def onSecond (h : Step τ ε α) : Step (σ × τ) ε α := fun (s, t) =>
  let (r, t') := h.run.run t
  (r, (s, t'))

/-- Changes the first part of a state. -/
def modifyFirst (f : σ → σ) : Step (σ × τ) ε Unit := onFirst (modify f)

/-- A reading of properties, as part of taking them. -/
def ask (read : PropertyReader → Except PropertyError α × PropertyReader) :
    Step (σ × PropertyReader) PropertyError α :=
  onSecond fun r => read r

/-- Changes the first part of a state by a value, if there is one. -/
def assign (value : Option α) (f : α → σ → σ) : Step (σ × τ) ε Unit :=
  match value with
  | some a => modifyFirst (f a)
  | none => pure ()

end Step

/-! ## Sums

Elements of two types together are a type of elements. -/

namespace Element

variable {A B ε τ : Type}

/-- The hook of the alternative that the state holds. -/
def sumHook (f : Step A ε Unit) (g : Step B ε Unit) : Step (A ⊕ B) ε Unit
  | .inl a => let (r, a') := f.run.run a; (r, .inl a')
  | .inr b => let (r, b') := g.run.run b; (r, .inr b')

/-- The hook of the alternative that the first part of the state holds. -/
def sumHookWith (f : Step (A × τ) ε Unit) (g : Step (B × τ) ε Unit) : Step ((A ⊕ B) × τ) ε Unit
  | (.inl a, t) => let (r, (a', t')) := f.run.run (a, t); (r, (.inl a', t'))
  | (.inr b, t) => let (r, (b', t')) := g.run.run (b, t); (r, (.inr b', t'))

instance [Element A] [Element B] : Element (A ⊕ B) where
  status
    | .inl a => status a
    | .inr b => status b
  write := sumHookWith write write
  mutability
    | .inl a => mutability a
    | .inr b => mutability b
  init := sumHook init init
  initState := sumHook initState initState
  prepare ctx := sumHookWith (prepare ctx) (prepare ctx)
  finalize := sumHook finalize finalize
  postRunCleanup := sumHook postRunCleanup postRunCleanup
  usesRelaxation
    | .inl a => usesRelaxation a
    | .inr b => usesRelaxation b

end Element

end ElementGrid
