import ElementGrid.Proofs.Element.Simulation
/-!
# Elements that keep a log

An element can be given a log of the hooks that were called on it and of how each of them came out. The log
is beside the element and no hook looks at it, so an element with a log does what it does without one.

## Main definitions

* `Call` — a hook that was called, and whether it succeeded
* `Traced` — an element with the log of its calls
* `Traced.simulation` — what an element with a log does is what the element does
-/

namespace ElementGrid

/-- The hooks of an element. -/
inductive Hook where
  | init
  | initState
  | prepare
  | finalize
  | postRunCleanup
  deriving DecidableEq, Repr

/-- A hook that was called, and whether it succeeded. -/
structure Call where
  hook : Hook
  succeeded : Bool
  deriving DecidableEq, Repr

/-- An element with the log of its calls, the first one first. -/
structure Traced (E : Type) where
  element : E
  calls : List Call := []
  deriving DecidableEq, Repr

namespace Traced

variable {E τ : Type}

/-- An element on which no hook was called yet. -/
def new (e : E) : Traced E := { element := e }

/-- A hook that is noted in the log, whether it succeeds or not. -/
def note (hook : Hook) (h : Step E Fault Unit) : Step (Traced E) Fault Unit := fun e =>
  let (r, element) := h.run.run e.element
  (r, { element, calls := e.calls ++ [⟨hook, r.isOk⟩] })

/-- The same for a hook with something beside the element. -/
def noteWith (hook : Hook) (h : Step (E × τ) Fault Unit) : Step (Traced E × τ) Fault Unit :=
  fun (e, s) =>
    let (r, (element, s')) := h.run.run (e.element, s)
    (r, ({ element, calls := e.calls ++ [⟨hook, r.isOk⟩] }, s'))

/-- A step on the element that leaves the log alone. -/
def quietly {ε : Type} (h : Step (E × τ) ε Unit) : Step (Traced E × τ) ε Unit := fun (e, s) =>
  let (r, (element, s')) := h.run.run (e.element, s)
  (r, ({ e with element }, s'))

variable [Element E]

instance : Element (Traced E) where
  status e := Element.status e.element
  write := quietly Element.write
  mutability e := Element.mutability e.element
  init := note .init Element.init
  initState := note .initState Element.initState
  prepare ctx := noteWith .prepare (Element.prepare ctx)
  finalize := note .finalize Element.finalize
  postRunCleanup := note .postRunCleanup Element.postRunCleanup
  usesRelaxation e := Element.usesRelaxation e.element

omit [Element E] in
theorem alike_note (hook : Hook) (h : Step E Fault Unit) :
    Step.Alike (fun (e : Traced E) f => e.element = f) Eq (note hook h) h := by
  rintro e _ rfl
  exact ⟨.of_eq rfl, rfl⟩

omit [Element E] in
theorem alike_noteWith (hook : Hook) (h : Step (E × τ) Fault Unit) :
    Step.Alike (Step.Beside (fun (e : Traced E) f => e.element = f) τ) Eq (noteWith hook h) h := by
  rintro ⟨e, s⟩ ⟨_, _⟩ ⟨rfl, rfl⟩
  exact ⟨.of_eq rfl, rfl, rfl⟩

/-- What an element with a log does is what the element does. -/
def simulation : Simulation (Traced E) E where
  rel e f := e.element = f
  vps := Eq
  mutability := by
    rintro e _ rfl
    rfl
  write := by
    rintro ⟨e, s⟩ ⟨_, _⟩ ⟨rfl, rfl⟩
    exact ⟨.of_eq rfl, rfl, rfl⟩
  init := alike_note .init _
  initState := alike_note .initState _
  prepare := by
    rintro v _ rfl gid
    exact alike_noteWith .prepare _
  finalize := alike_note .finalize _
  postRunCleanup := alike_note .postRunCleanup _

end Traced

end ElementGrid
