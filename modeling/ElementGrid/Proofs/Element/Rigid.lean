import ElementGrid.Proofs.Element.Settled
import ElementGrid.Proofs.Property.Reader
/-!
# Elements that stay as they were built

An element says which of its properties are structural. The registry does not write these while the
element runs, but it calls hooks, which may do to the element whatever they like. The elements of the
standard models do not touch a structural property unless a write names one.

## Main definitions

* `Element.structural` — the structural properties that an element shows
* `Element.makeup` — these, and which properties are structural
* `Element.Rigid` — no hook changes the makeup, and no write that names no structural property does

## Main results

* `Element.Rigid.sum` — elements of two rigid types together are rigid
* `StandardElement.structural_eq` — what is structural of the standard elements
* `StandardElement.rigid` — the standard elements are rigid
-/

namespace ElementGrid

/-! ## Steps -/

/-- A step that begins with a reading of a property that is not given goes on without a value. -/
theorem Step.run_ask_bind {σ α β : Type} {reader : PropertyReader}
    {read : PropertyReader → Except PropertyError (Option α) × PropertyReader}
    (h : read reader = (.ok none, reader)) (k : Option α → Step (σ × PropertyReader) PropertyError β)
    (s : σ) :
    (ask read >>= k).run.run (s, reader) = (k none).run.run (s, reader) := by
  have hask : (ask read : Step (σ × PropertyReader) PropertyError (Option α)).run.run (s, reader) =
      (.ok none, s, reader) := by
    show ((read reader).1, s, (read reader).2) = _
    rw [h]
  rw [run_bind, hask]

/-! ## Rigid elements -/

namespace Element

/-- The structural properties that an element shows, with their values. -/
def structural {E : Type} [Element E] (e : E) : List (String × PropertyValue) :=
  (status e .empty).entries.filter fun p => mutability e p.1 = .structural

/-- What of an element is settled before it runs: which properties are structural, and their values. -/
def makeup {E : Type} [Element E] (e : E) : (String → Mutability) × List (String × PropertyValue) :=
  (mutability e, structural e)

/-- No hook changes the makeup of an element. A write may change the values of structural properties, but
only if it names one of them; a key that the registry keeps to itself does not count. -/
structure Rigid (E : Type) [Element E] : Prop where
  mutability_write : Step.Keeps (fun s : E × PropertyReader => mutability s.1) write
  structural_write : ∀ (e : E) (reader : PropertyReader),
    (∀ key ∈ reader.keys, key ≠ StatusKey.frozen → mutability e key ≠ .structural) →
      structural (write.run.run (e, reader)).2.1 = structural e
  hooks : HooksKeep (makeup : E → _)

variable {A B : Type} [Element A] [Element B]

/-- Elements without structural properties are rigid, whatever they do. -/
theorem rigid_of_dynamic (h : ∀ (a : A) key, mutability a key = .dynamic) : Rigid A := by
  have hmutability : ∀ a a' : A, mutability a = mutability a' := fun a a' =>
    funext fun key => (h a key).trans (h a' key).symm
  have hstructural : ∀ a : A, structural a = [] := fun a =>
    List.filter_eq_nil_iff.2 fun p _ => by simp [h a]
  have hmakeup : ∀ a a' : A, makeup a = makeup a' := fun a a' =>
    Prod.ext (hmutability a a') ((hstructural a).trans (hstructural a').symm)
  exact ⟨Step.keeps_of_constant (fun _ _ => hmutability _ _) _,
    fun e _ _ => (hstructural _).trans (hstructural e).symm, .of_constant hmakeup⟩

theorem Rigid.sum (hA : Rigid A) (hB : Rigid B) : Rigid (A ⊕ B) where
  mutability_write := keeps_sumHookWith hA.mutability_write hB.mutability_write
  structural_write
    | .inl a, reader, h => hA.structural_write a reader h
    | .inr b, reader, h => hB.structural_write b reader h
  hooks := .sum hA.hooks hB.hooks

end Element

/-! ## Standard elements -/

open Element (structural makeup Rigid)

@[simp]
theorem Counter.structural_eq (c : Counter) : structural c = [("threshold", .double c.threshold)] := by
  obtain ⟨count, threshold, _ | draw⟩ := c <;> rfl

@[simp]
theorem Positioned.structural_eq (p : Positioned) :
    structural p = [("position", .doubleArray [p.x, p.y])] := rfl

theorem Counter.makeup_of_threshold {c c' : Counter} (h : c'.threshold = c.threshold) :
    makeup c' = makeup c := by
  rw [makeup, makeup, structural_eq, structural_eq, h]
  rfl

theorem Counter.rigid : Rigid Counter where
  mutability_write := Step.keeps_of_constant (fun _ _ => rfl) _
  structural_write c reader h := by
    have habsent : "threshold" ∉ reader.keys := fun hmem => h _ hmem (by decide) rfl
    have hread : reader.double "threshold" = (.ok none, reader) := reader.read_of_not_mem habsent _ _
    show structural ((Step.ask (fun r => r.double "threshold") >>= _).run.run (c, reader)).2.1 = _
    rw [Step.run_ask_bind hread]
    refine (?_ : Step.Keeps (fun s : Counter × PropertyReader => structural s.1) _) (c, reader)
    exact (Step.keeps_onSecond _).bind fun count? => Step.keeps_assign count? fun _ _ => by
      rw [structural_eq, structural_eq]
  hooks :=
    { init := fun _ => rfl
      initState := fun _ => Counter.makeup_of_threshold rfl
      prepare := fun _ => (Step.keeps_onSecond _).bind fun _ =>
        Step.keeps_modifyFirst fun _ => Counter.makeup_of_threshold rfl
      finalize := fun _ => rfl
      postRunCleanup := fun _ => rfl }

theorem Positioned.rigid : Rigid Positioned where
  mutability_write := Step.keeps_of_constant (fun _ _ => rfl) _
  structural_write p reader h := by
    have habsent : "position" ∉ reader.keys := fun hmem => h _ hmem (by decide) rfl
    have hread : reader.doubleArray "position" = (.ok none, reader) := reader.read_of_not_mem habsent _ _
    show structural ((Step.ask (fun r => r.doubleArray "position") >>= _).run.run (p, reader)).2.1 = _
    rw [Step.run_ask_bind hread]
    rfl
  hooks := ⟨fun _ => rfl, fun _ => rfl, fun _ _ => rfl, fun _ => rfl, fun _ => rfl⟩

/-- The structural properties of the standard elements are the threshold and the position. -/
theorem StandardElement.structural_eq (e : StandardElement) :
    structural e =
      match e with
      | .inl c => [("threshold", .double c.threshold)]
      | .inr (.inr (.inl p)) => [("position", .doubleArray [p.x, p.y])]
      | _ => [] := by
  obtain c | e | p | e | e := e
  · exact c.structural_eq
  all_goals rfl

theorem StandardElement.rigid : Rigid StandardElement :=
  .sum Counter.rigid <| .sum (Element.rigid_of_dynamic fun _ _ => rfl) <| .sum Positioned.rigid <|
    .sum (Element.rigid_of_dynamic fun _ _ => rfl) (Element.rigid_of_dynamic fun _ _ => rfl)

end ElementGrid
