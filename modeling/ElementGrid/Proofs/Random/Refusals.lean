import Mathlib.Control.Monad.Basic
import ElementGrid.Random.Draw
/-!
# Refused draws

Whether a draw is refused is decided by its parameters, before a word of the stream is read. A refused call
is therefore of no consequence to the calls after it: left out, it is not missed.

## Main definitions

* `Draw.Sampled`, `Draw.Decided` — a draw that no stream has refused, or that none or all have
* `Draw.Call` — a call of one of the ten families, with its parameters
* `Draw.run?` — calls in a row on one stream, as long as each of them returns

## Main results

* `Draw.decided_perform` — every family is decided by its parameters
* `Draw.refusals_unnoticed` — the calls that are not refused answer as if they had been the only ones
-/

namespace ElementGrid.Draw

variable {α β : Type}

/-! ## What decides a draw -/

/-- The draw makes a number of every stream. -/
def Sampled (d : Draw α) : Prop := ∀ g, ∃ a g', d g = (.ok a, g')

/-- The stream has no say in whether the draw is refused, and is not read if it is. -/
inductive Decided (d : Draw α) : Prop
  | refused (e : DrawError) (h : ∀ g, d g = (.error e, g))
  | sampled (h : Sampled d)

theorem sampled_ofSampler (f : Generator → α × Generator) : Sampled (ofSampler f) :=
  fun g => ⟨(f g).1, (f g).2, rfl⟩

theorem sampled_pure (a : α) : Sampled (pure a : Draw α) := fun g => ⟨a, g, rfl⟩

theorem bind_apply_of_ok {d : Draw α} {f : α → Draw β} {g g' : Generator} {a : α}
    (h : d g = (.ok a, g')) : (d >>= f) g = f a g' := by
  change (ExceptT.bindCont f (d g).1) (d g).2 = _
  rw [h]
  rfl

theorem bind_apply_of_error {d : Draw α} {f : α → Draw β} {g g' : Generator} {e : DrawError}
    (h : d g = (.error e, g')) : (d >>= f) g = (.error e, g') := by
  change (ExceptT.bindCont f (d g).1) (d g).2 = _
  rw [h]
  rfl

theorem Sampled.bind {d : Draw α} {f : α → Draw β} (h : Sampled d) (hf : ∀ a, Sampled (f a)) :
    Sampled (d >>= f) := by
  intro g
  obtain ⟨a, g', hd⟩ := h g
  rw [bind_apply_of_ok hd]
  exact hf a g'

theorem Sampled.ite {c : Prop} [Decidable c] {d d' : Draw α} (h : Sampled d) (h' : Sampled d') :
    Sampled (if c then d else d') := by
  split
  · exact h
  · exact h'

theorem Decided.ite {c : Prop} [Decidable c] {d d' : Draw α} (h : Decided d) (h' : Decided d') :
    Decided (if c then d else d') := by
  split
  · exact h
  · exact h'

theorem decided_throw (e : DrawError) : Decided (throw e : Draw α) := .refused e fun _ => rfl

/-- What would follow a refusal does not matter. -/
theorem decided_throw_bind (e : DrawError) (f : α → Draw β) : Decided (throw e >>= f) :=
  .refused e fun _ => rfl

theorem Decided.map {d : Draw α} (h : Decided d) (f : α → β) : Decided (f <$> d) := by
  rw [← bind_pure_comp]
  cases h with
  | refused e h => exact .refused e fun g => bind_apply_of_error (h g)
  | sampled h => exact .sampled (h.bind fun a => sampled_pure (f a))

/-! ## Families -/

/-- A call of one of the families, with its parameters. -/
inductive Call where
  | unit
  | below (n : Nat)
  | uniformInt (low high : Nat)
  | uniformReal (low high : Double)
  | normal (mean deviation : Double)
  | lognormal (mu sigma : Double)
  | exponential (rate : Double)
  | gamma (shape scale : Double)
  | poisson (mean : Double)
  | binomial (trials : Nat) (chance : Double)

/-- What is drawn. -/
inductive Drawn where
  | integer (n : Nat)
  | real (x : Double)
  deriving DecidableEq

/-- The draw that is called for. -/
def Call.perform (samplers : Samplers) : Call → Draw Drawn
  | unit => .real <$> Draw.unit
  | below n => .integer <$> Draw.below n
  | uniformInt low high => .integer <$> Draw.uniformInt low high
  | uniformReal low high => .real <$> Draw.uniformReal low high
  | normal mean deviation => .real <$> Draw.normal samplers mean deviation
  | lognormal mu sigma => .real <$> Draw.lognormal samplers mu sigma
  | exponential rate => .real <$> Draw.exponential samplers rate
  | gamma shape scale => .real <$> Draw.gamma samplers shape scale
  | poisson mean => .integer <$> Draw.poisson samplers mean
  | binomial trials chance => .integer <$> Draw.binomial samplers trials chance

theorem decided_unit : Decided unit := (Decided.sampled (sampled_ofSampler _)).map _

theorem decided_uniformInt (low high : Nat) : Decided (uniformInt low high) :=
  .ite (decided_throw _) (.sampled (sampled_ofSampler _))

theorem decided_below (n : Nat) : Decided (below n) :=
  .ite (decided_throw _) (.sampled (sampled_ofSampler _))

theorem decided_uniformReal (low high : Double) : Decided (uniformReal low high) :=
  .ite (decided_throw _) <| .ite (decided_throw _) <| (Decided.sampled (sampled_ofSampler _)).map _

section Families

variable (samplers : Samplers)

theorem decided_normal (mean deviation : Double) : Decided (normal samplers mean deviation) :=
  .ite (decided_throw_bind _ _) <| .sampled <| (sampled_ofSampler _).bind fun _ => sampled_pure _

theorem decided_lognormal (mu sigma : Double) : Decided (lognormal samplers mu sigma) :=
  .ite (decided_throw_bind _ _) <| .sampled <| (sampled_ofSampler _).bind fun _ => sampled_pure _

theorem decided_exponential (rate : Double) : Decided (exponential samplers rate) :=
  .ite (decided_throw_bind _ _) <| .sampled <| (sampled_ofSampler _).bind fun _ => sampled_pure _

theorem decided_gamma (shape scale : Double) : Decided (gamma samplers shape scale) := by
  refine .ite (decided_throw_bind _ _) <| .ite (decided_throw_bind _ _) <| .ite ?_ ?_
  · exact decided_exponential samplers _
  · exact .sampled <| (sampled_ofSampler _).bind fun _ => sampled_pure _

theorem decided_poisson (mean : Double) : Decided (poisson samplers mean) := by
  refine .ite (decided_throw_bind _ _) <| .sampled <| .ite ?_ ?_
  · exact (sampled_ofSampler _).bind fun _ => sampled_pure _
  · exact sampled_ofSampler _

theorem decided_binomial (trials : Nat) (chance : Double) :
    Decided (binomial samplers trials chance) := by
  refine .ite (decided_throw_bind _ _) <| .ite (decided_throw_bind _ _) <| .sampled ?_
  refine .ite (sampled_pure _) <| .ite (sampled_pure _) <| .ite ?_ ?_
  · exact (sampled_ofSampler _).bind fun _ => (sampled_pure _).bind fun _ => sampled_pure _
  · exact (sampled_ofSampler _).bind fun _ => sampled_pure _

theorem decided_perform (call : Call) : Decided (call.perform samplers) := by
  cases call with
  | unit => exact decided_unit.map _
  | below n => exact (decided_below n).map _
  | uniformInt low high => exact (decided_uniformInt low high).map _
  | uniformReal low high => exact (decided_uniformReal low high).map _
  | normal mean deviation => exact (decided_normal samplers mean deviation).map _
  | lognormal mu sigma => exact (decided_lognormal samplers mu sigma).map _
  | exponential rate => exact (decided_exponential samplers rate).map _
  | gamma shape scale => exact (decided_gamma samplers shape scale).map _
  | poisson mean => exact (decided_poisson samplers mean).map _
  | binomial trials chance => exact (decided_binomial samplers trials chance).map _

end Families

/-! ## Calls in a row -/

/-- What a call answers: a number, or why its parameters are refused. -/
abbrev Answer := Except DrawError Drawn

/-- The parameters are refused. -/
def Answer.isRefused : Answer → Bool
  | .error e => e.isRefusal
  | .ok _ => false

/-- The call returns, be it with a number or with a refusal. -/
def Answer.isReturned : Answer → Bool
  | .error e => e.isRefusal
  | .ok _ => true

variable (samplers : Samplers)

/-- The answers to calls in a row, and the stream after them, if every call returns. -/
def run? : List Call → Generator → Option (List Answer × Generator)
  | [], g => some ([], g)
  | call :: calls, g =>
    let (answer, g) := call.perform samplers g
    if Answer.isReturned answer then (run? calls g).map fun (answers, g) => (answer :: answers, g)
    else none

variable {samplers} {call : Call} {calls : List Call} {g g' : Generator} {answers : List Answer}

/-- A step of a run: the first call returns, and the others go on where it leaves the stream. -/
theorem run?_cons_eq_some :
    run? samplers (call :: calls) g = some (answers, g') ↔
      ∃ (answer : Answer) (g₁ : Generator) (rest : List Answer),
        call.perform samplers g = (answer, g₁) ∧ answer.isReturned ∧
        run? samplers calls g₁ = some (rest, g') ∧ answers = answer :: rest := by
  rcases hfirst : call.perform samplers g with ⟨answer, g₁⟩
  simp only [run?, hfirst]
  constructor
  · intro h
    split at h
    · rename_i hreturned
      obtain ⟨⟨rest, g₂⟩, hrest, heq⟩ := Option.map_eq_some_iff.1 h
      cases heq
      exact ⟨answer, g₁, rest, rfl, hreturned, hrest, rfl⟩
    · cases h
  · rintro ⟨_, _, rest, ⟨⟩, hreturned, hrest, rfl⟩
    rw [if_pos hreturned, hrest]
    rfl

/-- A refused call leaves the stream where it was. -/
theorem perform_of_isRefused {answer : Answer} {g₁ : Generator}
    (h : call.perform samplers g = (answer, g₁)) (hrefused : answer.isRefused) : g₁ = g := by
  cases decided_perform samplers call with
  | refused e hall =>
    rw [hall g] at h
    exact (congrArg Prod.snd h).symm
  | sampled hall =>
    obtain ⟨a, _, hok⟩ := hall g
    rw [hok] at h
    cases h
    cases hrefused

/-- The calls that were not refused, with their answers. -/
def unrefused (calls : List Call) (answers : List Answer) : List (Call × Answer) :=
  (calls.zip answers).filter fun answered => !Answer.isRefused answered.2

theorem unrefused_cons_of_isRefused {answer : Answer} (h : answer.isRefused) :
    unrefused (call :: calls) (answer :: answers) = unrefused calls answers :=
  List.filter_cons_of_neg (by simp [h])

theorem unrefused_cons_of_not_isRefused {answer : Answer} (h : ¬ answer.isRefused) :
    unrefused (call :: calls) (answer :: answers) = (call, answer) :: unrefused calls answers :=
  List.filter_cons_of_pos (by simp [h])

/-- If every one of the calls returns, on a stream that may stand anywhere, then each has an answer. The
calls that are not refused, made alone, are answered as they were among the others, and leave the stream in
the same place. -/
theorem refusals_unnoticed (h : run? samplers calls g = some (answers, g')) :
    answers.length = calls.length ∧
      run? samplers ((unrefused calls answers).map Prod.fst) g =
        some ((unrefused calls answers).map Prod.snd, g') := by
  induction calls generalizing g answers with
  | nil =>
    cases h
    exact ⟨rfl, rfl⟩
  | cons call calls ih =>
    obtain ⟨answer, g₁, rest, hfirst, hreturned, hrest, rfl⟩ := run?_cons_eq_some.1 h
    obtain ⟨hlength, hrun⟩ := ih hrest
    refine ⟨congrArg (· + 1) hlength, ?_⟩
    -- The other calls ran from where the first one left the stream, which is where it was if it was refused.
    by_cases hrefused : answer.isRefused
    · rw [unrefused_cons_of_isRefused hrefused]
      rwa [perform_of_isRefused hfirst hrefused] at hrun
    · rw [unrefused_cons_of_not_isRefused hrefused]
      exact run?_cons_eq_some.2 ⟨_, _, _, hfirst, hreturned, hrun, rfl⟩

/-- Of five calls three are refused, the first of them before anything has been drawn. -/
theorem refusals_unnoticed_mixed :
    let g := Generator.ofSeed 1 0
    let g' := { g with position := 2 }
    run? Samplers.plain
        [.uniformInt 5 3, .below 7, .normal .zero .undefined, .below 0, .uniformInt 1 6] g =
      some ([.error (.disordered 5 3), .ok (.integer 2), .error (.normalSpread .undefined),
        .error .nothingBelowZero, .ok (.integer 1)], g') ∧
      run? Samplers.plain [.below 7, .uniformInt 1 6] g =
        some ([.ok (.integer 2), .ok (.integer 1)], g') := by
  intro g g'
  have hrun : run? Samplers.plain
      [.uniformInt 5 3, .below 7, .normal .zero .undefined, .below 0, .uniformInt 1 6] g =
      some ([.error (.disordered 5 3), .ok (.integer 2), .error (.normalSpread .undefined),
        .error .nothingBelowZero, .ok (.integer 1)], g') := by decide +kernel
  exact ⟨hrun, (refusals_unnoticed hrun).2⟩

end ElementGrid.Draw
