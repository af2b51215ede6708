import ElementGrid.Random.Draw
import ElementGrid.Proofs.Double.Units
/-!
# Uniform draws

A sampler of integers asks for a range that is not empty, and a sampler of reals also that its ends are a
finite distance apart. Bounds of integers are refused or are such a range. Bounds of reals are checked one by
one, so two finite ones that are too far apart are not refused and not what the sampler asks for either.

## Main definitions

* `Draw.Ascends` — finite bounds, the lower one first

## Main results

* `Generator.firstAccepted_mem` — what can be accepted, and what is drawn if nothing is
* `Generator.uniformInt_mem`, `Generator.uniformReal_lt` — the samplers keep to their ranges
* `Draw.uniform_exact` — what comes of any bounds
* `Draw.uniform_far_apart` — bounds that break what the sampler asks for
-/

namespace ElementGrid

/-! ## Samplers -/

namespace Generator

variable {α : Type} {g : Generator}

/-- What holds of the fallback and of all that is accepted holds of what is drawn. -/
theorem firstAccepted_mem {accept : UInt64 → Option α} {fallback : α} {p : α → Prop} (hfallback : p fallback)
    (haccept : ∀ w a, accept w = some a → p a) (tries : Nat) (g : Generator) :
    p (firstAccepted accept fallback tries g).1 := by
  induction tries generalizing g with
  | zero => exact hfallback
  | succ tries ih =>
    rw [firstAccepted]
    dsimp only
    split
    · rename_i a ha
      exact haccept _ a ha
    · exact ih _

/-- An integer is drawn between its bounds, also where they are all words and their number wraps to zero. -/
theorem uniformInt_mem {low high : Nat} (h : low ≤ high) (hfits : Word.Fits high) (g : Generator) :
    low ≤ (uniformInt low high g).1 ∧ (uniformInt low high g).1 ≤ high := by
  refine firstAccepted_mem (p := fun n => low ≤ n ∧ n ≤ high) ⟨Nat.le_refl low, h⟩ (fun w n hn => ?_) _ g
  have hw : w.toNat < Word.modulus := w.toNat_lt
  have hfits' : high < Word.modulus := hfits
  split at hn
  · -- The number of integers wraps to zero, so every word is one of them.
    rename_i hzero
    obtain rfl := Option.some.inj hn
    have hall : Word.modulus ∣ high - low + 1 := Nat.dvd_of_mod_eq_zero hzero
    have := Nat.le_of_dvd (by omega) hall
    omega
  · rename_i hrange
    dsimp only at hn
    split at hn
    · obtain rfl := Option.some.inj hn
      have hle : Word.wrap (high - low + 1) ≤ high - low + 1 := Nat.mod_le _ _
      have hplace : w.toNat * Word.wrap (high - low + 1) / Word.modulus < Word.wrap (high - low + 1) :=
        Nat.div_lt_of_lt_mul (Nat.mul_lt_mul_of_pos_right hw (Nat.pos_of_ne_zero hrange))
      exact ⟨Nat.le_add_right low _, by omega⟩
    · cases hn

/-- A real is drawn below its upper bound. -/
theorem uniformReal_lt {low high : Float} (h : low < high) (g : Generator) :
    (uniformReal low high g).1 < high := by
  refine firstAccepted_mem (p := fun x => x < high) h (fun w x hx => ?_) _ g
  dsimp only at hx
  split at hx
  · rename_i hlt
    obtain rfl := Option.some.inj hx
    exact hlt
  · cases hx

end Generator

/-! ## Draws -/

namespace Draw

open Rounding

/-- The bounds are finite, and the lower one comes first. -/
structure Ascends (low high : Double) : Prop where
  low_finite : low.isFinite
  high_finite : high.isFinite
  lt : low.units < high.units

theorem ascends_iff {low high : Double} :
    (low.isFinite && high.isFinite && decide (low.toFloat < high.toFloat)) = true ↔ Ascends low high := by
  rw [Bool.and_eq_true, Bool.and_eq_true, decide_eq_true_eq]
  constructor
  · rintro ⟨⟨hlow, hhigh⟩, hlt⟩
    exact ⟨hlow, hhigh, (Double.toFloat_lt_iff hlow hhigh).1 hlt⟩
  · intro h
    exact ⟨⟨h.low_finite, h.high_finite⟩, (Double.toFloat_lt_iff h.low_finite h.high_finite).2 h.lt⟩

/-- The difference of ascending bounds is finite if it is below the limit. -/
theorem Ascends.isFinite_sub_iff {low high : Double} (h : Ascends low high) :
    (Double.ofFloat (high.toFloat - low.toFloat)).isFinite ↔ high.units - low.units < limit := by
  have := h.lt
  rw [Double.isFinite_sub_iff h.high_finite h.low_finite]
  omega

/-- Bounds in order are handed to the sampler, which draws between them. -/
theorem uniformInt_ok {low high : Nat} (h : low ≤ high) (hfits : Word.Fits high) (g : Generator) :
    ∃ n g', Generator.uniformInt low high g = (n, g') ∧ uniformInt low high g = (.ok n, g') ∧
      low ≤ n ∧ n ≤ high := by
  refine ⟨(Generator.uniformInt low high g).1, (Generator.uniformInt low high g).2, rfl, ?_,
    Generator.uniformInt_mem h hfits g⟩
  rw [uniformInt, if_neg (Nat.not_lt.2 h)]
  rfl

theorem below_ok {n : Nat} (h : 0 < n) (hfits : Word.Fits n) (g : Generator) :
    ∃ k g', Generator.uniformInt 0 (n - 1) g = (k, g') ∧ below n g = (.ok k, g') ∧ k < n := by
  have hlast : Word.Fits (n - 1) := Nat.lt_of_le_of_lt (Nat.sub_le n 1) hfits
  obtain ⟨-, hk⟩ := Generator.uniformInt_mem (Nat.zero_le (n - 1)) hlast g
  refine ⟨(Generator.uniformInt 0 (n - 1) g).1, (Generator.uniformInt 0 (n - 1) g).2, rfl, ?_,
    Nat.lt_of_le_pred h hk⟩
  rw [below, if_neg h.ne']
  rfl

variable {low high : Double}

theorem uniformReal_of_not_ascends (h : ¬ Ascends low high) (g : Generator) :
    uniformReal low high g = (.error (.noInterval low high), g) := by
  have hcheck := Bool.eq_false_iff.2 (mt ascends_iff.1 h)
  rw [uniformReal, hcheck]
  rfl

theorem Ascends.uniformReal_of_limit_le (h : Ascends low high) (hfar : (limit : Int) ≤ high.units - low.units)
    (g : Generator) : uniformReal low high g = (.error .spanOverflow, g) := by
  have hspan := Bool.eq_false_iff.2 (mt h.isFinite_sub_iff.1 (Int.not_lt.2 hfar))
  rw [uniformReal, ascends_iff.2 h, hspan]
  rfl

theorem Ascends.uniformReal_ok (h : Ascends low high) (hnear : high.units - low.units < limit)
    (g : Generator) : ∃ x g', Generator.uniformReal low.toFloat high.toFloat g = (x, g') ∧
      uniformReal low high g = (.ok (.ofFloat x), g') ∧ (Double.ofFloat x).toFloat < high.toFloat := by
  have hbounds := (Double.toFloat_lt_iff h.low_finite h.high_finite).2 h.lt
  have hlt := Generator.uniformReal_lt hbounds g
  refine ⟨(Generator.uniformReal low.toFloat high.toFloat g).1,
    (Generator.uniformReal low.toFloat high.toFloat g).2, rfl, ?_, ?_⟩
  · rw [uniformReal, ascends_iff.2 h, h.isFinite_sub_iff.2 hnear]
    rfl
  · rwa [Double.toFloat_ofFloat_of_lt hlt]

/-- On any stream, whatever words bound the integers and whatever bits the reals:

Integers are refused if the lower bound exceeds the upper one, or if nothing lies below the bound; else the
sampler gets a range that is not empty, and draws from it. Reals are refused unless the bounds are finite and
ascend; else the sampler gets a range whose ends are a finite distance apart, and draws below its upper
bound. The one exception are bounds `2 ^ 1024 - 2 ^ 970` apart or more, whose difference is not finite: they
are not refused, and break what the sampler asks for. Nothing is drawn unless the sampler gets its range. -/
theorem uniform_exact (g : Generator) :
    (∀ low high, Word.Fits low → Word.Fits high →
      (high < low → uniformInt low high g = (.error (.disordered low high), g)) ∧
      (low ≤ high → ∃ n g', Generator.uniformInt low high g = (n, g') ∧
        uniformInt low high g = (.ok n, g') ∧ low ≤ n ∧ n ≤ high)) ∧
    (∀ n, Word.Fits n →
      (n = 0 → below n g = (.error .nothingBelowZero, g)) ∧
      (0 < n → ∃ k g', Generator.uniformInt 0 (n - 1) g = (k, g') ∧ below n g = (.ok k, g') ∧ k < n)) ∧
    ∀ low high : Double,
      (¬ Ascends low high → uniformReal low high g = (.error (.noInterval low high), g)) ∧
      (Ascends low high → high.units - low.units < limit →
        (Double.ofFloat (high.toFloat - low.toFloat)).isFinite ∧
        ∃ x g', Generator.uniformReal low.toFloat high.toFloat g = (x, g') ∧
          uniformReal low high g = (.ok (.ofFloat x), g') ∧
          (Double.ofFloat x).toFloat < high.toFloat) ∧
      (Ascends low high → limit ≤ high.units - low.units →
        uniformReal low high g = (.error .spanOverflow, g)) := by
  refine ⟨fun low high _ hfits => ⟨fun h => ?_, fun h => uniformInt_ok h hfits g⟩,
    fun n hfits => ⟨?_, fun h => below_ok h hfits g⟩,
    fun low high => ⟨fun h => uniformReal_of_not_ascends h g, fun h hnear => ?_,
      fun h hfar => h.uniformReal_of_limit_le hfar g⟩⟩
  · rw [uniformInt, if_pos h]
    rfl
  · rintro rfl
    rfl
  · exact ⟨h.isFinite_sub_iff.2 hnear, h.uniformReal_ok hnear g⟩

/-- The bounds `-2 ^ 1023` and `2 ^ 1023 - 2 ^ 971` are just near enough, and the next double after the upper
one is too far. All words are a range. -/
theorem uniform_exact_borderline :
    let g := Generator.ofSeed 1 0
    let low : Double := ⟨0xffe0000000000000⟩
    let near : Double := ⟨0x7fdffffffffffffe⟩
    let far : Double := ⟨0x7fdfffffffffffff⟩
    uniformInt 5 3 g = (.error (.disordered 5 3), g) ∧
      (∃ n g', uniformInt 0 18446744073709551615 g = (.ok n, g') ∧ n ≤ 18446744073709551615) ∧
      below 0 g = (.error .nothingBelowZero, g) ∧
      uniformReal near low g = (.error (.noInterval near low), g) ∧
      (∃ x g', uniformReal low near g = (.ok x, g') ∧ x.toFloat < near.toFloat) ∧
      uniformReal low far g = (.error .spanOverflow, g) := by
  intro g low near far
  obtain ⟨hinteger, hbelow, hreal⟩ := uniform_exact g
  have hnear : Ascends low near := ⟨by decide, by decide, by decide +kernel⟩
  have hfar : Ascends low far := ⟨by decide, by decide, by decide +kernel⟩
  have hnot : ¬ Ascends near low := fun h => absurd h.lt (by decide +kernel)
  obtain ⟨n, g₁, -, hdrawn, -, hn⟩ := (hinteger 0 18446744073709551615 (by decide) (by decide)).2 (by decide)
  obtain ⟨-, x, g₂, -, hx, hlt⟩ := (hreal low near).2.1 hnear (by decide +kernel)
  exact ⟨(hinteger 5 3 (by decide) (by decide)).1 (by decide), ⟨n, g₁, hdrawn, hn⟩,
    (hbelow 0 (by decide)).1 rfl, (hreal near low).1 hnot, ⟨_, g₂, hx, hlt⟩,
    (hreal low far).2.2 hfar (by decide +kernel)⟩

/-- Between the least and the greatest finite double the difference is infinite. The bounds pass the check,
and the sampler breaks down. -/
theorem uniform_far_apart :
    let g := Generator.ofSeed 1 0
    let low : Double := ⟨0xffefffffffffffff⟩
    let high : Double := ⟨0x7fefffffffffffff⟩
    low.isFinite ∧ high.isFinite ∧ low.toFloat < high.toFloat ∧
      ¬ (Double.ofFloat (high.toFloat - low.toFloat)).isFinite ∧
      uniformReal low high g = (.error .spanOverflow, g) ∧ DrawError.spanOverflow.isRefusal = false := by
  intro g low high
  have h : Ascends low high := ⟨by decide, by decide, by decide +kernel⟩
  exact ⟨h.low_finite, h.high_finite, by decide +kernel, by decide +kernel,
    h.uniformReal_of_limit_le (by decide +kernel) g, rfl⟩

end Draw

end ElementGrid
