import Mathlib
/-!
# Rounding to doubles

The exact result of a difference is rounded to the nearest number of 53 bits, and to the even one of two that
are as near. What rounds to more than the largest number that can be packed becomes infinite.

The lemmas are about `Float.Model`, by which `Float` arithmetic is defined. The least positive double, which
is `2 ^ -1074`, is the unit in which they count.

## Main definitions

* `Rounding.Shifted` — what a mantissa leaves behind when its last bits are shifted out
* `Rounding.Packable` — an unpacked number that is packed as a finite one
* `Rounding.limit` — the least result that is rounded to infinity

## Main results

* `Rounding.Shifted.even_le_iff` — when a rounded mantissa reaches an even number
* `Rounding.packable_round_iff` — the numbers below the limit round to finite ones
-/

namespace ElementGrid.Rounding

open Float.Model Float.Model.UnpackedFloat

/-! ## Shifting -/

/-- The mantissa `m` without its last bits, `unit` being the weight of the last bit that is left. The round
bit and the sticky bit tell how twice what is lost compares to `unit`. -/
structure Shifted (m unit : Nat) (em : ExtendedMantissa) : Prop where
  mantissa : em.mantissa = m / unit
  roundBit : em.roundBit = true ↔ unit ≤ 2 * (m % unit)
  stickyBit : em.stickyBit = true ↔ m % unit ≠ 0 ∧ 2 * (m % unit) ≠ unit

variable {m unit : Nat} {em : ExtendedMantissa}

theorem Shifted.shiftRightOne (h : Shifted m unit em) (hunit : 0 < unit) :
    Shifted m (unit * 2) em.shiftRightOne := by
  have hlost : m % unit < unit := Nat.mod_lt m hunit
  have hbit : m / unit % 2 = 0 ∨ m / unit % 2 = 1 := Nat.mod_two_eq_zero_or_one _
  constructor
  · rw [ExtendedMantissa.shiftRightOne, h.mantissa, Nat.div_div_eq_div_mul]
  · simp only [ExtendedMantissa.shiftRightOne, h.mantissa, bne_iff_ne, Nat.mod_mul]
    rcases hbit with hbit | hbit <;> rw [hbit] <;> omega
  · simp only [ExtendedMantissa.shiftRightOne, Bool.or_eq_true, h.roundBit, h.stickyBit, Nat.mod_mul]
    rcases hbit with hbit | hbit <;> rw [hbit] <;> omega

theorem shifted_shiftRight (m k : Nat) :
    Shifted m (2 ^ k) ((ExtendedMantissa.ofMantissaAndAccuracy m .exact) >>> k) := by
  induction k with
  | zero =>
    change Shifted m 1 ⟨m, false, false⟩
    constructor <;> simp [Nat.mod_one]
  | succ k ih => exact ih.shiftRightOne (Nat.two_pow_pos k)

/-- Half a unit or more rounds up, but for half a unit above an even mantissa. -/
theorem Shifted.roundedMantissa_eq (h : Shifted m unit em) (hunit : 0 < unit) :
    em.roundedMantissa = if 2 * (m % unit) < unit then m / unit
      else if 2 * (m % unit) = unit then m / unit + m / unit % 2 else m / unit + 1 := by
  obtain ⟨a, round, sticky⟩ := em
  obtain ⟨hmantissa, hround, hsticky⟩ := h
  simp only at hmantissa hround hsticky
  subst hmantissa
  rw [ExtendedMantissa.roundedMantissa]
  split
  · rename_i hbelow
    obtain rfl : round = false := by simpa [Nat.not_le.2 hbelow] using hround
    cases sticky <;> rfl
  · rename_i hbelow
    obtain rfl : round = true := hround.2 (Nat.not_lt.1 hbelow)
    split
    · rename_i htie
      obtain rfl : sticky = false := by simpa [htie] using hsticky
      rfl
    · rename_i htie
      obtain rfl : sticky = true := hsticky.2 ⟨by omega, htie⟩
      rfl

/-- A rounded mantissa reaches an even number if the mantissa comes within half a unit of it. -/
theorem Shifted.even_le_iff (h : Shifted m unit em) (hunit : 0 < unit) {n : Nat} (hn : n % 2 = 0) :
    n ≤ em.roundedMantissa ↔ n * (2 * unit) ≤ 2 * m + unit := by
  have hlost : m % unit < unit := Nat.mod_lt m hunit
  have hsplit : 2 * m + unit = 2 * (m % unit) + unit + m / unit * (2 * unit) := by
    linarith [Nat.mod_add_div m unit]
  rw [← Nat.le_div_iff_mul_le (by omega), hsplit, Nat.add_mul_div_right _ _ (by omega),
    h.roundedMantissa_eq hunit]
  split
  · have hzero : (2 * (m % unit) + unit) / (2 * unit) = 0 := Nat.div_eq_of_lt (by omega)
    rw [hzero, Nat.zero_add]
  · have hone : (2 * (m % unit) + unit) / (2 * unit) = 1 := Nat.div_eq_of_lt_le (by omega) (by omega)
    rw [hone]
    split <;> omega

/-! ## Packing -/

/-- The number is packed as a zero or as a finite number, and not as an infinity. -/
def Packable : UnpackedFloat → Prop
  | .zero _ => True
  | .finite _ _ e _ => e ≤ 971
  | _ => False

/-- What is packed has all bits of its exponent set if it is infinite or undefined. -/
theorem unpackExponent_pack_ne_iff (u : UnpackedFloat) :
    unpackExponent (UnpackedFloat.pack Format.binary64 u) ≠ -1#11 ↔ Packable u := by
  cases u with
  | infinity s => simp [UnpackedFloat.pack, packedInfinity, Packable]
  | notANumber => simp [UnpackedFloat.pack, packedNaN, Packable]
  | zero s => simp [UnpackedFloat.pack, packedZero, Packable]
  | finite s m e hm =>
    have hbias : Format.binary64.exponentBias = 1023 := rfl
    rw [UnpackedFloat.pack, hbias, Packable]
    dsimp only
    obtain ⟨biased, hbiased⟩ : ∃ biased, biased = (e + (1023 : Nat) + (52 : Nat)).toNat := ⟨_, rfl⟩
    rw [← hbiased]
    split
    · simp only [packedInfinity, unpackExponent_packComponents, ne_eq, not_true_eq_false, false_iff]
      omega
    · have hfits : e ≤ 971 := by omega
      have hne : BitVec.ofNat 11 biased ≠ -1#11 := by
        intro h
        have hmod : biased % 2048 = 2047 := congrArg BitVec.toNat h
        omega
      split
      · rw [unpackExponent_packComponents]
        exact ⟨fun _ => hfits, fun _ => hne⟩
      · rw [unpackExponent_packComponents]
        exact ⟨fun _ => hfits, fun _ => by decide⟩

/-! ## Rounding -/

/-- The least number that is rounded to infinity, in units of `2 ^ -1074`: the largest double and half of
its last place, which is `2 ^ 1024 - 2 ^ 970`. -/
def limit : Nat := (2 ^ 54 - 1) * 2 ^ 2044

/-- Where the last of the 53 leading bits of `m * 2 ^ j` stands, or the last bit there is. -/
def place (m j : Nat) : Nat := m.log2 + j - 52

variable {j : Nat}

theorem targetExponent_eq (m j : Nat) :
    Format.binary64.targetExponent (totalExponent m (j - 1074)) = (place m j : Int) - 1074 := by
  change max (m.log2 + 1 + ((j : Int) - 1074) - 53) (-1074) = _
  rw [place]
  omega

theorem shiftToTargetExponent_eq (m j : Nat) (accuracy : Accuracy) :
    shiftToTargetExponent Format.binary64 m (j - 1074) accuracy =
      ((ExtendedMantissa.ofMantissaAndAccuracy m accuracy) >>> (place m j - j),
        ((max j (place m j) : Nat) : Int) - 1074) := by
  have hshift : ((place m j : Int) - 1074 - (j - 1074)).toNat = place m j - j := by omega
  rw [shiftToTargetExponent, targetExponent_eq, shiftToExponent, hshift, Prod.mk.injEq]
  exact ⟨rfl, by omega⟩

/-- The mantissa to which `m * 2 ^ j` is rounded. -/
def rounded (m j : Nat) : Nat :=
  ((ExtendedMantissa.ofMantissaAndAccuracy m .exact) >>> (place m j - j)).roundedMantissa

theorem shift_le_log2 (m j : Nat) : place m j - j ≤ m.log2 := by
  rw [place]
  omega

theorem div_pow_pos_of_le_log2 (hm : 0 < m) {k : Nat} (hk : k ≤ m.log2) : 0 < m / 2 ^ k := by
  refine Nat.div_pos ?_ (Nat.two_pow_pos k)
  exact (Nat.pow_le_pow_right Nat.two_pos hk).trans (Nat.log2_self_le hm.ne')

theorem rounded_pos (hm : 0 < m) : 0 < rounded m j := by
  have hleft := div_pow_pos_of_le_log2 hm (shift_le_log2 m j)
  rw [rounded, (shifted_shiftRight m _).roundedMantissa_eq (Nat.two_pow_pos _)]
  split
  · exact hleft
  · split <;> omega

theorem packable_roundWithAccuracy_iff (sign : Sign) (hm : 0 < m) (hj : j ≤ place m j) :
    Packable (roundWithAccuracy Format.binary64 sign m (j - 1074) .exact) ↔
      place m j ≤ 2045 ∧ (rounded m j).log2 + place m j ≤ 2097 := by
  have hround : Packable (roundWithAccuracy Format.binary64 sign m (j - 1074) .exact) ↔
      max (place m j) (place (rounded m j) (place m j)) ≤ 2045 := by
    -- The second shift makes room for a carry; it cannot shift everything out.
    have hleft := (shifted_shiftRight (rounded m j) (place (rounded m j) (place m j) - place m j)).mantissa
    have hpos := div_pow_pos_of_le_log2 (rounded_pos (j := j) hm) (shift_le_log2 (rounded m j) (place m j))
    rw [← hleft] at hpos
    rw [rounded] at hpos
    rw [roundWithAccuracy, shiftToTargetExponent_eq, max_eq_right hj]
    dsimp only
    rw [shiftToTargetExponent_eq]
    dsimp only
    rw [dif_neg hpos.ne', Packable, ← rounded]
    omega
  rw [hround, place, place]
  omega

/-- The rounded mantissa needs a bit above `2 ^ 2097` units if it comes within half its last place of it. -/
theorem carry_iff (hm : 0 < m) (hj : j ≤ place m j) (hplace : place m j ≤ 2045) :
    2097 < (rounded m j).log2 + place m j ↔ 2 ^ 55 * 2 ^ 2044 ≤ 2 * (m * 2 ^ j) + 2 ^ place m j := by
  obtain ⟨c, hc⟩ : ∃ c, 2098 - place m j = c + 1 := ⟨2097 - place m j, by omega⟩
  have heven : 2 ^ (c + 1) % 2 = 0 := by
    rw [Nat.pow_succ, Nat.mul_mod_left]
  have hunit : 2 ^ (place m j - j) * 2 ^ j = 2 ^ place m j := by
    rw [← Nat.pow_add, Nat.sub_add_cancel hj]
  have htop : 2 ^ (c + 1) * 2 ^ place m j * 2 = 2 ^ 55 * 2 ^ 2044 := by
    rw [← Nat.pow_add, ← Nat.pow_add, ← Nat.pow_succ]
    congr 1
    omega
  have hpush : 2 ^ (c + 1) * (2 * 2 ^ (place m j - j)) * 2 ^ j =
      2 ^ (c + 1) * (2 ^ (place m j - j) * 2 ^ j) * 2 := by ring
  calc 2097 < (rounded m j).log2 + place m j
      ↔ c + 1 ≤ (rounded m j).log2 := by omega
    _ ↔ 2 ^ (c + 1) ≤ rounded m j := Nat.le_log2 (rounded_pos hm).ne'
    _ ↔ 2 ^ (c + 1) * (2 * 2 ^ (place m j - j)) ≤ 2 * m + 2 ^ (place m j - j) :=
        (shifted_shiftRight m _).even_le_iff (Nat.two_pow_pos _) heven
    _ ↔ 2 ^ (c + 1) * (2 * 2 ^ (place m j - j)) * 2 ^ j ≤ (2 * m + 2 ^ (place m j - j)) * 2 ^ j :=
        (Nat.mul_le_mul_right_iff (Nat.two_pow_pos j)).symm
    _ ↔ 2 ^ 55 * 2 ^ 2044 ≤ 2 * (m * 2 ^ j) + 2 ^ place m j := by
        rw [← htop, ← hunit, hpush, Nat.add_mul, Nat.mul_assoc 2 m]

/-- The mantissa is rounded to a number of 53 bits that can be packed if the exact value is below the
limit. -/
theorem lt_limit_iff (hm : 0 < m) (hj : j ≤ place m j) :
    place m j ≤ 2045 ∧ (rounded m j).log2 + place m j ≤ 2097 ↔ m * 2 ^ j < limit := by
  have hlow : 2 ^ (m.log2 + j) ≤ m * 2 ^ j := by
    rw [Nat.pow_add]
    exact Nat.mul_le_mul_right _ (Nat.log2_self_le hm.ne')
  have hhigh : m * 2 ^ j < 2 ^ (m.log2 + j + 1) := by
    rw [Nat.add_right_comm, Nat.pow_add]
    exact Nat.mul_lt_mul_of_pos_right Nat.lt_log2_self (Nat.two_pow_pos j)
  have hplace : place m j = m.log2 + j - 52 := rfl
  have hcarry := carry_iff hm hj
  -- The exponent gets a name, lest the powers be evaluated.
  obtain ⟨b, hb⟩ : ∃ b, 2044 = b := ⟨2044, rfl⟩
  rw [hb] at hcarry
  rw [limit, hb]
  rcases Nat.lt_trichotomy (place m j) (b + 1) with hbelow | hlast | habove
  · -- There is room for a carry.
    have htop : m * 2 ^ j < 2 ^ 53 * 2 ^ b :=
      calc m * 2 ^ j < 2 ^ (m.log2 + j + 1) := hhigh
        _ ≤ 2 ^ (53 + b) := Nat.pow_le_pow_right Nat.two_pos (by omega)
        _ = 2 ^ 53 * 2 ^ b := Nat.pow_add _ _ _
    have hunit : 2 ^ place m j ≤ 2 ^ b := Nat.pow_le_pow_right Nat.two_pos (by omega)
    omega
  · -- A carry is what must not happen.
    have hunit : 2 ^ place m j = 2 ^ b * 2 := by rw [hlast, Nat.pow_succ]
    omega
  · have htop : 2 ^ 54 * 2 ^ b ≤ m * 2 ^ j :=
      calc 2 ^ 54 * 2 ^ b = 2 ^ (54 + b) := (Nat.pow_add _ _ _).symm
        _ ≤ 2 ^ (m.log2 + j) := Nat.pow_le_pow_right Nat.two_pos (by omega)
        _ ≤ m * 2 ^ j := hlow
    omega

theorem log2_mul_two_pow (hm : 0 < m) (a : Nat) : (m * 2 ^ a).log2 = m.log2 + a := by
  rw [Nat.log2_eq_iff (Nat.mul_pos hm (Nat.two_pow_pos a)).ne', Nat.add_right_comm, Nat.pow_add, Nat.pow_add]
  exact ⟨Nat.mul_le_mul_right _ (Nat.log2_self_le hm.ne'),
    Nat.mul_lt_mul_of_pos_right Nat.lt_log2_self (Nat.two_pow_pos a)⟩

/-- A number is rounded to a finite one if it is below the limit. -/
theorem packable_round_iff (sign : Sign) (hm : 0 < m) :
    Packable (UnpackedFloat.round Format.binary64 sign m (j - 1074)) ↔ m * 2 ^ j < limit := by
  obtain ⟨a, ha⟩ : ∃ a, a = j - place m j := ⟨_, rfl⟩
  have hexponent : ((j : Int) - 1074) - a = ((j - a : Nat) : Int) - 1074 := by omega
  have hplace : place (m * 2 ^ a) (j - a) = place m j := by
    rw [place, place, log2_mul_two_pow hm]
    omega
  have hvalue : m * 2 ^ a * 2 ^ (j - a) = m * 2 ^ j := by
    rw [Nat.mul_assoc, ← Nat.pow_add, Nat.add_sub_cancel' (by omega)]
  have hshift : ((j : Int) - 1074 - (place m j - 1074)).toNat = a := by omega
  rw [UnpackedFloat.round, targetExponent_eq, decreaseExponent, hshift]
  dsimp only
  rw [hexponent, Nat.shiftLeft_eq, ← hvalue]
  have hj : j - a ≤ place (m * 2 ^ a) (j - a) := by omega
  have hpos : 0 < m * 2 ^ a := Nat.mul_pos hm (Nat.two_pow_pos a)
  rw [packable_roundWithAccuracy_iff sign hpos hj, lt_limit_iff hpos hj]

end ElementGrid.Rounding
