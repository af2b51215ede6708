import Mathlib
import ElementGrid.Double.Basic
import ElementGrid.Proofs.Double.Rounding
/-!
# Doubles in units

Every finite double is an integer multiple of the least positive one, `2 ^ -1074`. As integers doubles are
compared and subtracted without rounding, which says what `Float` comparisons mean and when a `Float`
difference is finite.

## Main definitions

* `Double.units` — a finite double as an integer
* `Rounding.Denotes` — the unpacked forms of finite doubles, each with its integer

## Main results

* `Double.toFloat_lt_iff` — finite doubles compare like their integers
* `Double.isFinite_sub_iff` — the difference of finite doubles is finite if it is below the limit
-/

namespace ElementGrid

open Float.Model Float.Model.UnpackedFloat

namespace Double

variable (d : Double)

/-- The absolute value of a finite double in units of `2 ^ -1074`, than which no scale is less. -/
def magnitude : Nat := d.significand * 2 ^ (d.scale + 1074).toNat

/-- A finite double in units of `2 ^ -1074`. -/
def units : Int := if d.isNegative then -(d.magnitude : Int) else d.magnitude

end Double

namespace Rounding

/-! ## Unpacked numbers -/

/-- The unpacked forms of finite doubles: zero, or 53 bits or less behind which there are no bits to
spare. -/
inductive Denotes : UnpackedFloat → Int → Prop
  | zero (s : Sign) : Denotes (.zero s) 0
  | finite (s : Sign) {m k : Nat} (hm : 0 < m) (hbits : m < 2 ^ 53) (hlead : k = 0 ∨ 2 ^ 52 ≤ m)
    (hk : k ≤ 2045) : Denotes (.finite s m (k - 1074) hm) (s.apply (m * 2 ^ k : Nat))

theorem Denotes.finite_of_eq {s : Sign} {m k : Nat} {e x : Int} (hm : 0 < m) (hbits : m < 2 ^ 53)
    (hlead : k = 0 ∨ 2 ^ 52 ≤ m) (hk : k ≤ 2045) (he : e = k - 1074) (hx : x = s.apply (m * 2 ^ k : Nat)) :
    Denotes (.finite s m e hm) x := by
  subst he hx
  exact .finite s hm hbits hlead hk

theorem natAbs_apply (s : Sign) (n : Int) : (s.apply n).natAbs = n.natAbs := by
  cases s with
  | negative => exact Int.natAbs_neg n
  | positive => rfl

theorem apply_mul (s : Sign) (n c : Int) : s.apply (n * c) = s.apply n * c := by
  cases s with
  | negative => exact (Int.neg_mul n c).symm
  | positive => rfl

variable {m k : Nat} {u v : UnpackedFloat} {x y : Int}

/-- The finite doubles are below the limit. -/
theorem mul_two_pow_lt_limit (hbits : m < 2 ^ 53) (hk : k ≤ 2045) : m * 2 ^ k < limit := by
  -- The exponent gets a name, lest the powers be evaluated.
  obtain ⟨b, hb⟩ : ∃ b, 2044 = b := ⟨2044, rfl⟩
  rw [limit, hb]
  have hpos : 0 < 2 ^ b := Nat.two_pow_pos b
  calc m * 2 ^ k ≤ (2 ^ 53 - 1) * 2 ^ (b + 1) :=
        Nat.mul_le_mul (by omega) (Nat.pow_le_pow_right Nat.two_pos (by omega))
    _ = (2 ^ 54 - 2) * 2 ^ b := by ring
    _ < (2 ^ 54 - 1) * 2 ^ b := by omega

theorem limit_pos : 0 < limit :=
  Nat.zero_lt_of_lt (mul_two_pow_lt_limit (m := 0) (k := 0) (Nat.two_pow_pos 53) (Nat.zero_le _))

/-- A mantissa that is moved to a lower exponent. -/
theorem shiftLeft_mul_two_pow (m : Nat) {j k : Nat} (h : j ≤ k) :
    ((m * 2 ^ k : Nat) : Int) = (m <<< (k - j) : Nat) * (2 ^ j : Nat) := by
  rw [← Int.natCast_mul, Nat.shiftLeft_eq, Nat.mul_assoc, ← Nat.pow_add, Nat.sub_add_cancel h]

theorem packable_normalize_iff (n : Int) (j : Nat) (s : Sign) :
    Packable (normalize Format.binary64 n (j - 1074) s) ↔ n.natAbs * 2 ^ j < limit := by
  rw [UnpackedFloat.normalize]
  split
  · rename_i hneg
    have hn : n < 0 := compare_lt_iff_lt.1 hneg
    rw [packable_round_iff _ (by omega), show (-n).toNat = n.natAbs by omega]
  · rename_i hzero
    obtain rfl : n = 0 := compare_eq_iff_eq.1 hzero
    simpa [Packable] using limit_pos
  · rename_i hpos
    have hn : 0 < n := compare_gt_iff_gt.1 hpos
    rw [packable_round_iff _ (by omega), show n.toNat = n.natAbs by omega]

/-- A difference is computed exactly and then rounded. -/
theorem packable_sub_iff (hu : Denotes u x) (hv : Denotes v y) :
    Packable (UnpackedFloat.sub Format.binary64 u v) ↔ (x - y).natAbs < limit := by
  cases hu with
  | zero s =>
    cases hv with
    | zero s' =>
      rw [UnpackedFloat.sub]
      split <;> simpa [Packable] using limit_pos
    | @finite s' m k hm hbits hlead hk =>
      have hlt := mul_two_pow_lt_limit hbits hk
      rw [UnpackedFloat.sub, Packable, Int.zero_sub, Int.natAbs_neg, natAbs_apply]
      omega
  | @finite s m k hm hbits hlead hk =>
    cases hv with
    | zero s' =>
      have hlt := mul_two_pow_lt_limit hbits hk
      have hsub : UnpackedFloat.sub Format.binary64 (.finite s m (k - 1074) hm) (.zero s') =
          .finite s m (k - 1074) hm := rfl
      rw [hsub, Packable, Int.sub_zero, natAbs_apply]
      omega
    | @finite s' m' k' hm' hbits' hlead' hk' =>
      -- Both mantissas move to the lower exponent, where their difference is exact.
      obtain ⟨j, hj⟩ : ∃ j, j = min k k' := ⟨_, rfl⟩
      have hmin : min ((k : Int) - 1074) (k' - 1074) = (j : Int) - 1074 := by omega
      have hshift : ((k : Int) - 1074 - (j - 1074)).toNat = k - j := by omega
      have hshift' : ((k' : Int) - 1074 - (j - 1074)).toNat = k' - j := by omega
      rw [UnpackedFloat.sub]
      dsimp only [decreaseExponent]
      rw [hmin, hshift, hshift', packable_normalize_iff, shiftLeft_mul_two_pow m (by omega : j ≤ k),
        shiftLeft_mul_two_pow m' (by omega : j ≤ k'), apply_mul, apply_mul, ← Int.sub_mul, Int.natAbs_mul,
        Int.natAbs_natCast]

/-! ### Comparing -/

/-- Of two numbers without spare bits the one with the lower exponent is less. -/
theorem mul_two_pow_lt_of_lt {m' k' : Nat} (hbits : m < 2 ^ 53) (hlead : k' = 0 ∨ 2 ^ 52 ≤ m') (h : k < k') :
    m * 2 ^ k < m' * 2 ^ k' :=
  calc m * 2 ^ k < 2 ^ 53 * 2 ^ k := Nat.mul_lt_mul_of_pos_right hbits (Nat.two_pow_pos k)
    _ = 2 ^ 52 * 2 ^ (k + 1) := by ring
    _ ≤ m' * 2 ^ k' := Nat.mul_le_mul (by omega) (Nat.pow_le_pow_right Nat.two_pos h)

/-- Numbers without spare bits are compared by their exponents first. -/
theorem compare_exponent_then {m' k' : Nat} (hbits : m < 2 ^ 53) (hlead : k = 0 ∨ 2 ^ 52 ≤ m)
    (hbits' : m' < 2 ^ 53) (hlead' : k' = 0 ∨ 2 ^ 52 ≤ m') :
    (compare ((k : Int) - 1074) (k' - 1074)).then (compare m m') = compare (m * 2 ^ k) (m' * 2 ^ k') := by
  rcases Nat.lt_trichotomy k k' with h | rfl | h
  · rw [compare_lt_iff_lt.2 (mul_two_pow_lt_of_lt hbits hlead' h), compare_lt_iff_lt.2 (by omega)]
    rfl
  · rw [compare_eq_iff_eq.2 rfl, Ordering.eq_then]
    rcases Nat.lt_trichotomy m m' with h | rfl | h
    · rw [compare_lt_iff_lt.2 h, compare_lt_iff_lt.2 (Nat.mul_lt_mul_of_pos_right h (Nat.two_pow_pos k))]
    · rw [compare_eq_iff_eq.2 rfl, compare_eq_iff_eq.2 rfl]
    · rw [compare_gt_iff_gt.2 h, compare_gt_iff_gt.2 (Nat.mul_lt_mul_of_pos_right h (Nat.two_pow_pos k))]
  · rw [compare_gt_iff_gt.2 (mul_two_pow_lt_of_lt hbits' hlead h), compare_gt_iff_gt.2 (by omega)]
    rfl

/-- Finite doubles compare like the integers for which they stand. -/
theorem lt_iff (hu : Denotes u x) (hv : Denotes v y) : UnpackedFloat.lt u v = true ↔ x < y := by
  rw [UnpackedFloat.lt, beq_iff_eq]
  cases hu with
  | zero s =>
    cases hv with
    | zero s' => simp [UnpackedFloat.compare]
    | @finite s' m k hm hbits hlead hk =>
      have hpos : 0 < m * 2 ^ k := Nat.mul_pos hm (Nat.two_pow_pos k)
      cases s' <;>
        simp only [UnpackedFloat.compare, Sign.apply, Option.some.injEq, reduceCtorEq, false_iff,
          true_iff] <;>
        omega
  | @finite s m k hm hbits hlead hk =>
    have hpos : 0 < m * 2 ^ k := Nat.mul_pos hm (Nat.two_pow_pos k)
    cases hv with
    | zero s' =>
      cases s <;>
        simp only [UnpackedFloat.compare, Sign.apply, Option.some.injEq, reduceCtorEq, false_iff,
          true_iff] <;>
        omega
    | @finite s' m' k' hm' hbits' hlead' hk' =>
      have hpos' : 0 < m' * 2 ^ k' := Nat.mul_pos hm' (Nat.two_pow_pos k')
      have hcompare := compare_exponent_then hbits hlead hbits' hlead'
      cases s <;> cases s' <;>
        simp only [UnpackedFloat.compare, Sign.apply, hcompare, Option.some.injEq, reduceCtorEq, false_iff,
          true_iff, Ordering.swap_eq_lt, compare_lt_iff_lt, compare_gt_iff_gt] <;>
        omega

end Rounding

/-! ## Doubles -/

namespace Double

open Rounding

variable {d a b : Double}

/-- The bits of a double as `Float.Model` takes them. -/
def packed (d : Double) : BitVec Format.binary64.numBits := d.bits.toBitVec

theorem toNat_unpackExponent (d : Double) : (unpackExponent d.packed).toNat = d.exponentField := by
  rw [unpackExponent_def, BitVec.extractLsb'_toNat, Nat.shiftRight_eq_div_pow]
  rfl

theorem toNat_unpackMantissa (d : Double) : (unpackMantissa d.packed).toNat = d.fraction := by
  rw [unpackMantissa_def, BitVec.extractLsb'_toNat, Nat.shiftRight_zero]
  rfl

theorem isFinite_iff_unpackExponent : d.isFinite ↔ unpackExponent d.packed ≠ -1#11 := by
  rw [ne_eq, ← BitVec.toNat_inj, toNat_unpackExponent, isFinite, bne_iff_ne]
  rfl

theorem units_eq_apply (d : Double) : d.units = (Sign.ofBitVec (unpackSign d.packed)).apply d.magnitude := by
  have hsign : unpackSign d.packed = 0#1 ↔ d.isNegative = false := by
    rw [← BitVec.toNat_inj, unpackSign_def, BitVec.extractLsb'_toNat, Nat.shiftRight_eq_div_pow, isNegative,
      Nat.testBit_eq_decide_div_mod_eq, decide_eq_false_iff_not]
    change d.bits.toNat / 2 ^ 63 % 2 = 0 ↔ _
    omega
  rw [units, Sign.ofBitVec]
  by_cases h : unpackSign d.packed = 0#1
  · rw [if_pos h, hsign.1 h]
    rfl
  · rw [if_neg h, Bool.eq_true_of_not_eq_false (mt hsign.2 h)]
    rfl

/-- The bits of a finite double are taken as they are. -/
theorem unpack_toFloat (h : d.isFinite) :
    d.toFloat.toModel.unpack = UnpackedFloat.unpack Format.binary64 d.packed := by
  have hnan : ¬ isNaNBits d.packed := by
    rw [isNaNBits, decide_eq_true_eq]
    exact fun hnan => isFinite_iff_unpackExponent.1 h hnan.1
  have hpack := pack_unpack d.packed
  rw [if_neg hnan] at hpack
  exact congrArg (UnpackedFloat.unpack Format.binary64) hpack

theorem exponentField_lt (h : d.isFinite) : d.exponentField < 2047 := by
  have hbound : d.exponentField < 2048 := Nat.mod_lt _ (by decide)
  rw [isFinite, bne_iff_ne] at h
  omega

theorem unpackExponent_eq_zero_iff : unpackExponent d.packed = 0#11 ↔ d.exponentField = 0 := by
  rw [← BitVec.toNat_inj, toNat_unpackExponent]
  rfl

theorem unpackMantissa_eq_zero_iff : unpackMantissa d.packed = 0#52 ↔ d.fraction = 0 := by
  rw [← BitVec.toNat_inj, toNat_unpackMantissa]
  rfl

/-- The bit that is not written is in front of the others. -/
theorem toNat_append_unpackMantissa (d : Double) :
    (1#1 ++ unpackMantissa d.packed).toNat = hiddenBit + d.fraction := by
  rw [BitVec.toNat_append, ← Nat.shiftLeft_add_eq_or_of_lt (unpackMantissa d.packed).isLt,
    toNat_unpackMantissa]
  rfl

/-- The unpacked form of a finite double denotes it. -/
theorem denotes_unpack (h : d.isFinite) : Denotes d.toFloat.toModel.unpack d.units := by
  have hfield := exponentField_lt h
  have hfraction : d.fraction < 2 ^ 52 := Nat.mod_lt _ (by decide)
  have hplace : (d.scale + 1074).toNat = max d.exponentField 1 - 1 := by
    rw [scale]
    omega
  rw [unpack_toFloat h, units_eq_apply, UnpackedFloat.unpack]
  dsimp only
  rw [if_neg (isFinite_iff_unpackExponent.1 h), magnitude, significand, hplace]
  split
  · rename_i hsmall
    have hfield0 := unpackExponent_eq_zero_iff.1 hsmall
    rw [if_pos hfield0]
    split
    · rename_i hno
      rw [unpackMantissa_eq_zero_iff.1 hno, Nat.zero_mul]
      cases Sign.ofBitVec (unpackSign d.packed) <;> exact .zero _
    · refine .finite_of_eq _ ?_ (.inl rfl) (Nat.zero_le _) ?_ ?_
      · rw [toNat_unpackMantissa]
        omega
      · rw [toNat_unpackExponent, hfield0]
        rfl
      · rw [toNat_unpackMantissa, hfield0]
        rfl
  · rename_i hnormal
    have hfield0 := mt unpackExponent_eq_zero_iff.2 hnormal
    have hhidden : hiddenBit = 2 ^ 52 := rfl
    rw [if_neg hfield0]
    refine .finite_of_eq (k := d.exponentField - 1) _ ?_ ?_ ?_ ?_ ?_
    · rw [toNat_append_unpackMantissa]
      omega
    · rw [toNat_append_unpackMantissa]
      omega
    · omega
    · rw [toNat_unpackExponent]
      change (d.exponentField : Int) - ((1023 : Nat) + (52 : Nat)) = _
      omega
    · rw [toNat_append_unpackMantissa, max_eq_left (by omega)]

theorem toFloat_lt_iff (ha : a.isFinite) (hb : b.isFinite) : a.toFloat < b.toFloat ↔ a.units < b.units := by
  change decide (a.toFloat.toModel < b.toFloat.toModel) = true ↔ _
  rw [decide_eq_true_iff]
  exact lt_iff (denotes_unpack ha) (denotes_unpack hb)

/-- The result of an operation is finite if its exponent says so. -/
theorem isFinite_ofFloat_iff (u : UnpackedFloat) :
    (ofFloat (.ofModel (Float.Model.pack u))).isFinite ↔ Packable u := by
  rw [← unpackExponent_pack_ne_iff, ofFloat]
  split
  · rename_i hnan
    have hpacked : UnpackedFloat.pack Format.binary64 u = packedNaN Format.binary64 :=
      (isNaN_unpack_iff_of_valid valid_pack).1 hnan
    rw [hpacked, packedNaN, unpackExponent_packComponents]
    decide
  · exact isFinite_iff_unpackExponent

/-- The difference of two finite doubles is finite if it is below the limit. -/
theorem isFinite_sub_iff (ha : a.isFinite) (hb : b.isFinite) :
    (ofFloat (a.toFloat - b.toFloat)).isFinite ↔ (a.units - b.units).natAbs < limit := by
  rw [← packable_sub_iff (denotes_unpack ha) (denotes_unpack hb)]
  exact isFinite_ofFloat_iff _

/-- What compares to something is a number, and a double holds it as it is. -/
theorem toFloat_ofFloat_of_lt {f c : Float} (h : f < c) : (ofFloat f).toFloat = f := by
  have hnan : ¬ f.isNaN := by
    intro hnan
    have hunpack : f.toModel.unpack = .notANumber := isNaN_iff.1 hnan
    have hlt : UnpackedFloat.lt f.toModel.unpack c.toModel.unpack = true := of_decide_eq_true h
    rw [hunpack] at hlt
    cases hlt
  rw [ofFloat, if_neg hnan]
  exact Float.ofBits_toBits f

end Double

end ElementGrid
