import Mathlib
import Reckon.Binary64

namespace Reckon.Binary64

open Float.Model UnpackedFloat

/-!
# Doubles and their parts

A double is determined by its shape, and the parts of a finite one are canonical: the significand
is as wide as the format has room for.  Rounding is exact where it can be.  A significand at any
exponent that has the value of some double is rounded to that double.
-/

section Patterns

variable (bits : BitVec 64)

/-- The fraction field of a double is its lowest 52 bits. -/
theorem toNat_unpackMantissa :
    (@unpackMantissa .binary64 bits).toNat = bits.toNat % 0x10000000000000 := by
  simp [unpackMantissa]

theorem toNat_unpackExponent :
    (@unpackExponent .binary64 bits).toNat = bits.toNat / 0x10000000000000 % 2048 := by
  simp [unpackExponent, Nat.shiftRight_eq_div_pow]

theorem toNat_unpackSign :
    (@unpackSign .binary64 bits).toNat = bits.toNat / 0x8000000000000000 % 2 := by
  simp [unpackSign, Nat.shiftRight_eq_div_pow]

end Patterns

/-- The sign is negative. -/
def signIsNegative : Sign → Bool
  | .negative => true
  | .positive => false

/-- What an unpacked double stands for. -/
def Shape.ofUnpacked : UnpackedFloat → Shape
  | .notANumber => .nan
  | .infinity sign => .infinite (signIsNegative sign)
  | .zero sign => .finite (signIsNegative sign) 0 leastExponent
  | .finite sign mantissa exponent _ => .finite (signIsNegative sign) mantissa exponent

theorem signIsNegative_ofBitVec
    (sign : BitVec 1) :
    signIsNegative (.ofBitVec sign) = (sign.toNat == 1) := by
  revert sign
  decide

/-- The shape of a pattern of bits is that of the float that it unpacks to. -/
theorem shapeOfBits_eq
    (bits : BitVec 64) :
    shapeOfBits bits.toNat = Shape.ofUnpacked (UnpackedFloat.unpack .binary64 bits) := by
  have allOnes_iff :
      @unpackExponent .binary64 bits = -1#11 ↔ bits.toNat / 0x10000000000000 % 2048 = 2047 := by
    rw [← BitVec.toNat_inj, toNat_unpackExponent]
    rfl
  have noField_iff :
      @unpackExponent .binary64 bits = 0#11 ↔ bits.toNat / 0x10000000000000 % 2048 = 0 := by
    rw [← BitVec.toNat_inj, toNat_unpackExponent]
    rfl
  have noFraction_iff :
      @unpackMantissa .binary64 bits = 0#52 ↔ bits.toNat % 0x10000000000000 = 0 := by
    rw [← BitVec.toNat_inj, toNat_unpackMantissa]
    rfl
  have signed :
      signIsNegative (.ofBitVec (@unpackSign .binary64 bits)) =
        (bits.toNat / 0x8000000000000000 % 2 == 1) := by
    rw [signIsNegative_ofBitVec, toNat_unpackSign]
  have withImplicit :
      (1#1 ++ @unpackMantissa .binary64 bits).toNat =
        0x10000000000000 + bits.toNat % 0x10000000000000 := by
    rw [BitVec.toNat_append, ← Nat.shiftLeft_add_eq_or_of_lt (BitVec.isLt _),
      toNat_unpackMantissa]
    rfl
  unfold shapeOfBits UnpackedFloat.unpack
  simp only [allOnes_iff, noField_iff, noFraction_iff]
  split
  next =>
    split
    next =>
      rw [Shape.ofUnpacked, signed]
    next =>
      rfl
  next =>
    split
    next noField =>
      split
      next noFraction =>
        rw [Shape.ofUnpacked, signed, noFraction]
      next =>
        rw [Shape.ofUnpacked, signed, toNat_unpackMantissa, toNat_unpackExponent, noField]
        rfl
    next =>
      rw [Shape.ofUnpacked, signed, withImplicit, toNat_unpackExponent]
      rfl

/-- Unpacked floats with the same shape are the same. -/
theorem Shape.ofUnpacked_injective
    {first second : UnpackedFloat}
    (same : ofUnpacked first = ofUnpacked second) :
    first = second := by
  have signs {left right : Sign} (agree : signIsNegative left = signIsNegative right) :
      left = right := by
    cases left <;> cases right <;> simp [signIsNegative] at agree ⊢
  cases first <;> cases second <;> simp only [ofUnpacked, reduceCtorEq] at same
  case notANumber.notANumber =>
    rfl
  case infinity.infinity =>
    rw [signs (Shape.infinite.inj same)]
  case zero.zero =>
    rw [signs (Shape.finite.inj same).1]
  case zero.finite mantissa _ positive =>
    exact absurd (Shape.finite.inj same).2.1 (Nat.ne_of_lt positive)
  case finite.zero mantissa _ positive _ =>
    exact absurd (Shape.finite.inj same).2.1 (Nat.ne_of_gt positive)
  case finite.finite =>
    obtain ⟨signed, rfl, rfl⟩ := Shape.finite.inj same
    rw [signs signed]

theorem shape_eq_ofUnpacked
    (number : Float) :
    shape number = .ofUnpacked number.toModel.unpack :=
  shapeOfBits_eq number.toBits.toBitVec

/-- Doubles of one shape are the same. -/
theorem eq_of_shape_eq
    {first second : Float}
    (same : shape first = shape second) :
    first = second := by
  rw [shape_eq_ofUnpacked, shape_eq_ofUnpacked] at same
  have unpacked := Shape.ofUnpacked_injective same
  rw [← Float.toBits_inj, ← UInt64.toBitVec_inj]
  exact (unpack_inj_of_valid first.toModel.valid second.toModel.valid).mp unpacked

/-- A bit pattern that stands for a number is kept; the others all become one pattern. -/
theorem toBits_ofBits
    (bits : UInt64)
    (isNumber : shapeOfBits bits.toNat ≠ .nan) :
    (Float.ofBits bits).toBits = bits := by
  have notNaN : ¬ @isNaNBits .binary64 bits.toBitVec = true := by
    intro isNaN
    simp only [isNaNBits, decide_eq_true_eq] at isNaN
    apply isNumber
    rw [← UInt64.toNat_toBitVec, shapeOfBits_eq]
    simp [UnpackedFloat.unpack, isNaN, Shape.ofUnpacked]
  have repacked := @pack_unpack .binary64 bits.toBitVec (by decide)
  rw [if_neg notNaN] at repacked
  simp only [Float.ofBits, Float.toBits, Float.Model.ofBits, Float.Model.pack, repacked]

/-- The only parts that a finite double has: a significand as wide as there is room for. -/
structure IsCanonical (significand : Nat) (exponent : Int) : Prop where
  least : leastExponent ≤ exponent
  greatest : exponent ≤ 971
  narrow : significand < 0x20000000000000
  wide : leastExponent < exponent → 0x10000000000000 ≤ significand

/-- Bits of the magnitude with the given parts. -/
def magnitudeBits (significand : Nat) (exponent : Int) : Nat :=
  (exponent - leastExponent).toNat * 0x10000000000000 + significand

/-- A finite shape that is read from bits is canonical. -/
theorem isCanonical_of_shapeOfBits
    {bits significand : Nat}
    {negative : Bool}
    {exponent : Int}
    (shaped : shapeOfBits bits = .finite negative significand exponent) :
    IsCanonical significand exponent := by
  have least : leastExponent = -1074 := rfl
  unfold shapeOfBits at shaped
  simp only at shaped
  split at shaped
  · split at shaped <;> cases shaped
  · split at shaped
    · cases shaped
      constructor <;> omega
    · cases shaped
      constructor <;> omega

/-- The magnitude of a canonical pair lies below that of infinity. -/
theorem IsCanonical.magnitudeBits_lt
    {significand : Nat}
    {exponent : Int}
    (canonical : IsCanonical significand exponent) :
    magnitudeBits significand exponent < infinityBits := by
  obtain ⟨least, greatest, narrow, wide⟩ := canonical
  simp only [magnitudeBits, infinityBits, leastExponent] at *
  omega

/-- The bits of a canonical pair are read as that pair, with either sign. -/
theorem IsCanonical.shapeOfBits_eq
    {significand : Nat}
    {exponent : Int}
    (canonical : IsCanonical significand exponent)
    (negative : Bool) :
    shapeOfBits
        ((if negative then 0x8000000000000000 else 0) + magnitudeBits significand exponent) =
      .finite negative significand exponent := by
  obtain ⟨least, greatest, narrow, wide⟩ := canonical
  simp only [leastExponent] at least wide
  generalize bitsShape :
    (if negative then 0x8000000000000000 else 0) + magnitudeBits significand exponent = bits
  have oneBit := negative.toNat_le
  have composed :
      bits =
        negative.toNat * 0x8000000000000000 +
          ((exponent + 1074).toNat * 0x10000000000000 + significand) := by
    rw [← bitsShape, magnitudeBits, leastExponent]
    cases negative <;> simp
  have signed : (bits / 0x8000000000000000 % 2 == 1) = negative := by
    have sign : bits / 0x8000000000000000 % 2 = negative.toNat := by
      omega
    rw [sign]
    cases negative <;> rfl
  unfold shapeOfBits
  simp only [signed]
  by_cases subnormal : significand < 0x10000000000000
  · have atLeast : exponent = -1074 := by
      omega
    have noField : bits / 0x10000000000000 % 2048 = 0 := by
      omega
    have fraction : bits % 0x10000000000000 = significand := by
      omega
    simp [noField, fraction, atLeast, leastExponent]
  · have field : ((bits / 0x10000000000000 % 2048 : Nat) : Int) = exponent + 1075 := by
      omega
    have fraction : 0x10000000000000 + bits % 0x10000000000000 = significand := by
      omega
    rw [if_neg (by omega), if_neg (by omega), fraction, field, Int.add_sub_cancel]

/-- The bits of a finite double are its sign and its magnitude. -/
theorem toNat_toBits_ofMagnitude
    (negative : Bool)
    {magnitude : Nat}
    (finite : magnitude < infinityBits) :
    (ofMagnitude negative magnitude).toBits.toNat =
      (if negative then 0x8000000000000000 else 0) + magnitude := by
  simp only [infinityBits] at finite
  generalize bitsShape : (if negative then 0x8000000000000000 else 0) + magnitude = bits
  have bounded : bits < 2 ^ 64 ∧ bits / 0x10000000000000 % 2048 ≠ 2047 := by
    rw [← bitsShape]
    cases negative <;> simp only [Bool.false_eq_true, ↓reduceIte] <;> omega
  have converted : bits.toUInt64.toNat = bits := by
    simpa using bounded.1
  have isNumber : shapeOfBits bits.toUInt64.toNat ≠ .nan := by
    rw [converted]
    simp only [shapeOfBits, bounded.2, ↓reduceIte]
    split <;> nofun
  rw [ofMagnitude, bitsShape, toBits_ofBits _ isNumber, converted]

/-- The double of a canonical pair has that pair for its shape. -/
theorem shape_ofMagnitude
    {significand : Nat}
    {exponent : Int}
    (canonical : IsCanonical significand exponent)
    (negative : Bool) :
    shape (ofMagnitude negative (magnitudeBits significand exponent)) =
      .finite negative significand exponent := by
  rw [shape, toNat_toBits_ofMagnitude negative canonical.magnitudeBits_lt,
    canonical.shapeOfBits_eq]

/-- A finite double is the one of its sign and magnitude. -/
theorem eq_ofMagnitude_of_shape
    {number : Float}
    {negative : Bool}
    {significand : Nat}
    {exponent : Int}
    (shaped : shape number = .finite negative significand exponent) :
    ofMagnitude negative (magnitudeBits significand exponent) = number := by
  apply eq_of_shape_eq
  rw [shape_ofMagnitude (isCanonical_of_shapeOfBits shaped), shaped]

/-! ### Ratios -/

section Ratios

variable {numerator denominator : Nat}

theorem scaleDown_pos
    (positive : 0 < denominator)
    (exponent : Int) :
    0 < (scaleDown numerator denominator exponent).2 := by
  cases exponent with
  | ofNat up =>
      exact Nat.mul_pos positive (Nat.pow_pos (by decide))
  | negSucc down =>
      exact positive

/-- Scaling down divides a ratio by a power of two. -/
theorem scaleDown_ratio
    (exponent : Int) :
    ((scaleDown numerator denominator exponent).1 : ℚ) /
        (scaleDown numerator denominator exponent).2 =
      numerator / denominator / 2 ^ exponent := by
  cases exponent with
  | ofNat up =>
      simp [scaleDown, div_div]
  | negSucc down =>
      simp [scaleDown, zpow_negSucc]
      ring

/-- A positive number lies between the power of two of its logarithm and the next one. -/
theorem log2_bounds
    {number : Nat}
    (positive : 0 < number) :
    (2 : ℚ) ^ (number.log2 : Int) ≤ number ∧
      (number : ℚ) < 2 ^ ((number.log2 : Int) + 1) := by
  constructor
  · exact_mod_cast Nat.log2_self_le (Nat.ne_of_gt positive)
  · exact_mod_cast @Nat.lt_log2_self number

/-- A ratio lies between the powers of two that the logarithms of its parts tell. -/
theorem ratio_bounds
    (above : 0 < numerator)
    (below : 0 < denominator) :
    (2 : ℚ) ^ ((numerator.log2 : Int) - denominator.log2 - 1) < numerator / denominator ∧
      (numerator : ℚ) / denominator < 2 ^ ((numerator.log2 : Int) - denominator.log2 + 1) := by
  obtain ⟨numeratorLow, numeratorHigh⟩ := log2_bounds above
  obtain ⟨denominatorLow, denominatorHigh⟩ := log2_bounds below
  have positive : (0 : ℚ) < denominator := by
    exact_mod_cast below
  have two : (2 : ℚ) ≠ 0 := by
    norm_num
  constructor
  · rw [lt_div_iff₀ positive]
    calc
      (2 : ℚ) ^ ((numerator.log2 : Int) - denominator.log2 - 1) * denominator
        < 2 ^ ((numerator.log2 : Int) - denominator.log2 - 1) *
            2 ^ ((denominator.log2 : Int) + 1) := by
          gcongr
      _ = 2 ^ (numerator.log2 : Int) := by
          rw [← zpow_add₀ two]
          congr 1
          omega
      _ ≤ numerator :=
          numeratorLow
  · rw [div_lt_iff₀ positive]
    calc
      (numerator : ℚ)
        < 2 ^ ((numerator.log2 : Int) + 1) :=
          numeratorHigh
      _ = 2 ^ ((numerator.log2 : Int) - denominator.log2 + 1) *
            2 ^ (denominator.log2 : Int) := by
          rw [← zpow_add₀ two]
          congr 1
          omega
      _ ≤ 2 ^ ((numerator.log2 : Int) - denominator.log2 + 1) * denominator := by
          gcongr

/--
Above the least exponent, the significand of a ratio has 53 bits.  The logarithms leave one bit
open, which the comparison decides.
-/
theorem exponentOfRatio_bounds
    (above : 0 < numerator)
    (below : 0 < denominator) :
    ∃ exponent,
      exponentOfRatio numerator denominator = max exponent leastExponent ∧
        (2 : ℚ) ^ (exponent + 52) ≤ numerator / denominator ∧
          (numerator : ℚ) / denominator < 2 ^ (exponent + 53) := by
  obtain ⟨low, high⟩ := ratio_bounds above below
  generalize estimateShape : (numerator.log2 : Int) - denominator.log2 - 53 = estimate
  have scaledPositive : (0 : ℚ) < (scaleDown numerator denominator estimate).2 := by
    exact_mod_cast scaleDown_pos below estimate
  have power : (0 : ℚ) < 2 ^ estimate := by
    positivity
  have large_iff :
      0x20000000000000 * (scaleDown numerator denominator estimate).2 ≤
          (scaleDown numerator denominator estimate).1 ↔
        (2 : ℚ) ^ (estimate + 53) ≤ numerator / denominator := by
    rw [← (Nat.cast_le : ((_ : Nat) : ℚ) ≤ ((_ : Nat) : ℚ) ↔ _)]
    push_cast
    rw [← le_div_iff₀ scaledPositive, scaleDown_ratio, le_div_iff₀ power,
      zpow_add₀ (by norm_num), mul_comm]
    norm_num
  unfold exponentOfRatio
  simp only [estimateShape, large_iff]
  split
  next large =>
    refine ⟨estimate + 1, rfl, ?_, ?_⟩
    · rw [show estimate + 1 + 52 = estimate + 53 by omega]
      exact large
    · rw [show estimate + 1 + 53 = (numerator.log2 : Int) - denominator.log2 + 1 by omega]
      exact high
  next small =>
    refine ⟨estimate, rfl, ?_, lt_of_not_ge small⟩
    rw [show estimate + 52 = (numerator.log2 : Int) - denominator.log2 - 1 by omega]
    exact le_of_lt low

/--
A ratio that is the value of a double has the exponent of that double, as the least exponent
replaces a smaller one.
-/
theorem exponentOfRatio_of_exact
    (above : 0 < numerator)
    (below : 0 < denominator)
    {significand : Nat}
    {exponent : Int}
    (canonical : IsCanonical significand exponent)
    (sameValue : (numerator : ℚ) / denominator = significand * 2 ^ exponent) :
    exponentOfRatio numerator denominator = exponent := by
  obtain ⟨least, _, narrow, wide⟩ := canonical
  obtain ⟨found, shape, low, high⟩ := exponentOfRatio_bounds above below
  have one_lt_two : (1 : ℚ) < 2 := by
    norm_num
  have power : (0 : ℚ) < 2 ^ exponent := by
    positivity
  have below53 : found < exponent + 1 := by
    have upper : (numerator : ℚ) / denominator < 2 ^ (exponent + 53) := by
      rw [sameValue, zpow_add₀ (by norm_num), mul_comm]
      gcongr
      exact_mod_cast narrow
    have := (zpow_lt_zpow_iff_right₀ one_lt_two).mp (lt_of_le_of_lt low upper)
    omega
  rw [shape]
  by_cases subnormal : significand < 0x10000000000000
  · have atLeast : exponent = leastExponent := by
      omega
    have upper : (numerator : ℚ) / denominator < 2 ^ (exponent + 52) := by
      rw [sameValue, zpow_add₀ (by norm_num), mul_comm]
      gcongr
      exact_mod_cast subnormal
    have := (zpow_lt_zpow_iff_right₀ one_lt_two).mp (lt_of_le_of_lt low upper)
    omega
  · have lower : (2 : ℚ) ^ (exponent + 52) ≤ numerator / denominator := by
      rw [sameValue, zpow_add₀ (by norm_num), mul_comm]
      gcongr
      exact_mod_cast Nat.le_of_not_lt subnormal
    have := (zpow_lt_zpow_iff_right₀ one_lt_two).mp (lt_of_le_of_lt lower high)
    omega

/-- A ratio that is a whole number is rounded to it. -/
theorem roundRatio_of_exact
    (below : 0 < denominator)
    {whole : Nat}
    (sameValue : (numerator : ℚ) / denominator = whole) :
    roundRatio numerator denominator = whole := by
  have nonzero : (denominator : ℚ) ≠ 0 := by
    exact_mod_cast Nat.ne_of_gt below
  have product : numerator = whole * denominator := by
    rw [div_eq_iff nonzero] at sameValue
    exact_mod_cast sameValue
  simp [roundRatio, product, Nat.mul_div_cancel _ below, below]

/-- The value of a double is rounded to itself. -/
theorem magnitudeOfRatio_of_exact
    (below : 0 < denominator)
    {significand : Nat}
    {exponent : Int}
    (canonical : IsCanonical significand exponent)
    (sameValue : (numerator : ℚ) / denominator = significand * 2 ^ exponent) :
    magnitudeOfRatio numerator denominator = magnitudeBits significand exponent := by
  unfold magnitudeOfRatio
  split
  next isZero =>
    have nothing : significand = 0 := by
      have power : (2 : ℚ) ^ exponent ≠ 0 := by
        positivity
      simpa [isZero, power] using sameValue.symm
    have atLeast := canonical.wide
    have least := canonical.least
    simp only [magnitudeBits, nothing]
    omega
  next nonzero =>
    have found :=
      exponentOfRatio_of_exact (Nat.pos_of_ne_zero nonzero) below canonical sameValue
    have scaled :
        ((scaleDown numerator denominator exponent).1 : ℚ) /
            (scaleDown numerator denominator exponent).2 =
          significand := by
      rw [scaleDown_ratio, sameValue, mul_div_assoc, div_self (by positivity), mul_one]
    simp only [found, roundRatio_of_exact (scaleDown_pos below exponent) scaled,
      magnitudeBits]

end Ratios

/-- A significand at any exponent that has the value of a double is rounded to that double. -/
theorem ofScaled_eq_of_shape
    {number : Float}
    {negative : Bool}
    {significand scaled : Nat}
    {exponent place : Int}
    (shaped : shape number = .finite negative significand exponent)
    (sameValue : (scaled : ℚ) * 2 ^ place = significand * 2 ^ exponent) :
    ofScaled negative scaled place = number := by
  have canonical := isCanonical_of_shapeOfBits shaped
  have rounded
      {numerator denominator : Nat}
      (below : 0 < denominator)
      (ratio : (numerator : ℚ) / denominator = scaled * 2 ^ place) :
      ofRatio negative numerator denominator = number := by
    have magnitude := magnitudeOfRatio_of_exact below canonical (ratio.trans sameValue)
    have inRange := canonical.magnitudeBits_lt
    simp only [ofRatio, ofRatio?, magnitude, inRange, ↓reduceIte, Option.getD_some,
      eq_ofMagnitude_of_shape shaped]
  cases place with
  | ofNat up =>
      apply rounded Nat.one_pos
      simp
  | negSucc down =>
      apply rounded (Nat.pow_pos (by decide))
      simp [zpow_negSucc, div_eq_mul_inv]

/-! ### Doubles by their shapes -/

/-- Only one double is not a number. -/
theorem eq_nan_of_shape
    {number : Float}
    (shaped : shape number = .nan) :
    number = nan :=
  eq_of_shape_eq shaped

/-- Only one double of each sign is infinite. -/
theorem eq_infinity_of_shape
    {number : Float}
    {negative : Bool}
    (shaped : shape number = .infinite negative) :
    number = infinity negative := by
  apply eq_of_shape_eq
  rw [shaped]
  cases negative <;> rfl

theorem zero_false :
    zero false = 0 :=
  eq_of_shape_eq rfl

theorem zero_true :
    zero true = -0 :=
  eq_of_shape_eq rfl

/-- Only the two zeros compare equal to zero. -/
theorem exists_eq_zero_of_beq
    {number : Float}
    (isZero : (number == 0) = true) :
    ∃ negative, number = zero negative := by
  obtain ⟨_, _, equal | ⟨equal, _⟩ | ⟨equal, _⟩⟩ := Float.beq_iff_ne_nan_and_eq.mp isZero
  · exact ⟨false, equal.trans zero_false.symm⟩
  · exact ⟨false, equal.trans zero_false.symm⟩
  · exact ⟨true, equal.trans zero_true.symm⟩

/-- A magnitude without a sign is not the negative zero. -/
theorem ofMagnitude_false_ne_zero_true
    {magnitude : Nat}
    (finite : magnitude < infinityBits) :
    ofMagnitude false magnitude ≠ zero true := by
  intro same
  have bits := toNat_toBits_ofMagnitude false finite
  have signBit : (zero true).toBits.toNat = 0x8000000000000000 :=
    toNat_toBits_ofMagnitude true (by decide)
  rw [same, signBit] at bits
  simp only [infinityBits] at finite
  simp at bits
  omega

end Reckon.Binary64
