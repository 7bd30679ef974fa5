import Reckon.Cbor.Item
import Reckon.Proofs.Binary64

namespace Reckon.Cbor.FloatFormat

open Binary64

/-!
# Narrow doubles

A finite double that has a bit pattern in a narrower format is what that pattern widens to.  The
argument is about exact values: rescaling keeps the value of a significand, and the place at which
it is rescaled leaves it as wide as the format has room for.
-/

section Rescaling

variable
  {significand scaled width : Nat}
  {exponent place : Int}

/-- A significand that is moved to another place keeps its value. -/
theorem value_of_rescale?
    (rescaled : rescale? significand exponent place = some scaled) :
    (scaled : ℚ) * 2 ^ place = significand * 2 ^ exponent := by
  have two : (2 : ℚ) ≠ 0 := by
    norm_num
  unfold rescale? at rescaled
  split at rescaled
  next up difference =>
    have exponentShape : exponent = place + (up : Int) := by
      simp only [Int.ofNat_eq_natCast] at difference
      omega
    cases rescaled
    rw [exponentShape, zpow_add₀ two, zpow_natCast, Nat.pow_eq]
    push_cast
    ring
  next down difference =>
    have placeShape : place = exponent + ((down + 1 : Nat) : Int) := by
      omega
    split at rescaled
    next divides =>
      cases rescaled
      rw [placeShape, zpow_add₀ two, zpow_natCast, Nat.pow_eq]
      have whole :
          (significand / 2 ^ (down + 1) : Nat) * 2 ^ (down + 1) = significand :=
        Nat.div_mul_cancel (Nat.dvd_of_mod_eq_zero divides)
      calc
        ((significand / 2 ^ (down + 1) : Nat) : ℚ) * (2 ^ exponent * 2 ^ (down + 1))
          = ((significand / 2 ^ (down + 1) * 2 ^ (down + 1) : Nat) : ℚ) * 2 ^ exponent := by
            push_cast
            ring
        _ = significand * 2 ^ exponent := by
            rw [whole]
    next => cases rescaled

/-- A value below a power of two has fewer bits at its new place. -/
theorem rescaled_lt
    (sameValue : (scaled : ℚ) * 2 ^ place = significand * 2 ^ exponent)
    (positive : 0 < significand)
    (below : exponent + significand.log2 < place + width) :
    scaled < 2 ^ width := by
  have two : (2 : ℚ) ≠ 0 := by
    norm_num
  have scaledBelow : (scaled : ℚ) * 2 ^ place < 2 ^ width * 2 ^ place := by
    calc
      (scaled : ℚ) * 2 ^ place
        = significand * 2 ^ exponent :=
          sameValue
      _ < 2 ^ ((significand.log2 : Int) + 1) * 2 ^ exponent := by
          gcongr
          exact (log2_bounds positive).2
      _ = 2 ^ ((significand.log2 : Int) + 1 + exponent) := by
          rw [zpow_add₀ two _ exponent]
      _ ≤ 2 ^ ((width : Int) + place) := by
          apply zpow_le_zpow_right₀ (by norm_num)
          omega
      _ = 2 ^ width * 2 ^ place := by
          rw [zpow_add₀ two, zpow_natCast]
  exact_mod_cast lt_of_mul_lt_mul_right scaledBelow (by positivity)

/-- A value from a power of two on has as many bits at its new place. -/
theorem le_rescaled
    (sameValue : (scaled : ℚ) * 2 ^ place = significand * 2 ^ exponent)
    (positive : 0 < significand)
    (above : place + width ≤ exponent + significand.log2) :
    2 ^ width ≤ scaled := by
  have two : (2 : ℚ) ≠ 0 := by
    norm_num
  have scaledAbove : (2 : ℚ) ^ width * 2 ^ place ≤ scaled * 2 ^ place := by
    calc
      (2 : ℚ) ^ width * 2 ^ place
        = 2 ^ ((width : Int) + place) := by
          rw [zpow_add₀ two, zpow_natCast]
      _ ≤ 2 ^ ((significand.log2 : Int) + exponent) := by
          apply zpow_le_zpow_right₀ (by norm_num)
          omega
      _ = 2 ^ (significand.log2 : Int) * 2 ^ exponent := by
          rw [zpow_add₀ two _ exponent]
      _ ≤ significand * 2 ^ exponent := by
          gcongr
          exact (log2_bounds positive).1
      _ = scaled * 2 ^ place :=
          sameValue.symm
  exact_mod_cast le_of_mul_le_mul_right scaledAbove (by positivity)

end Rescaling

variable (format : FloatFormat)

/-- The fields of a bit pattern that has the given sign and magnitude. -/
theorem fields_of_magnitude
    {magnitude : Nat}
    (finite : magnitude < format.topField * Nat.pow 2 format.fractionBits)
    (negative : Bool) :
    let bits := magnitude + if negative then format.signWeight else 0
    (bits / format.signWeight % 2 == 1) = negative ∧
      bits / Nat.pow 2 format.fractionBits % Nat.pow 2 format.exponentBits =
          magnitude / Nat.pow 2 format.fractionBits ∧
        bits % Nat.pow 2 format.fractionBits = magnitude % Nat.pow 2 format.fractionBits ∧
          bits < 2 * format.signWeight := by
  have fractions : 0 < Nat.pow 2 format.fractionBits := Nat.pow_pos (by decide)
  have weight :
      format.signWeight =
        Nat.pow 2 format.exponentBits * Nat.pow 2 format.fractionBits :=
    Nat.pow_add 2 _ _
  unfold topField at finite
  rw [weight]
  generalize Nat.pow 2 format.fractionBits = unit at *
  generalize Nat.pow 2 format.exponentBits = fields at *
  have field : magnitude / unit < fields := by
    have lower := (Nat.div_lt_iff_lt_mul fractions).mpr finite
    omega
  have small : magnitude < fields * unit := (Nat.div_lt_iff_lt_mul fractions).mp field
  cases negative
  case false =>
    simp only [Bool.false_eq_true, ↓reduceIte, Nat.add_zero, Nat.div_eq_of_lt small,
      Nat.mod_eq_of_lt field]
    refine ⟨rfl, trivial, trivial, by omega⟩
  case true =>
    have above : 0 < fields * unit := by
      omega
    simp only [↓reduceIte, Nat.add_div_right _ above, Nat.div_eq_of_lt small,
      Nat.add_mul_div_right _ _ fractions, Nat.add_mod_right, Nat.mod_eq_of_lt field,
      Nat.add_mul_mod_self_right]
    refine ⟨rfl, trivial, trivial, by omega⟩

/-- The double of a finite magnitude is read from its exponent field and its fraction. -/
theorem widen_magnitude
    {magnitude : Nat}
    (finite : magnitude < format.topField * Nat.pow 2 format.fractionBits)
    (negative : Bool) :
    format.widen (magnitude + if negative then format.signWeight else 0) =
      if magnitude / Nat.pow 2 format.fractionBits = 0 then
        ofScaled negative (magnitude % Nat.pow 2 format.fractionBits) format.leastExponent
      else
        ofScaled negative
          (Nat.pow 2 format.fractionBits + magnitude % Nat.pow 2 format.fractionBits)
          (format.leastExponent + (magnitude / Nat.pow 2 format.fractionBits : Nat) - 1) := by
  obtain ⟨sign, field, fraction, _⟩ := format.fields_of_magnitude finite negative
  have notTop : magnitude / Nat.pow 2 format.fractionBits ≠ format.topField :=
    Nat.ne_of_lt ((Nat.div_lt_iff_lt_mul (Nat.pow_pos (by decide))).mpr finite)
  simp only [widen, sign, field, fraction, notTop, ↓reduceIte]

/-- A rescaled significand is as wide as the format has room for, or is subnormal there. -/
theorem width_of_rescale?
    (coarse : Binary64.leastExponent ≤ format.leastExponent)
    {significand scaled : Nat}
    {exponent place : Int}
    (canonical : IsCanonical significand exponent)
    (placed :
      place =
        max (exponent + significand.log2 - format.fractionBits) format.leastExponent)
    (sameValue : (scaled : ℚ) * 2 ^ place = significand * 2 ^ exponent) :
    (place = format.leastExponent ∧ scaled < 2 ^ format.fractionBits) ∨
      (format.leastExponent ≤ place ∧
        2 ^ format.fractionBits ≤ scaled ∧ scaled < 2 ^ (format.fractionBits + 1)) := by
  by_cases isZero : significand = 0
  · subst isZero
    left
    have atLeast : exponent ≤ Binary64.leastExponent := by
      by_contra above
      have wide := canonical.wide (by omega)
      omega
    have scaledZero : scaled = 0 := by
      have product : (scaled : ℚ) * 2 ^ place = 0 := by
        rw [sameValue, Nat.cast_zero, zero_mul]
      rcases mul_eq_zero.mp product with isZero | powerZero
      · exact_mod_cast isZero
      · exact absurd powerZero (by positivity)
    refine ⟨?_, ?_⟩
    · simp only [Nat.log2_zero] at placed
      omega
    · rw [scaledZero]
      exact Nat.two_pow_pos _
  · have positive := Nat.pos_of_ne_zero isZero
    by_cases subnormal :
        exponent + (significand.log2 : Int) - format.fractionBits < format.leastExponent
    · left
      have atLeast : place = format.leastExponent := by
        omega
      exact ⟨atLeast, rescaled_lt sameValue positive (by omega)⟩
    · right
      exact
        ⟨by omega,
          le_rescaled sameValue positive (by omega),
          rescaled_lt sameValue positive (by omega)⟩

/--
A double that fits a narrower format comes back when its bits there are widened.  The fraction of a
subnormal number is all of it, and that of a normal one leaves out the leading bit.
-/
theorem widen_of_narrow?
    (coarse : Binary64.leastExponent ≤ format.leastExponent)
    {number : Float}
    {negative : Bool}
    {significand bits : Nat}
    {exponent : Int}
    (shaped : shape number = .finite negative significand exponent)
    (narrowed : format.narrow? negative significand exponent = some bits) :
    format.widen bits = number ∧ bits < 2 * format.signWeight := by
  simp only [narrow?, Option.bind_eq_bind, Option.bind_eq_some_iff] at narrowed
  generalize placed :
    max (exponent + (significand.log2 : Int) - format.fractionBits) format.leastExponent = place
    at narrowed
  obtain ⟨scaled, rescaled, kept⟩ := narrowed
  split at kept
  case isFalse => cases kept
  case isTrue finite =>
    have sameValue := value_of_rescale? rescaled
    have restored := ofScaled_eq_of_shape shaped sameValue
    have width :=
      format.width_of_rescale? coarse (isCanonical_of_shapeOfBits shaped) placed.symm sameValue
    cases kept
    refine ⟨?_, (format.fields_of_magnitude finite negative).2.2.2⟩
    have unitPositive : 0 < Nat.pow 2 format.fractionBits := Nat.pow_pos (by decide)
    rw [format.widen_magnitude finite, Nat.mul_comm, Nat.mul_add_div unitPositive,
      Nat.mul_add_mod, Nat.pow_eq]
    rcases width with ⟨atLeast, narrow⟩ | ⟨least, full, narrow⟩
    · rw [atLeast, Int.sub_self, Nat.div_eq_of_lt narrow, Nat.mod_eq_of_lt narrow, if_pos (by rfl),
        ← atLeast]
      exact restored
    · have leading : scaled / 2 ^ format.fractionBits = 1 :=
        Nat.div_eq_of_lt_le (by simpa using full) (by simpa [Nat.pow_succ'] using narrow)
      have fraction :
          2 ^ format.fractionBits + scaled % 2 ^ format.fractionBits = scaled := by
        have parts := Nat.div_add_mod scaled (2 ^ format.fractionBits)
        rwa [leading, Nat.mul_one] at parts
      have exponentField :
          format.leastExponent + (((place - format.leastExponent).toNat + 1 : Nat) : Int) - 1 =
            place := by
        omega
      rw [leading, if_neg (Nat.succ_ne_zero _), fraction, exponentField]
      exact restored

end Reckon.Cbor.FloatFormat
