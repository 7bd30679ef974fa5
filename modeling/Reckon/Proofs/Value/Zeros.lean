import Reckon.Proofs.Binary64
import Reckon.Value.Basic

namespace Reckon

/-!
# Signs of zeros

A value without the signs of its zeros is the value itself, unless it holds a negative zero.
-/

namespace Binary64

/-- The double, without the sign if it is a zero. -/
def dropZeroSign (number : Float) : Float :=
  if number == 0 then 0 else number

/-- Dropping the sign of a zero changes nothing but the negative zero. -/
theorem dropZeroSign_eq_self_iff
    {number : Float} :
    dropZeroSign number = number ↔ number ≠ zero true := by
  have distinct : (0 : Float) ≠ zero true := by
    rw [← zero_false]
    exact ofMagnitude_false_ne_zero_true (by decide)
  unfold dropZeroSign
  by_cases isZero : (number == 0) = true
  · rw [if_pos isZero]
    obtain ⟨negative, rfl⟩ := exists_eq_zero_of_beq isZero
    cases negative with
    | false => simpa only [zero_false, true_iff] using distinct
    | true => simpa only [ne_eq, not_true_eq_false, iff_false] using distinct
  · rw [if_neg isZero]
    refine iff_of_true rfl ?_
    rintro rfl
    exact isZero rfl

end Binary64

namespace Value

/-- The value, without the signs of zeros. -/
def dropZeroSigns : Value → Value
  | .float number => .float (Binary64.dropZeroSign number)
  | .complex number =>
      .complex
        { re := Binary64.dropZeroSign number.re
          im := Binary64.dropZeroSign number.im }
  | value => value

/-- The value is a negative zero or has one for a part. -/
def HoldsNegativeZero : Value → Prop
  | .float number => number = Binary64.zero true
  | .complex number => number.re = Binary64.zero true ∨ number.im = Binary64.zero true
  | _ => False

/-- Dropping the signs of zeros changes only values with a negative zero. -/
theorem dropZeroSigns_eq_self_iff
    {value : Value} :
    value.dropZeroSigns = value ↔ ¬ value.HoldsNegativeZero := by
  cases value with
  | float number =>
      simp only [dropZeroSigns, HoldsNegativeZero, float.injEq, Binary64.dropZeroSign_eq_self_iff,
        ne_eq]
  | complex number =>
      obtain ⟨re, im⟩ := number
      simp only [dropZeroSigns, HoldsNegativeZero, complex.injEq, Complex.mk.injEq,
        Binary64.dropZeroSign_eq_self_iff, ne_eq, not_or]
  | invalid => simp [dropZeroSigns, HoldsNegativeZero]
  | bool truth => simp [dropZeroSigns, HoldsNegativeZero]
  | integer number => simp [dropZeroSigns, HoldsNegativeZero]
  | object handle => simp [dropZeroSigns, HoldsNegativeZero]

/-- Dropping the signs of zeros changes only lists with a negative zero in them. -/
theorem map_dropZeroSigns_eq_self_iff
    {values : List Value} :
    values.map dropZeroSigns = values ↔ ∀ value ∈ values, ¬ value.HoldsNegativeZero := by
  conv_lhs => rw [← List.map_id values, List.map_map, List.map_eq_map_iff]
  simp only [Function.comp_id, id_eq, dropZeroSigns_eq_self_iff]

end Value

end Reckon
