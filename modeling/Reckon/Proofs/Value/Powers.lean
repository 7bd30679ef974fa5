import Mathlib
import Reckon.Value.Operator

namespace Reckon

/-!
# Undefined powers

Every operation on values gives a value or a fault, with one exception: a complex zero has no
power whose exponent is an infinity in the imaginary part and no number in the real part.
-/

namespace Binary64

/-- What is no number compares with zero in no way; everything else does in some way. -/
theorem isNaN_iff
    (number : Float) :
    number.isNaN = true ↔ ¬ (number == 0) = true ∧ ¬ number < 0 ∧ ¬ 0 < number := by
  have zeroShape : (0 : Float).toModel.unpack = .zero .positive := by
    rfl
  have isNumber : number.isNaN = number.toModel.unpack.isNaN := rfl
  have equals : (number == 0) = number.toModel.unpack.beq (.zero .positive) := by
    rw [← zeroShape]
    rfl
  have below : number < 0 ↔ number.toModel.unpack.lt (.zero .positive) = true := by
    rw [← zeroShape]
    simp only [LT.lt, Float.lt, decide_eq_true_eq]
    rfl
  have above :
      0 < number ↔
        Float.Model.UnpackedFloat.lt (.zero .positive) number.toModel.unpack = true := by
    rw [← zeroShape]
    simp only [LT.lt, Float.lt, decide_eq_true_eq]
    rfl
  rw [isNumber, equals, below, above]
  cases number.toModel.unpack with
  | infinity sign =>
      cases sign <;> decide
  | notANumber =>
      decide
  | zero sign =>
      cases sign <;> decide
  | finite sign mantissa exponent positive =>
      cases sign <;>
        simp [Float.Model.UnpackedFloat.isNaN, Float.Model.UnpackedFloat.lt,
          Float.Model.UnpackedFloat.beq, Float.Model.UnpackedFloat.compare]

/-- What is no number is not infinite. -/
theorem isInf_of_isNaN
    {number : Float}
    (isNaN : number.isNaN = true) :
    number.isInf = false := by
  simp only [Float.isNaN, Float.isInf, Float.Model.isNaN, Float.Model.isInf] at isNaN ⊢
  cases shape : number.toModel.unpack <;>
    simp [shape, Float.Model.UnpackedFloat.isNaN, Float.Model.UnpackedFloat.isInf] at isNaN ⊢

end Binary64

namespace Power

/--
The power of two values is undefined: the base is a zero, and the exponent is complex with no
number in its real part and an infinity in its imaginary part.
-/
def Undefined (base exponent : Value) : Prop :=
  ∃ zero power,
    Operator.complexPart? base = some zero ∧
      zero.equals { re := 0, im := 0 } = true ∧
        exponent = .complex power ∧ power.re.isNaN = true ∧ power.im.isInf = true

/--
A zero has a power unless an infinity hides that the exponent is no number.  A real part that is a
number is zero, below it or above it.
-/
theorem complexZero?_eq_none_iff
    (exponent : Complex) :
    complexZero? exponent = none ↔
      exponent.re.isNaN = true ∧ exponent.im.isInf = true := by
  have comparable := Binary64.isNaN_iff exponent.re
  unfold complexZero?
  cases isNaN : exponent.re.isNaN with
  | true =>
      obtain ⟨notZero, notBelow, notAbove⟩ := comparable.mp isNaN
      simp [Binary64.isInf_of_isNaN isNaN, notZero, notBelow, notAbove]
  | false =>
      simp only [isNaN, Bool.false_eq_true, false_iff, not_and, Decidable.not_not] at comparable
      simp only [Bool.false_eq_true, false_and, iff_false]
      split
      · simp
      · by_cases isZero : (exponent.re == 0) = true
        · simp [isZero]
        · by_cases isBelow : exponent.re < 0
          · simp only [isZero, isBelow, ↓reduceIte, Bool.false_eq_true]
            split <;> simp
          · simp [isZero, isBelow, comparable isZero isBelow]

/-- Only a power of zero can be missing. -/
theorem complex?_eq_none_iff
    (base exponent : Complex) :
    complex? base exponent = none ↔
      base.equals { re := 0, im := 0 } = true ∧
        exponent.re.isNaN = true ∧ exponent.im.isInf = true := by
  unfold complex?
  by_cases isZero : base.equals { re := 0, im := 0 } = true
  · simp [isZero, complexZero?_eq_none_iff]
  · simp [isZero]

/--
An undefined power is one of complex parts that is missing.  A real exponent has a zero for its
imaginary part, which is no infinity.
-/
theorem undefined_iff
    (base exponent : Value) :
    Undefined base exponent ↔
      ∃ zero power,
        Operator.complexPart? base = some zero ∧
          Operator.complexPart? exponent = some power ∧ complex? zero power = none := by
  constructor
  · rintro ⟨zero, power, baseShape, isZero, rfl, isNaN, isInf⟩
    exact ⟨zero, power, baseShape, rfl,
      (complex?_eq_none_iff zero power).mpr ⟨isZero, isNaN, isInf⟩⟩
  · rintro ⟨zero, power, baseShape, powerShape, missing⟩
    obtain ⟨isZero, isNaN, isInf⟩ := (complex?_eq_none_iff zero power).mp missing
    refine ⟨zero, power, baseShape, isZero, ?_, isNaN, isInf⟩
    have zeroFinite : (0 : Float).isInf = false := rfl
    cases exponent with
    | complex number =>
        simpa [Operator.complexPart?] using powerShape
    | integer number | float number =>
        simp only [Operator.complexPart?, Operator.realPart?, Option.map_some,
          Option.some.injEq] at powerShape
        simp [← powerShape, zeroFinite] at isInf
    | _ =>
        simp [Operator.complexPart?, Operator.realPart?] at powerShape

end Power

namespace Operator

/-- A power is aborted exactly when it is undefined. -/
theorem applyPower_eq_aborted_iff
    (left right : Value) :
    applyPower left right = .aborted ↔ Power.Undefined left right := by
  unfold applyPower
  split
  next _ exponent _ rightReal =>
    simp only [reduceCtorEq, false_iff]
    rintro ⟨_, power, _, _, rfl, _, _⟩
    simp [realPart?] at rightReal
  next =>
    rw [Power.undefined_iff]
    split
    next base exponent baseShape exponentShape =>
      cases shape : Power.complex? base exponent <;>
        simp [baseShape, exponentShape, shape]
    next noParts =>
      simp only [reduceCtorEq, false_iff]
      rintro ⟨base, exponent, baseShape, exponentShape, _⟩
      exact noParts base exponent baseShape exponentShape

/-- Whole numbers always have a result or a fault. -/
theorem applyInteger_ne_aborted
    (operator : Operator)
    (left right : Int32) :
    operator.applyInteger left right ≠ .aborted := by
  cases operator with
  | divide | quotient =>
      simp only [applyInteger]
      split <;> simp
  | _ =>
      simp [applyInteger]

/-- No operation on floats is aborted. -/
theorem applyFloat_ne_aborted
    (operator : Operator)
    (left right : Float) :
    operator.applyFloat left right ≠ .aborted := by
  cases operator <;> simp [applyFloat]

/-- No operation on complex numbers is aborted. -/
theorem applyComplex_ne_aborted
    (operator : Operator)
    (left right : Complex) :
    operator.applyComplex left right ≠ .aborted := by
  cases operator <;> simp [applyComplex]

/-- An operation is aborted exactly when it is an undefined power. -/
theorem apply_eq_aborted_iff
    (operator : Operator)
    (left right : Value) :
    operator.apply left right = .aborted ↔
      operator = .power ∧ Power.Undefined left right := by
  unfold apply
  split
  next numbers =>
    split
    next isPower =>
      simp [isPower, applyPower_eq_aborted_iff]
    next isOther =>
      simp only [isOther, false_and, iff_false]
      split
      · exact applyInteger_ne_aborted operator _ _
      · exact applyFloat_ne_aborted operator _ _
      · exact applyComplex_ne_aborted operator _ _
      · simp
  next notNumbers =>
    simp only [reduceCtorEq, false_iff]
    rintro ⟨_, base, power, baseShape, _, rfl, _⟩
    apply notNumbers
    cases left <;>
      simp [complexPart?, realPart?, Value.isNumber, Value.kind, Kind.isNumber] at baseShape ⊢

end Operator

end Reckon
