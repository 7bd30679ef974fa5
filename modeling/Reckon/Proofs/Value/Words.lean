import Mathlib.Tactic
import Reckon.Value.Operator

namespace Reckon

/-!
# Arithmetic on words

Operators on whole numbers compute the exact result and cut it to a word of 32 bits.  A quotient
is cut toward zero first; it fits in a word unless the least number is divided by minus one.
Comparisons are those of the exact numbers, and only a division by zero fails.
-/

/-- The word that is left of a whole number: the one that a multiple of `2 ^ 32` parts from it. -/
def CutTo (exact : Int) (word : Int32) : Prop :=
  (2 ^ 32 : Int) ∣ exact - word.toInt

/-- The whole number is the value of some word. -/
def FitsWord (exact : Int) : Prop :=
  -2 ^ 31 ≤ exact ∧ exact < 2 ^ 31

theorem fitsWord_toInt
    (word : Int32) :
    FitsWord word.toInt :=
  ⟨word.le_toInt, word.toInt_lt⟩

section Cutting

variable
  {exact : Int}
  {word : Int32}

/-- Cutting a number to a word leaves its balanced remainder. -/
theorem cutTo_iff_toInt_eq_bmod :
    CutTo exact word ↔ word.toInt = exact.bmod (2 ^ 32) := by
  obtain ⟨least, greatest⟩ := fitsWord_toInt word
  rw [CutTo, eq_comm, Int.bmod_eq_iff (by decide)]
  constructor
  · intro multiple
    exact ⟨by omega, by omega, by omega⟩
  · rintro ⟨_, _, multiple⟩
    omega

/-- There is only one word that a whole number is cut to. -/
theorem CutTo.unique
    {other : Int32}
    (cut : CutTo exact word)
    (otherCut : CutTo exact other) :
    word = other := by
  rw [cutTo_iff_toInt_eq_bmod] at cut otherCut
  exact Int32.toInt_inj.mp (cut.trans otherCut.symm)

/-- A whole number that fits is cut to itself. -/
theorem CutTo.toInt_eq
    (cut : CutTo exact word)
    (fits : FitsWord exact) :
    word.toInt = exact := by
  obtain ⟨least, greatest⟩ := fits
  rw [cutTo_iff_toInt_eq_bmod.mp cut]
  exact Int.bmod_eq_of_le (by omega) (by omega)

end Cutting

section Quotients

variable
  (left : Int)
  {right : Int}

/-- What a division that truncates leaves is its remainder. -/
theorem sub_tdiv_mul_eq_tmod
    (right : Int) :
    left - left.tdiv right * right = left.tmod right := by
  rw [Int.tmod_def, Int.mul_comm]

/-- What a quotient cut toward zero leaves is smaller than the divisor. -/
theorem natAbs_sub_tdiv_mul_lt
    (nonzero : right ≠ 0) :
    (left - left.tdiv right * right).natAbs < right.natAbs := by
  rw [sub_tdiv_mul_eq_tmod, Int.natAbs_tmod]
  exact Nat.mod_lt _ (Int.natAbs_pos.mpr nonzero)

/-- What a quotient cut toward zero leaves has the sign of the dividend, or is zero. -/
theorem sub_tdiv_mul_mul_nonneg
    (right : Int) :
    0 ≤ (left - left.tdiv right * right) * left := by
  rw [sub_tdiv_mul_eq_tmod]
  rcases Int.le_total 0 left with positive | negative
  · exact Int.mul_nonneg (Int.tmod_nonneg right positive) positive
  · have turned := Int.tmod_nonneg right (Int.neg_nonneg_of_nonpos negative)
    rw [Int.neg_tmod] at turned
    exact Int.mul_nonneg_of_nonpos_of_nonpos (by omega) negative

/-- The quotient of two words fits in a word, except in one case. -/
theorem fitsWord_tdiv_iff
    {left : Int}
    (leftFits : FitsWord left)
    (nonzero : right ≠ 0) :
    FitsWord (left.tdiv right) ↔ ¬ (left = -2 ^ 31 ∧ right = -1) := by
  obtain ⟨least, greatest⟩ := leftFits
  unfold FitsWord
  obtain rfl | rfl | wide : right = 1 ∨ right = -1 ∨ 2 ≤ right.natAbs := by
    omega
  · rw [Int.tdiv_one]
    omega
  · rw [Int.tdiv_neg, Int.tdiv_one]
    omega
  · have halved : (left.tdiv right).natAbs * 2 ≤ left.natAbs :=
      calc
        (left.tdiv right).natAbs * 2 ≤ (left.tdiv right).natAbs * right.natAbs :=
          Nat.mul_le_mul_left _ wide
        _ = left.natAbs / right.natAbs * right.natAbs :=
          congrArg (· * right.natAbs) (Int.natAbs_tdiv left right)
        _ ≤ left.natAbs :=
          Nat.div_mul_le_self left.natAbs right.natAbs
    omega

end Quotients

namespace Operator

/-- The operator is one of those in use. -/
def IsDefined (operator : Operator) : Prop :=
  ∀ code, operator ≠ .undefined code

/-- The operator would divide by zero. -/
def DividesByZero (operator : Operator) (right : Int32) : Prop :=
  (operator = .divide ∨ operator = .quotient) ∧ right = 0

/-- What an operator computes on exact numbers, where that is a whole number again. -/
def exactResult? : Operator → Option (Int → Int → Int)
  | .add => some (· + ·)
  | .subtract => some (· - ·)
  | .multiply => some (· * ·)
  | .quotient => some Int.tdiv
  | _ => none

/-- What an operator compares exact numbers by. -/
def relation? : Operator → Option (Int → Int → Prop)
  | .equal => some (· = ·)
  | .notEqual => some (· ≠ ·)
  | .less => some (· < ·)
  | .lessEqual => some (· ≤ ·)
  | .greater => some (· > ·)
  | .greaterEqual => some (· ≥ ·)
  | _ => none

section Applied

variable
  (left right : Int32)
  {operator : Operator}

/-- Operations on integers but powers are those on words. -/
theorem apply_integers
    (notPower : operator ≠ .power) :
    operator.apply (.integer left) (.integer right) = operator.applyInteger left right := by
  simp [apply, Value.isNumber, Value.kind, Kind.isNumber, notPower]

/-- Arithmetic gives the word that the exact result is cut to. -/
theorem apply_exact
    {exact : Int → Int → Int}
    (computes : operator.exactResult? = some exact)
    (possible : ¬ operator.DividesByZero right) :
    ∃ word,
      operator.apply (.integer left) (.integer right) = .done (.integer word) ∧
        CutTo (exact left.toInt right.toInt) word := by
  simp only [cutTo_iff_toInt_eq_bmod]
  cases operator with
  | add =>
      cases computes
      exact ⟨left + right, rfl, left.toInt_add right⟩
  | subtract =>
      cases computes
      exact ⟨left - right, rfl, left.toInt_sub right⟩
  | multiply =>
      cases computes
      exact ⟨left * right, rfl, left.toInt_mul right⟩
  | quotient =>
      cases computes
      have nonzero : right ≠ 0 := fun zero => possible ⟨.inr rfl, zero⟩
      refine ⟨left / right, ?_, left.toInt_div right⟩
      rw [apply_integers left right (by decide), applyInteger, if_neg nonzero]
  | _ => cases computes

/-- Comparisons are those of the exact numbers. -/
theorem apply_relation
    {relation : Int → Int → Prop}
    (compares : operator.relation? = some relation) :
    ∃ truth,
      operator.apply (.integer left) (.integer right) = .done (.bool truth) ∧
        (truth = true ↔ relation left.toInt right.toInt) := by
  cases operator with
  | equal =>
      cases compares
      exact ⟨left == right, rfl, beq_iff_eq.trans Int32.toInt_inj.symm⟩
  | notEqual =>
      cases compares
      exact ⟨left != right, rfl, bne_iff_ne.trans (not_congr Int32.toInt_inj.symm)⟩
  | less =>
      cases compares
      exact ⟨left < right, rfl, decide_eq_true_iff.trans Int32.lt_iff_toInt_lt⟩
  | lessEqual =>
      cases compares
      exact ⟨left ≤ right, rfl, decide_eq_true_iff.trans Int32.le_iff_toInt_le⟩
  | greater =>
      cases compares
      exact ⟨right < left, rfl, decide_eq_true_iff.trans Int32.lt_iff_toInt_lt⟩
  | greaterEqual =>
      cases compares
      exact ⟨right ≤ left, rfl, decide_eq_true_iff.trans Int32.le_iff_toInt_le⟩
  | _ => cases compares

/-- A division by zero fails and names the operator and the dividend. -/
theorem apply_dividesByZero
    (divides : operator.DividesByZero right) :
    operator.apply (.integer left) (.integer right) =
      .failed (.divisionByZero operator left) := by
  obtain ⟨rfl | rfl, rfl⟩ := divides
  · rfl
  · rfl

/-- Nothing but a division by zero fails. -/
theorem exists_apply_integers
    (isDefined : operator.IsDefined)
    (possible : ¬ operator.DividesByZero right) :
    ∃ value, operator.apply (.integer left) (.integer right) = .done value := by
  cases operator with
  | divide =>
      have nonzero : right ≠ 0 := fun zero => possible ⟨.inl rfl, zero⟩
      exact ⟨_, if_neg nonzero⟩
  | quotient =>
      have nonzero : right ≠ 0 := fun zero => possible ⟨.inr rfl, zero⟩
      exact ⟨_, if_neg nonzero⟩
  | undefined code => exact (isDefined code rfl).elim
  | _ => exact ⟨_, rfl⟩

end Applied

/-- What operators give on two words, told by the exact numbers that the words stand for. -/
structure ExactOnWords (left right : Int32) : Prop where
  arithmetic :
    ∀ {operator : Operator} {exact : Int → Int → Int},
      operator.exactResult? = some exact →
        ¬ operator.DividesByZero right →
          ∃ word,
            operator.apply (.integer left) (.integer right) = .done (.integer word) ∧
              CutTo (exact left.toInt right.toInt) word
  remainder :
    right ≠ 0 →
      FitsWord (left.toInt.tdiv right.toInt) →
        ∃ quotient,
          Operator.quotient.apply (.integer left) (.integer right) = .done (.integer quotient) ∧
            quotient.toInt = left.toInt.tdiv right.toInt ∧
              (left.toInt - quotient.toInt * right.toInt).natAbs < right.toInt.natAbs ∧
                0 ≤ (left.toInt - quotient.toInt * right.toInt) * left.toInt
  fitting :
    right ≠ 0 →
      (FitsWord (left.toInt.tdiv right.toInt) ↔ ¬ (left = Int32.minValue ∧ right = -1))
  least :
    left = Int32.minValue →
      right = -1 →
        Operator.quotient.apply (.integer left) (.integer right) =
          .done (.integer Int32.minValue)
  comparison :
    ∀ {operator : Operator} {relation : Int → Int → Prop},
      operator.relation? = some relation →
        ∃ truth,
          operator.apply (.integer left) (.integer right) = .done (.bool truth) ∧
            (truth = true ↔ relation left.toInt right.toInt)
  failure :
    ∀ {operator : Operator},
      operator.DividesByZero right →
        operator.apply (.integer left) (.integer right) = .failed (.divisionByZero operator left)
  success :
    ∀ {operator : Operator},
      operator.IsDefined →
        ¬ operator.DividesByZero right →
          ∃ value, operator.apply (.integer left) (.integer right) = .done value
  negation :
    ∃ negated,
      Value.negate (.integer right) = .ok (.integer negated) ∧
        CutTo (-right.toInt) negated ∧
          Operator.add.apply (.integer right) (.integer negated) = .done (.integer 0) ∧
            Operator.subtract.apply (.integer left) (.integer right) =
              Operator.add.apply (.integer left) (.integer negated)

section Quotients

variable
  {left right : Int32}

theorem not_quotient_dividesByZero
    (nonzero : right ≠ 0) :
    ¬ Operator.quotient.DividesByZero right :=
  fun divides => nonzero divides.2

theorem toInt_ne_zero
    (nonzero : right ≠ 0) :
    right.toInt ≠ 0 :=
  fun zero => nonzero (Int32.toInt_inj.mp zero)

/-- A quotient that fits is exact up to a remainder on the side of the dividend. -/
theorem apply_quotient_of_fits
    (nonzero : right ≠ 0)
    (fits : FitsWord (left.toInt.tdiv right.toInt)) :
    ∃ quotient,
      Operator.quotient.apply (.integer left) (.integer right) = .done (.integer quotient) ∧
        quotient.toInt = left.toInt.tdiv right.toInt ∧
          (left.toInt - quotient.toInt * right.toInt).natAbs < right.toInt.natAbs ∧
            0 ≤ (left.toInt - quotient.toInt * right.toInt) * left.toInt := by
  obtain ⟨quotient, applied, cut⟩ :=
    apply_exact left right rfl (not_quotient_dividesByZero nonzero)
  have whole := cut.toInt_eq fits
  refine ⟨quotient, applied, whole, ?_, ?_⟩
  · rw [whole]
    exact natAbs_sub_tdiv_mul_lt left.toInt (toInt_ne_zero nonzero)
  · rw [whole]
    exact sub_tdiv_mul_mul_nonneg left.toInt right.toInt

/-- The least number divided by minus one is one more than the greatest, and cut to the least. -/
theorem apply_quotient_least :
    Operator.quotient.apply (.integer Int32.minValue) (.integer (-1)) =
      .done (.integer Int32.minValue) := by
  obtain ⟨quotient, applied, cut⟩ :=
    apply_exact Int32.minValue (-1) rfl (not_quotient_dividesByZero (by decide))
  have cutToLeast : CutTo (Int32.minValue.toInt.tdiv (-1 : Int32).toInt) Int32.minValue := by
    rw [cutTo_iff_toInt_eq_bmod]
    decide
  rw [applied, cut.unique cutToLeast]

end Quotients

/-- The sign of a word is turned by giving its additive inverse. -/
theorem negate_word
    (left right : Int32) :
    ∃ negated,
      Value.negate (.integer right) = .ok (.integer negated) ∧
        CutTo (-right.toInt) negated ∧
          Operator.add.apply (.integer right) (.integer negated) = .done (.integer 0) ∧
            Operator.subtract.apply (.integer left) (.integer right) =
              Operator.add.apply (.integer left) (.integer negated) := by
  refine ⟨-right, rfl, cutTo_iff_toInt_eq_bmod.mpr right.toInt_neg, ?_, ?_⟩
  · rw [apply_integers right (-right) (by decide), applyInteger, Int32.add_right_neg]
  · rw [apply_integers left right (by decide), apply_integers left (-right) (by decide),
      applyInteger, applyInteger, Int32.sub_eq_add_neg]

/--
On any two words, operators are exact up to the width of a word, and fail on a zero divisor only.
-/
theorem exactOnWords
    (left right : Int32) :
    ExactOnWords left right where
  arithmetic := apply_exact left right
  remainder := apply_quotient_of_fits
  fitting := by
    intro nonzero
    rw [fitsWord_tdiv_iff (fitsWord_toInt left) (toInt_ne_zero nonzero), ← Int32.toInt_inj,
      ← Int32.toInt_inj]
    rfl
  least := by
    rintro rfl rfl
    exact apply_quotient_least
  comparison := apply_relation left right
  failure := apply_dividesByZero left right
  success := exists_apply_integers left right
  negation := negate_word left right

end Operator

end Reckon
