import Reckon.Proofs.Token.Lexemes
import Reckon.Proofs.Syntax.Postfix
import Reckon.Proofs.Value.Results
import Reckon.Proofs.Value.Zeros

namespace Reckon

/-!
# Values of literals

A literal of a source is a number without a sign, so it is never a negative zero.
-/

/-- The text, if there is any, begins with a digit. -/
def BeginsWithDigit (text : List Char) : Prop :=
  ∀ char ∈ text.head?, Lexeme.isDigit char = true

namespace BeginsWithDigit

variable {text : List Char}

/-- There is no sign before a digit. -/
theorem splitSign
    (begins : BeginsWithDigit text) :
    Decimal.splitSign text = (false, text) := by
  match text with
  | [] => rfl
  | char :: rest =>
      have isDigit := begins char rfl
      unfold Decimal.splitSign
      split
      next plus =>
        cases plus
        exact absurd isDigit (by decide)
      next minus =>
        cases minus
        exact absurd isDigit (by decide)
      next => rfl

theorem filter_underscores
    (begins : BeginsWithDigit text) :
    BeginsWithDigit (text.filter (· ≠ '_')) := by
  match text with
  | [] => exact begins
  | char :: rest =>
      have isDigit := begins char rfl
      have kept : char ≠ '_' := by
        rintro rfl
        exact absurd isDigit (by decide)
      rw [List.filter_cons_of_pos (by simpa using kept)]
      exact begins

theorem dropImaginaryUnit
    (begins : BeginsWithDigit text) :
    BeginsWithDigit (Literal.dropImaginaryUnit text) := by
  have front : Literal.dropImaginaryUnit text <+: text := by
    rw [Literal.dropImaginaryUnit, ← List.reverse_suffix, List.reverse_reverse]
    exact List.dropWhile_suffix _
  obtain ⟨rest, textShape⟩ := front
  intro char member
  apply begins
  rw [← textShape, List.head?_append, Option.mem_def.mp member]
  rfl

end BeginsWithDigit

namespace Decimal

/-- A scaled number without a sign is not the negative zero. -/
theorem ne_negative_zero_of_powerRatio?
    {value base : Nat}
    {exponent : Int}
    {number : Float}
    (read : powerRatio? false value base exponent = .ok number) :
    number ≠ Binary64.zero true := by
  have rounded
      {numerator denominator : Nat}
      (found : Binary64.ofRatio? false numerator denominator = some number) :
      number ≠ Binary64.zero true := by
    unfold Binary64.ofRatio? at found
    simp only at found
    split at found
    next finite =>
      cases found
      exact Binary64.ofMagnitude_false_ne_zero_true finite
    next => cases found
  unfold powerRatio? at read
  simp only at read
  split at read
  next found =>
    cases read
    cases exponent with
    | ofNat up => exact rounded found
    | negSucc down => exact rounded found
  next => cases read

/-- A fraction without a sign is not the negative zero, by any of the notations that are tried. -/
theorem ne_negative_zero_of_fraction
    {text : List Char}
    (begins : BeginsWithDigit text)
    {number : Float}
    (read : fraction text = .ok number) :
    number ≠ Binary64.zero true := by
  have decimal (read : decimalFraction false text = .ok number) :
      number ≠ Binary64.zero true := by
    unfold decimalFraction at read
    simp only at read
    split at read
    next =>
      split at read
      next => exact ne_negative_zero_of_powerRatio? read
      next =>
        split at read
        next => exact ne_negative_zero_of_powerRatio? read
        next => cases read
    next => cases read
  have hexadecimal {digits : List Char} (read : hexadecimalFraction false digits = .ok number) :
      number ≠ Binary64.zero true := by
    unfold hexadecimalFraction at read
    simp only at read
    split at read
    next =>
      split at read
      next => exact ne_negative_zero_of_powerRatio? read
      next => cases read
    next => cases read
  unfold fraction at read
  simp only [begins.splitSign] at read
  split at read
  next =>
    cases read
    intro isZero
    exact absurd (congrArg Binary64.shape isZero) (by decide)
  next =>
    split at read
    next =>
      cases read
      intro isZero
      exact absurd (congrArg Binary64.shape isZero) (by decide)
    next =>
      split at read
      next =>
        split at read
        · exact hexadecimal read
        · exact decimal read
      next => exact decimal read

end Decimal

namespace Literal

theorem exists_of_reading_bind
    {α : Type}
    {result : Except Decimal.Problem α}
    {following : α → Except LiteralProblem Value}
    {value : Value}
    (read : reading result >>= following = .ok value) :
    ∃ number, result = .ok number ∧ following number = .ok value := by
  cases result with
  | ok number => exact ⟨number, rfl, read⟩
  | error problem => cases read

/-- A whole number is read as an integer. -/
theorem exists_integer_of_wholeNumber
    {number : Float}
    {value : Value}
    (read : wholeNumber number = .ok value) :
    ∃ whole, value = .integer whole := by
  unfold wholeNumber at read
  repeat' split at read
  all_goals cases read
  exact ⟨_, rfl⟩

/-- The literal of an integer is read as an integer. -/
theorem exists_integer_of_integer
    {digits : List Char}
    {value : Value}
    (read : integer digits = .ok value) :
    ∃ whole, value = .integer whole := by
  unfold integer at read
  split at read
  next =>
    obtain ⟨number, _, whole⟩ := exists_of_reading_bind read
    exact exists_integer_of_wholeNumber whole
  next =>
    obtain ⟨number, _, made⟩ := exists_of_reading_bind read
    cases made
    exact ⟨_, rfl⟩

/-- The literal of a float is read as a float that is not the negative zero. -/
theorem exists_float_of_float
    {digits : List Char}
    (begins : BeginsWithDigit digits)
    {value : Value}
    (read : float digits = .ok value) :
    ∃ number, value = .float number ∧ number ≠ Binary64.zero true := by
  obtain ⟨number, found, made⟩ := exists_of_reading_bind read
  cases made
  exact ⟨number, rfl, Decimal.ne_negative_zero_of_fraction begins found⟩

/-- The literal of an imaginary number is read as one that is not the negative zero. -/
theorem exists_complex_of_imaginary
    {digits : List Char}
    (begins : BeginsWithDigit digits)
    {value : Value}
    (read : imaginary digits = .ok value) :
    ∃ number, value = .complex { re := 0, im := number } ∧ number ≠ Binary64.zero true := by
  unfold imaginary at read
  simp only at read
  split at read
  next => cases read
  next =>
    obtain ⟨number, found, made⟩ := exists_of_reading_bind read
    cases made
    exact
      ⟨number, rfl, Decimal.ne_negative_zero_of_fraction begins.dropImaginaryUnit found⟩

/-- The value of a literal is a number that holds no negative zero. -/
theorem isData_of_decode
    {kind : TokenKind}
    {text : List Char}
    (begins : BeginsWithDigit text)
    {value : Value}
    (decoded : decode kind text = .ok value) :
    value.IsData ∧ ¬ value.HoldsNegativeZero := by
  have digits := begins.filter_underscores
  unfold decode at decoded
  simp only at decoded
  split at decoded
  next => cases decoded
  next =>
    split at decoded
    next =>
      obtain ⟨whole, rfl⟩ := exists_integer_of_integer decoded
      exact ⟨.integer whole, id⟩
    next =>
      obtain ⟨number, rfl, unsigned⟩ := exists_float_of_float digits decoded
      exact ⟨.float number, unsigned⟩
    next =>
      obtain ⟨number, rfl, unsigned⟩ := exists_complex_of_imaginary digits decoded
      refine ⟨.complex _, ?_⟩
      rintro (realZero | imagZero)
      · exact
          absurd (congrArg Binary64.shape realZero)
            (show Binary64.shape 0 ≠ Binary64.shape (Binary64.zero true) by decide)
      · exact unsigned imagZero
    next => cases decoded

end Literal

namespace Token

/-- The value of a number of a source is no negative zero. -/
theorem isData_of_literal?
    {source : List Char}
    {token : Token}
    (starts : Scanner.StartsNumber source token)
    (isNumber : token.kind.isNumber = true)
    {value : Value}
    (read : token.literal? source = some value) :
    value.IsData ∧ ¬ value.HoldsNegativeZero := by
  obtain ⟨text, spanned, found⟩ := literal?_eq_some_iff.mp read
  have begins : BeginsWithDigit text := isDigit_of_text? starts isNumber spanned
  unfold number at found
  split at found
  next decoded =>
    cases found
    exact Literal.isData_of_decode begins decoded
  next => cases found

end Token

end Reckon
