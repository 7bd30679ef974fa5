import Reckon.Proofs.Decimal.Numerals
import Reckon.Proofs.Token.Rescanning

namespace Reckon

open scoped Computability

/-!
# Numbers and their parts

Without its underscores, every number that is scanned has digits in front.  A point and further
digits may follow, then an exponent, which may have a sign and need not have digits, and then the
imaginary unit.
-/

/-- A number without underscores, taken apart. -/
structure NumberParts where
  whole : List Char
  /-- The digits behind the point, if there is a point. -/
  places? : Option (List Char)
  exponent? : Option Decimal.Exponent
  unit? : Option Char
  present : whole ≠ []
  wholeDigits : Decimal.AllDigits whole
  placesDigits : ∀ places ∈ places?, Decimal.AllDigits places
  isUnit : ∀ unit ∈ unit?, unit = 'j' ∨ unit = 'J'

namespace NumberParts

/-- The number up to its unit. -/
def real (parts : NumberParts) : List Char :=
  parts.whole ++ Decimal.pointed parts.places? ++ Decimal.marked parts.exponent?

/-- The number as it is written. -/
def text (parts : NumberParts) : List Char :=
  parts.real ++ parts.unit?.toList

/-- The kind of the number. -/
def kind (parts : NumberParts) : TokenKind :=
  if parts.unit?.isSome then .complex else if parts.places?.isSome then .float else .integer

end NumberParts

/-- A literal without its underscores. -/
def Literal.plain (text : List Char) : List Char :=
  text.filter (· ≠ '_')

namespace Lexeme

/-- Without underscores, a run of digits holds nothing but digits. -/
theorem allDigits_plain
    {text : List Char}
    (member : text ∈ digitRuns) :
    Decimal.AllDigits (Literal.plain text) := by
  intro char kept
  obtain ⟨inside, notUnderscore⟩ := List.mem_filter.mp kept
  rcases takes_digitRuns.uses text member char inside with digit | rfl
  · exact (isDigit_iff char).mpr digit
  · simp at notUnderscore

/-- Without underscores, a fraction is a point with digits behind it. -/
theorem exists_places
    {text : List Char}
    (member : text ∈ 1 + fractions) :
    ∃ places? : Option (List Char),
      Literal.plain text = Decimal.pointed places? ∧
        (∀ places ∈ places?, Decimal.AllDigits places) ∧
          (places?.isSome = true ↔ text ≠ []) := by
  rw [fractions, Language.mem_add, Language.mem_one, mem_one_mul_iff] at member
  rcases member with rfl | ⟨point, rfl, places, isRun, rfl⟩
  · exact ⟨none, rfl, by simp, by simp⟩
  · refine ⟨some (Literal.plain places), ?_, ?_, by simp⟩
    · rw [Literal.plain, List.filter_cons_of_pos (by decide)]
      rfl
    · rintro _ ⟨⟩
      exact allDigits_plain isRun

/-- Without underscores, an exponent is its mark, its sign and its digits. -/
theorem exists_exponent
    {text : List Char}
    (member : text ∈ 1 + exponents) :
    ∃ exponent?, Literal.plain text = Decimal.marked exponent? := by
  rw [exponents, Language.mem_add, Language.mem_one, mem_one_mul_iff] at member
  rcases member with rfl | ⟨mark, isMark, rest, signed, rfl⟩
  · exact ⟨none, rfl⟩
  · obtain ⟨sign, isSign, digits, isRun, rfl⟩ := Language.mem_mul.mp signed
    rw [Language.mem_add, Language.mem_one] at isSign
    have signs : sign = [] ∨ sign = ['+'] ∨ sign = ['-'] := by
      rcases isSign with rfl | ⟨char, rfl | rfl, rfl⟩ <;> simp
    have plainSign : Literal.plain sign = sign := by
      rcases signs with rfl | rfl | rfl <;> rfl
    have plainMark : mark ≠ '_' := by
      rcases isMark with rfl | rfl <;> decide
    refine ⟨some ⟨mark, sign, Literal.plain digits, isMark, signs, allDigits_plain isRun⟩, ?_⟩
    rw [Literal.plain, List.filter_cons_of_pos (by simpa using plainMark), List.filter_append,
      ← Literal.plain, plainSign]
    rfl

/-- An imaginary unit is one of two letters. -/
theorem exists_unit
    {text : List Char}
    (member : text ∈ 1 + units) :
    ∃ unit? : Option Char,
      Literal.plain text = unit?.toList ∧
        (∀ unit ∈ unit?, unit = 'j' ∨ unit = 'J') ∧
          (unit?.isSome = true ↔ text ≠ []) := by
  rw [units, Language.mem_add, Language.mem_one] at member
  rcases member with rfl | ⟨unit, isUnit, rfl⟩
  · exact ⟨none, rfl, by simp, by simp⟩
  · refine ⟨some unit, ?_, ?_, by simp⟩
    · rcases isUnit with rfl | rfl <;> rfl
    · rintro _ ⟨⟩
      exact isUnit

/-- A number has parts, and its kind tells which. -/
theorem exists_parts
    {text : List Char}
    (member : text ∈ numbers) :
    ∃ parts : NumberParts, Literal.plain text = parts.text ∧ numberKind text = parts.kind := by
  obtain ⟨_, inReal, unit, isUnit, rfl⟩ := Language.mem_mul.mp member
  obtain ⟨_, inDecimal, exponent, isExponent, rfl⟩ := Language.mem_mul.mp inReal
  obtain ⟨whole, isWhole, fraction, isFraction, rfl⟩ := Language.mem_mul.mp inDecimal
  obtain ⟨places?, placesShape, placesDigits, pointed_iff⟩ := exists_places isFraction
  obtain ⟨exponent?, exponentShape⟩ := exists_exponent isExponent
  obtain ⟨unit?, unitShape, units, unit_iff⟩ := exists_unit isUnit
  have present : Literal.plain whole ≠ [] := by
    obtain ⟨first, digit, rest, _, rfl⟩ := mem_one_mul_iff.mp isWhole
    have kept : first ≠ '_' := by
      rintro rfl
      simp [digits] at digit
    rw [Literal.plain, List.filter_cons_of_pos (by simpa using kept)]
    exact List.cons_ne_nil _ _
  let parts : NumberParts :=
    ⟨Literal.plain whole, places?, exponent?, unit?, present,
      allDigits_plain (mem_digitRuns_of_mem_mul isWhole), placesDigits, units⟩
  refine ⟨parts, ?_, ?_⟩
  · rw [NumberParts.text, NumberParts.real, ← placesShape, ← exponentShape, ← unitShape]
    simp only [parts, Literal.plain, List.filter_append]
  · rw [numberKind_append isWhole isFraction isExponent isUnit, NumberParts.kind]
    simp only [parts, pointed_iff, unit_iff]

/-- A number is spelled as a number, and its kind shows in its text. -/
theorem Spells.number_of_isNumber
    {text : List Char}
    {kind : TokenKind}
    (spells : Spells text kind)
    (isNumber : kind.isNumber = true) :
    text ∈ numbers ∧ kind = numberKind text := by
  have keywords : ∀ entry ∈ TokenKind.keywords, entry.2.isNumber = false := by
    decide
  have operators : ∀ entry ∈ TokenKind.operators, entry.2.isNumber = false := by
    decide
  cases spells with
  | number member => exact ⟨member, rfl⟩
  | keyword _ reserved => exact absurd isNumber (by simp [keywords _ reserved])
  | identifier _ _ => cases isNumber
  | operator entry => exact absurd isNumber (by simp [operators _ entry])

end Lexeme

namespace Scanner

/-- The text of a number of a source has parts, and the kind of its token tells which. -/
theorem exists_parts_of_next
    {source : List Char}
    {calls : Nat}
    {token : Token}
    (scanned : ((ofSource source).after calls).next.1 = .ok token)
    (isNumber : token.kind.isNumber = true) :
    ∃ (text : List Char) (parts : NumberParts),
      token.text? source = some text ∧ Literal.plain text = parts.text ∧
        token.kind = parts.kind := by
  obtain ⟨before, char, rest, rfl, digit, kind, start, reported⟩ :=
    exists_number_of_next scanned isNumber
  have spans :=
    spans_number (Lexeme.length_number digit rest).2 isNumber start reported
  obtain ⟨member, numberKind⟩ :=
    (Lexeme.spells_number digit rest).number_of_isNumber (kind ▸ isNumber)
  obtain ⟨parts, shape, partsKind⟩ := Lexeme.exists_parts member
  exact ⟨_, parts, spans.text?_eq, shape, kind.trans (numberKind.trans partsKind)⟩

end Scanner

end Reckon
