import Reckon.Bytecode.Opcode

namespace Reckon

/-!
# Texts on one line

Columns are the digits of a number or another text behind as many fillers as are missing.  Numbers,
values and units of code are shown without a line break, whatever they hold, so that a line of a
listing is one line of the text.
-/

namespace Text

/-- A number is written as it is everywhere else. -/
theorem integer_eq_toString
    (number : Int) :
    integer number = toString number := by
  cases number with
  | ofNat magnitude => rfl
  | negSucc magnitude => rfl

theorem integer_natCast
    (number : Nat) :
    integer number = toString number :=
  rfl

/-- A column of zeros and the digits of a number. -/
theorem zeroPadded_natCast
    (width number : Nat) :
    zeroPadded width number = String.ofList ((Nat.toDigits 10 number).leftpad width '0') := by
  have notNegative : ¬ (number : Int) < 0 := Int.not_lt.mpr (Int.natCast_nonneg number)
  simp only [zeroPadded, notNegative, ↓reduceIte, Int.natAbs_natCast, List.leftpad,
    String.ofList_append, Nat.repr_eq_ofList_toDigits, String.length_ofList]

/-- A column of blanks and a text. -/
theorem padLeft_eq_leftpad
    (width : Nat)
    (text : String) :
    padLeft width text = String.ofList (text.toList.leftpad width ' ') := by
  rw [padLeft, List.leftpad, String.ofList_append, String.ofList_toList, String.length_toList]

/-- The text stays on its line. -/
def OnOneLine (text : String) : Prop :=
  '\n' ∉ text.toList

instance (text : String) : Decidable (OnOneLine text) :=
  inferInstanceAs (Decidable ('\n' ∉ text.toList))

/-- A text is on one line if its parts are. -/
@[simp] theorem onOneLine_append_iff
    {first second : String} :
    OnOneLine (first ++ second) ↔ OnOneLine first ∧ OnOneLine second := by
  simp [OnOneLine, String.toList_append, List.mem_append]

/-- Characters without a line break are on one line. -/
theorem onOneLine_ofList
    {chars : List Char}
    (noBreak : '\n' ∉ chars) :
    OnOneLine (String.ofList chars) := by
  rwa [OnOneLine, String.toList_ofList]

/-- There is no line break among the digits of a number. -/
theorem newline_not_mem_toDigits
    (number : Nat) :
    '\n' ∉ Nat.toDigits 10 number := by
  intro member
  have digit := Nat.isDigit_of_mem_toDigits (by decide) (by decide) member
  cases digit

/-- A number is written with digits and perhaps a sign. -/
theorem eq_or_isDigit_of_mem_toString
    {number : Int}
    {char : Char}
    (member : char ∈ (toString number).toList) :
    char = '-' ∨ char.isDigit = true := by
  have digit
      {magnitude : Nat}
      (inDigits : char ∈ magnitude.repr.toList) :
      char.isDigit = true := by
    rw [Nat.toList_repr] at inDigits
    exact Nat.isDigit_of_mem_toDigits (by decide) (by decide) inDigits
  cases number with
  | ofNat magnitude => exact Or.inr (digit member)
  | negSucc magnitude =>
      have written :
          (toString (Int.negSucc magnitude)).toList = '-' :: (magnitude + 1).repr.toList := by
        simp [toString, Int.repr, String.toList_append]
      rw [written] at member
      rcases List.mem_cons.mp member with isSign | inDigits
      · exact Or.inl isSign
      · exact Or.inr (digit inDigits)

/-- A whole number is written on one line. -/
@[simp] theorem onOneLine_integer
    (number : Int) :
    OnOneLine (integer number) := by
  rw [integer_eq_toString]
  intro member
  rcases eq_or_isDigit_of_mem_toString member with isSign | isDigit
  · cases isSign
  · cases isDigit

@[simp] theorem onOneLine_toString
    (number : Nat) :
    OnOneLine (toString number) :=
  onOneLine_integer number

end Text

namespace Decimal

open Text

/-- A digit is not written as a line break, whatever it is. -/
theorem newline_not_mem_digitText
    (digits : List Nat) :
    '\n' ∉ digitText digits := by
  intro member
  obtain ⟨digit, _, written⟩ := List.mem_map.mp member
  by_cases valid : ('0'.toNat + digit).isValidChar
  · have code : (Char.ofNat ('0'.toNat + digit)).toNat = '0'.toNat + digit := by
      rw [Char.ofNat, dif_pos valid]
      rfl
    rw [written] at code
    have zero : '0'.toNat = 48 := rfl
    have newline : '\n'.toNat = 10 := rfl
    omega
  · rw [Char.ofNat, dif_neg valid] at written
    exact absurd written (by decide)

/-- The exponent of a number is written without a line break. -/
theorem newline_not_mem_exponentText
    (width : Nat)
    (exponent : Int) :
    '\n' ∉ exponentText width exponent := by
  have digits := newline_not_mem_toDigits exponent.natAbs
  simp only [exponentText, Nat.toList_repr]
  split <;> simp [digits]

theorem newline_not_mem_exponential
    (layout : Layout)
    (number : Digits) :
    '\n' ∉ exponential layout number := by
  have digits := newline_not_mem_digitText number.digits
  have exponent := newline_not_mem_exponentText layout.exponentWidth number.exponent
  simp only [exponential, List.mem_append, exponent, or_false]
  generalize digitText number.digits = written at digits
  match written with
  | [] => simp
  | [only] => exact digits
  | first :: next :: rest => simpa using digits

theorem newline_not_mem_positional
    (number : Digits) :
    '\n' ∉ positional number := by
  have digits := newline_not_mem_digitText
  unfold positional
  split
  · simp only
    split <;> simp [digits]
  · simp [digits]

/-- A double is written on one line. -/
theorem onOneLine_text
    (number : Float) :
    OnOneLine (text number) := by
  have magnitude (digits : Digits) : '\n' ∉ magnitudeText general digits := by
    unfold magnitudeText
    split
    · exact newline_not_mem_exponential general digits
    · exact newline_not_mem_positional digits
  unfold text
  split
  · decide
  · split <;> decide
  · apply onOneLine_ofList
    split <;> simp [magnitude]

end Decimal

namespace Value

open Text

theorem onOneLine_floatText
    (number : Float) :
    OnOneLine (floatText number) := by
  have written := Decimal.onOneLine_text number
  unfold floatText
  simp only
  split
  · exact onOneLine_append_iff.mpr ⟨written, by decide⟩
  · exact written

theorem onOneLine_complexText
    (number : Complex) :
    OnOneLine number.text := by
  unfold Complex.text
  split
  · simp only [onOneLine_append_iff, Decimal.onOneLine_text]
    decide
  · split
    · simp only [onOneLine_append_iff, Decimal.onOneLine_text]
      decide
    · simp only [onOneLine_append_iff, Decimal.onOneLine_text]
      decide

/-- A value is shown on one line. -/
theorem onOneLine_text
    (value : Value) :
    OnOneLine value.text := by
  cases value with
  | invalid => decide
  | bool truth => cases truth <;> decide
  | integer number => exact onOneLine_integer number.toInt
  | float number => exact onOneLine_floatText number
  | complex number => exact onOneLine_complexText number
  | object handle =>
      simp only [text, Handle.text, onOneLine_append_iff, onOneLine_integer]
      decide

end Value

namespace Opcode

theorem onOneLine_name
    (opcode : Opcode) :
    Text.OnOneLine opcode.name := by
  cases opcode <;> decide

theorem onOneLine_nameOfByte
    (byte : UInt8) :
    Text.OnOneLine (nameOfByte byte) := by
  unfold nameOfByte
  split
  next opcode _ => exact opcode.onOneLine_name
  next =>
    simp only [Text.onOneLine_append_iff, Text.onOneLine_integer]
    decide

end Opcode

namespace UnitKind

theorem onOneLine_name
    (kind : UnitKind) :
    Text.OnOneLine kind.name := by
  unfold name
  split
  · decide
  · split
    · decide
    · split
      · decide
      · simp only [Text.onOneLine_append_iff, Text.onOneLine_integer]
        decide

end UnitKind

/-- A unit of code is shown on one line. -/
theorem CodeUnit.onOneLine_text
    (unit : CodeUnit) :
    Text.OnOneLine unit.text := by
  unfold text
  split
  · exact Opcode.onOneLine_nameOfByte unit.byte
  · simp only [Text.onOneLine_append_iff, Text.onOneLine_integer, unit.kind.onOneLine_name]
    decide

end Reckon
