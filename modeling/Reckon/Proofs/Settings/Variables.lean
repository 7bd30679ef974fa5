import Reckon.Proofs.Decimal.Numerals
import Reckon.Settings.Layers

namespace Reckon

/-!
# What variables stand for

The text of a variable is a whole number in base ten that fits in 64 bits, or one of the words for
a truth value.  Reading a text accepts exactly these and gives what they stand for.
-/

namespace Decimal

/-- The number that digits denote behind a sign. -/
def signed (sign digits : List Char) : Int :=
  if sign = ['-'] then -(numeral digits : Int) else numeral digits

/-- The text is a whole number in base ten, with a sign or without one. -/
def Denotes (chars : List Char) (number : Int) : Prop :=
  ∃ sign digits,
    chars = sign ++ digits ∧
      (sign = [] ∨ sign = ['+'] ∨ sign = ['-']) ∧
        digits ≠ [] ∧ AllDigits digits ∧ number = signed sign digits

/-- A text is the sign that is split off, if there is one, and the rest. -/
theorem exists_sign
    (chars : List Char) :
    ∃ sign,
      chars = sign ++ (splitSign chars).2 ∧
        (sign = [] ∨ sign = ['+'] ∨ sign = ['-']) := by
  unfold splitSign
  split
  next rest => exact ⟨['+'], rfl, by simp⟩
  next rest => exact ⟨['-'], rfl, by simp⟩
  next => exact ⟨[], rfl, by simp⟩

/-- A sign is split off the digits behind it. -/
theorem splitSign_append
    {sign digits : List Char}
    (isSign : sign = [] ∨ sign = ['+'] ∨ sign = ['-'])
    (allDigits : AllDigits digits) :
    splitSign (sign ++ digits) = (decide (sign = ['-']), digits) := by
  rcases isSign with rfl | rfl | rfl
  · exact allDigits.beginsWithDigit.splitSign
  · rfl
  · rfl

/-- Only digits are read as a natural number. -/
theorem allDigits_of_naturalBelow
    {limit read number : Nat}
    {digits : List Char}
    (accepted : naturalBelow limit read digits = .ok number) :
    AllDigits digits := by
  induction digits generalizing read with
  | nil =>
      exact List.forall_mem_nil _
  | cons char digits inductionHypothesis =>
      rw [naturalBelow] at accepted
      cases isDigit : Lexeme.isDigit char with
      | false =>
          rw [decimalDigit?_eq_none isDigit] at accepted
          cases accepted
      | true =>
          rw [decimalDigit?_of_isDigit isDigit] at accepted
          simp only at accepted
          split at accepted
          · exact List.forall_mem_cons.mpr ⟨isDigit, inductionHypothesis accepted⟩
          · cases accepted

/-- What is read as a whole number has nothing but digits behind its sign, and at least one. -/
theorem digits_of_integer
    {width : Nat}
    {chars : List Char}
    {number : Int}
    (accepted : integer width chars = .ok number) :
    (splitSign chars).2 ≠ [] ∧ AllDigits (splitSign chars).2 := by
  simp only [integer, List.isEmpty_iff] at accepted
  split at accepted
  next => cases accepted
  next present =>
    split at accepted
    next => cases accepted
    next magnitude natural =>
      exact ⟨present, allDigits_of_naturalBelow natural⟩

/--
Digits behind a sign are a whole number if the number fits in a word of the given width.  They are
read up to twice the limit, and compared with it when the sign is known.
-/
theorem integer_signed
    {width : Nat}
    (positive : 0 < width)
    {sign digits : List Char}
    (isSign : sign = [] ∨ sign = ['+'] ∨ sign = ['-'])
    (present : digits ≠ [])
    (allDigits : AllDigits digits) :
    integer width (sign ++ digits) =
      if -2 ^ (width - 1) ≤ signed sign digits ∧ signed sign digits < 2 ^ (width - 1) then
        .ok (signed sign digits)
      else
        .error .outOfRange := by
  have doubled : (2 : Nat) ^ width = 2 ^ (width - 1) * 2 := by
    rw [← Nat.pow_succ]
    congr 1
    omega
  have half : (2 : Int) ^ (width - 1) = ((2 ^ (width - 1) : Nat) : Int) := by
    simp
  have someNumber : 0 < 2 ^ (width - 1) := Nat.pow_pos (by decide)
  have read :=
    @naturalBelow_digits (Nat.pow 2 width) [] digits (Nat.pow_pos (by decide)) allDigits
  rw [numeral_nil, List.nil_append, Nat.pow_eq, doubled] at read
  simp only [integer, splitSign_append isSign allDigits, List.isEmpty_iff, present, ↓reduceIte,
    Nat.pow_eq, doubled, read, half, signed, decide_eq_true_eq]
  by_cases below : numeral digits < 2 ^ (width - 1) * 2
  · rw [if_pos below]
    by_cases minus : sign = ['-']
    · simp only [minus, ↓reduceIte]
      congr 1
      rw [eq_iff_iff]
      omega
    · simp only [minus, ↓reduceIte]
      congr 1
      rw [eq_iff_iff]
      omega
  · have tooLarge :
        ¬ (-((2 ^ (width - 1) : Nat) : Int) ≤
              (if sign = ['-'] then -(numeral digits : Int) else numeral digits) ∧
            (if sign = ['-'] then -(numeral digits : Int) else numeral digits) <
              ((2 ^ (width - 1) : Nat) : Int)) := by
      split <;> omega
    rw [if_neg below, if_neg tooLarge]

/-- A reader of whole numbers accepts those that fit in a word of its width. -/
theorem integer_eq_ok_iff
    {width : Nat}
    (positive : 0 < width)
    {chars : List Char}
    {number : Int} :
    integer width chars = .ok number ↔
      Denotes chars number ∧ -2 ^ (width - 1) ≤ number ∧ number < 2 ^ (width - 1) := by
  constructor
  · intro accepted
    obtain ⟨present, allDigits⟩ := digits_of_integer accepted
    obtain ⟨sign, charsShape, isSign⟩ := exists_sign chars
    rw [charsShape, integer_signed positive isSign present allDigits] at accepted
    split at accepted
    next fits =>
      cases accepted
      exact ⟨⟨sign, _, charsShape, isSign, present, allDigits, rfl⟩, fits⟩
    next =>
      cases accepted
  · rintro ⟨⟨sign, digits, rfl, isSign, present, allDigits, rfl⟩, fits⟩
    rw [integer_signed positive isSign present allDigits, if_pos fits]

end Decimal

namespace Settings

/-- The text of a variable is a whole number of 64 bits. -/
def NumberText (text : String) (number : Int64) : Prop :=
  Decimal.Denotes text.toList number.toInt

/-- The text of a variable is a word for a truth value. -/
def TruthText (text : String) (truth : Bool) : Prop :=
  if truth then
    text ∈ ["1", "t", "T", "TRUE", "true", "True"]
  else
    text ∈ ["0", "f", "F", "FALSE", "false", "False"]

/-- A number is read from the texts that stand for it, and no others. -/
theorem readNumber_eq_ok_iff
    {text : String}
    {number : Int64} :
    readNumber text = .ok number ↔ NumberText text number := by
  have least := number.le_toInt
  have greatest := number.toInt_lt
  unfold readNumber NumberText
  constructor
  · intro read
    cases found : Decimal.integer 64 text.toList with
    | error problem =>
        rw [found] at read
        cases read
    | ok whole =>
        rw [found] at read
        obtain ⟨denotes, small, large⟩ := (Decimal.integer_eq_ok_iff (by decide)).mp found
        cases read
        rwa [Int64.toInt_ofInt_of_le (by omega) (by omega)]
  · intro denotes
    have found :=
      (Decimal.integer_eq_ok_iff (show 0 < 64 by decide)).mpr ⟨denotes, by omega, by omega⟩
    rw [found]
    exact congrArg Except.ok number.ofInt_toInt

/-- A text stands for one number at most. -/
theorem NumberText.unique
    {text : String}
    {first second : Int64}
    (firstRead : NumberText text first)
    (secondRead : NumberText text second) :
    first = second := by
  rw [← readNumber_eq_ok_iff] at firstRead secondRead
  exact Except.ok.inj (firstRead.symm.trans secondRead)

/-- A truth value is read from the words that stand for it, and no word stands for both. -/
theorem readTruth_eq_ok_iff
    {text : String}
    {truth : Bool} :
    readTruth text = .ok truth ↔ TruthText text truth := by
  unfold readTruth TruthText
  simp only [List.contains_iff_mem]
  constructor
  · intro read
    split at read
    next isTrue =>
      cases read
      exact isTrue
    next =>
      split at read
      next isFalse =>
        cases read
        exact isFalse
      next => cases read
  · cases truth with
    | true =>
        intro isTrue
        exact if_pos isTrue
    | false =>
        intro isFalse
        have notTrue : text ∉ ["1", "t", "T", "TRUE", "true", "True"] := by
          intro isTrue
          simp only [List.mem_cons, List.not_mem_nil, or_false, Bool.false_eq_true,
            ↓reduceIte] at isTrue isFalse
          rcases isTrue with rfl | rfl | rfl | rfl | rfl | rfl <;> revert isFalse <;> decide
        rw [if_neg notTrue]
        exact if_pos isFalse

/-- A text stands for one truth value at most. -/
theorem TruthText.unique
    {text : String}
    {first second : Bool}
    (firstRead : TruthText text first)
    (secondRead : TruthText text second) :
    first = second := by
  rw [← readTruth_eq_ok_iff] at firstRead secondRead
  exact Except.ok.inj (firstRead.symm.trans secondRead)

end Settings

end Reckon
