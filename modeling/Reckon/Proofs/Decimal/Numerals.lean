import Mathlib.Data.Nat.Digits.Lemmas
import Mathlib.Data.Nat.Log
import Reckon.Proofs.Token.Literals

namespace Reckon.Decimal

/-!
# Numerals

Digits denote a number in base ten.  What the readers of whole numbers, of mantissas and of
exponents take from digits is stated by that number, whatever stands in front of the digits already.

An exponent is heeded up to its first five digits.
-/

/-- The text is made of digits. -/
def AllDigits (text : List Char) : Prop :=
  ∀ char ∈ text, Lexeme.isDigit char = true

/-- The number that digits denote in base ten. -/
def numeral (digits : List Char) : Nat :=
  Nat.ofDigits 10 (digits.reverse.map fun char => char.toNat - '0'.toNat)

theorem AllDigits.beginsWithDigit
    {text : List Char}
    (allDigits : AllDigits text) :
    BeginsWithDigit text :=
  fun char first => allDigits char (List.mem_of_mem_head? first)

@[simp] theorem numeral_nil :
    numeral [] = 0 :=
  rfl

/-- A digit behind others is worth itself, and the others ten times as much. -/
theorem numeral_concat
    (digits : List Char)
    (char : Char) :
    numeral (digits ++ [char]) = numeral digits * 10 + (char.toNat - '0'.toNat) := by
  simp only [numeral, List.reverse_append, List.reverse_singleton, List.singleton_append,
    List.map_cons, Nat.ofDigits_cons]
  ring

/-- More digits do not make a smaller number. -/
theorem numeral_le_append
    (first second : List Char) :
    numeral first ≤ numeral (first ++ second) := by
  induction second using List.reverseRecOn with
  | nil =>
      rw [List.append_nil]
  | append_singleton second char inductionHypothesis =>
      rw [← List.append_assoc, numeral_concat]
      omega

/-- A digit has its value. -/
theorem decimalDigit?_of_isDigit
    {char : Char}
    (digit : Lexeme.isDigit char = true) :
    decimalDigit? char = some (char.toNat - '0'.toNat) := by
  rw [decimalDigit?, if_pos]
  simpa [Lexeme.isDigit] using digit

/-- What is no digit has no value. -/
theorem decimalDigit?_eq_none
    {char : Char}
    (noDigit : Lexeme.isDigit char = false) :
    decimalDigit? char = none := by
  rw [decimalDigit?, if_neg]
  simpa [Lexeme.isDigit] using noDigit

theorem digit_lt_ten
    {char : Char}
    (digit : Lexeme.isDigit char = true) :
    char.toNat - '0'.toNat < 10 := by
  simp only [Lexeme.isDigit, Char.le_def, UInt32.le_iff_toNat_le, Bool.and_eq_true,
    decide_eq_true_eq] at digit
  have last : ('9' : Char).val.toNat = 57 := rfl
  have first : ('0' : Char).toNat = 48 := rfl
  rw [Char.toNat, first]
  omega

/-- A number of so many digits is below the power of ten. -/
theorem numeral_lt
    {digits : List Char}
    (allDigits : AllDigits digits) :
    numeral digits < 10 ^ digits.length := by
  have small :
      ∀ digit ∈ digits.reverse.map (fun char => char.toNat - '0'.toNat), digit < 10 := by
    intro digit member
    obtain ⟨char, inside, rfl⟩ := List.mem_map.mp member
    exact digit_lt_ten (allDigits char (List.mem_reverse.mp inside))
  have bounded := Nat.ofDigits_lt_base_pow_length (by decide) small
  rw [List.length_map, List.length_reverse] at bounded
  exact bounded

/-! ### Whole numbers -/

/-- Digits are read as far as their number stays below the limit. -/
theorem naturalBelow_digits
    {limit : Nat}
    {before digits : List Char}
    (below : numeral before < limit)
    (allDigits : AllDigits digits) :
    naturalBelow limit (numeral before) digits =
      if numeral (before ++ digits) < limit then
        .ok (numeral (before ++ digits))
      else
        .error .outOfRange := by
  induction digits generalizing before with
  | nil =>
      rw [naturalBelow, List.append_nil, if_pos below]
  | cons char digits inductionHypothesis =>
      obtain ⟨digit, restDigits⟩ := List.forall_mem_cons.mp allDigits
      have shape : before ++ char :: digits = before ++ [char] ++ digits := by
        simp
      rw [naturalBelow, decimalDigit?_of_isDigit digit]
      simp only
      rw [← numeral_concat, shape]
      split
      next stays =>
        exact inductionHypothesis stays restDigits
      next leaves =>
        have grows := numeral_le_append (before ++ [char]) digits
        rw [if_neg (by omega)]

/-- Digits are a whole number of 32 bits if their number fits. -/
theorem integer_digits
    {digits : List Char}
    (present : digits ≠ [])
    (allDigits : AllDigits digits) :
    integer 32 digits =
      if numeral digits < 0x80000000 then .ok (numeral digits : Int) else .error .outOfRange := by
  have read := @naturalBelow_digits (Nat.pow 2 32) [] digits (by decide) allDigits
  rw [numeral_nil, List.nil_append] at read
  unfold integer
  simp only [allDigits.beginsWithDigit.splitSign, List.isEmpty_iff, present, ↓reduceIte, read,
    Bool.false_eq_true]
  by_cases inWord : numeral digits < Nat.pow 2 32
  · simp only [inWord, ↓reduceIte]
  · have tooLarge : ¬ numeral digits < 0x80000000 := by
      have : Nat.pow 2 32 = 0x100000000 := rfl
      omega
    simp only [inWord, tooLarge, ↓reduceIte]

/-! ### Mantissas -/

/-- Digits continue a mantissa, and count as places if they stand behind the point. -/
theorem mantissa_digits
    {digits : List Char}
    (allDigits : AllDigits digits)
    (before : List Char)
    (places : Nat)
    (anyDigit anyPoint : Bool)
    (old rest : List Char) :
    mantissa 10 decimalDigit? ⟨numeral before, places, anyDigit, anyPoint, old⟩ (digits ++ rest) =
      mantissa 10 decimalDigit?
        ⟨numeral (before ++ digits),
          if anyPoint then places + digits.length else places,
          anyDigit || !digits.isEmpty, anyPoint, old⟩
        rest := by
  induction digits generalizing before places anyDigit with
  | nil =>
      simp
  | cons char digits inductionHypothesis =>
      obtain ⟨digit, restDigits⟩ := List.forall_mem_cons.mp allDigits
      have notPoint : char ≠ '.' := by
        rintro rfl
        cases digit
      have shape : before ++ char :: digits = before ++ [char] ++ digits := by
        simp
      rw [List.cons_append, mantissa, if_neg notPoint, decimalDigit?_of_isDigit digit]
      simp only
      have counted : places + 1 + digits.length = places + (digits.length + 1) := by
        omega
      rw [← numeral_concat, inductionHypothesis restDigits, shape]
      cases anyPoint <;> simp [counted]

/-- A mantissa ends at a character that is neither a digit nor a point. -/
theorem mantissa_ends
    {rest : List Char}
    (ends : ∀ char ∈ rest.head?, Lexeme.isDigit char = false ∧ char ≠ '.')
    (read : Mantissa) :
    mantissa 10 decimalDigit? read rest = { read with rest := rest } := by
  cases rest with
  | nil =>
      rfl
  | cons char rest =>
      obtain ⟨noDigit, notPoint⟩ := ends char rfl
      rw [mantissa, if_neg notPoint, decimalDigit?_eq_none noDigit]

/-! ### Exponents -/

/-- The first five digits of a number. -/
def firstFive (number : Nat) : Nat :=
  number / 10 ^ (Nat.log 10 number - 4)

/-- A number of at most five digits is read as it is. -/
theorem firstFive_of_lt
    {number : Nat}
    (small : number < 100000) :
    firstFive number = number := by
  have short : Nat.log 10 number < 5 :=
    Nat.log_lt_of_lt_pow' (by decide) small
  rw [firstFive, show Nat.log 10 number - 4 = 0 by omega, pow_zero, Nat.div_one]

/-- A number of at least five digits is read as one of five. -/
theorem le_firstFive
    {number : Nat}
    (large : 10000 ≤ number) :
    10000 ≤ firstFive number := by
  have five : 4 ≤ Nat.log 10 number :=
    Nat.le_log_of_pow_le (by decide) large
  rw [firstFive, Nat.le_div_iff_mul_le (by positivity)]
  calc
    10000 * 10 ^ (Nat.log 10 number - 4)
      = 10 ^ (Nat.log 10 number - 4 + 4) := by
        ring
    _ = 10 ^ Nat.log 10 number := by
        rw [Nat.sub_add_cancel five]
    _ ≤ number :=
        Nat.pow_log_le_self 10 (by omega)

/-- A further digit counts as long as there are fewer than five. -/
theorem firstFive_append
    (number : Nat)
    {digit : Nat}
    (small : digit < 10) :
    firstFive (number * 10 + digit) =
      if firstFive number < 10000 then firstFive number * 10 + digit else firstFive number := by
  by_cases short : number < 10000
  · rw [firstFive_of_lt (by omega : number < 100000), if_pos short, firstFive_of_lt (by omega)]
  · have five : 4 ≤ Nat.log 10 number :=
      Nat.le_log_of_pow_le (by decide) (by omega)
    have large : 10000 ≤ firstFive number :=
      le_firstFive (by omega)
    have whole : (number * 10 + digit) / 10 = number := by
      omega
    have longer : Nat.log 10 (number * 10 + digit) - 4 = Nat.log 10 number - 4 + 1 := by
      rw [Nat.log_of_one_lt_of_le (by decide) (by omega), whole]
      omega
    rw [if_neg large.not_gt, firstFive, longer, pow_succ', ← Nat.div_div_eq_div_mul, whole,
      firstFive]

/-- Reading on from the first five digits gives the first five of all of them. -/
theorem exponentDigits_digits
    {digits : List Char}
    (allDigits : AllDigits digits)
    (before : List Char) :
    exponentDigits (firstFive (numeral before)) digits =
      some (firstFive (numeral (before ++ digits))) := by
  induction digits generalizing before with
  | nil =>
      rw [exponentDigits, List.append_nil]
  | cons char digits inductionHypothesis =>
      obtain ⟨digit, restDigits⟩ := List.forall_mem_cons.mp allDigits
      have shape : before ++ char :: digits = before ++ [char] ++ digits := by
        simp
      rw [exponentDigits, decimalDigit?_of_isDigit digit, Option.bind_eq_bind, Option.bind_some,
        ← firstFive_append _ (digit_lt_ten digit), ← numeral_concat,
        inductionHypothesis restDigits, shape]

/-- An exponent without underscores: its mark, its sign if there is one, and digits. -/
structure Exponent where
  mark : Char
  sign : List Char
  digits : List Char
  isMark : mark = 'e' ∨ mark = 'E'
  isSign : sign = [] ∨ sign = ['+'] ∨ sign = ['-']
  allDigits : AllDigits digits

namespace Exponent

/-- The exponent as it is written. -/
def text (exponent : Exponent) : List Char :=
  exponent.mark :: (exponent.sign ++ exponent.digits)

/-- The number that is read, from the first five digits. -/
def heeded (exponent : Exponent) : Int :=
  if exponent.sign = ['-'] then
    -(firstFive (numeral exponent.digits) : Int)
  else
    firstFive (numeral exponent.digits)

/-- An exponent is read unless it has no digits. -/
theorem exponent?_eq
    (exponent : Exponent) :
    exponent? (exponent.sign ++ exponent.digits) =
      if exponent.digits = [] then none else some exponent.heeded := by
  have read := exponentDigits_digits exponent.allDigits []
  have split :
      splitSign (exponent.sign ++ exponent.digits) =
        (decide (exponent.sign = ['-']), exponent.digits) := by
    rcases exponent.isSign with sign | sign | sign
    · rw [sign, List.nil_append, exponent.allDigits.beginsWithDigit.splitSign]
      rfl
    · rw [sign]
      rfl
    · rw [sign]
      rfl
  rw [numeral_nil, List.nil_append] at read
  have start : firstFive 0 = 0 :=
    firstFive_of_lt (by decide)
  rw [start] at read
  unfold exponent?
  simp only [split, List.isEmpty_iff, read, decide_eq_true_eq]
  rfl

end Exponent

/-! ### Fractions -/

/-- Digits have no other case. -/
theorem lowerCase_of_isDigit
    {char : Char}
    (digit : Lexeme.isDigit char = true) :
    lowerCase char = char := by
  rw [lowerCase, if_neg]
  rintro ⟨above, _⟩
  simp only [Lexeme.isDigit, Bool.and_eq_true, decide_eq_true_eq] at digit
  exact absurd (above.trans digit.2) (by decide)

/-- A text that starts with a digit and has no `x` in it is read in base ten. -/
theorem fraction_eq_decimalFraction
    {char : Char}
    (digit : Lexeme.isDigit char = true)
    {rest : List Char}
    (notHexadecimal : ∀ other ∈ rest, other ≠ 'x' ∧ other ≠ 'X') :
    fraction (char :: rest) = decimalFraction false (char :: rest) := by
  have begins : BeginsWithDigit (char :: rest) := by
    rintro _ ⟨⟩
    exact digit
  have unnamed
      {name : String}
      {first : Char}
      {others : List Char}
      (spelled : name.toList = first :: others)
      (noDigit : Lexeme.isDigit first = false) :
      String.ofList ((char :: rest).map lowerCase) ≠ name := by
    rintro rfl
    rw [String.toList_ofList, List.map_cons, lowerCase_of_isDigit digit] at spelled
    rw [← (List.cons.inj spelled).1, digit] at noDigit
    cases noDigit
  have notInfinite :
      ¬ (String.ofList ((char :: rest).map lowerCase) = "inf" ∨
        String.ofList ((char :: rest).map lowerCase) = "infinity") :=
    not_or.mpr ⟨unnamed rfl rfl, unnamed rfl rfl⟩
  have notNan :
      ¬ (String.ofList ((char :: rest).map lowerCase) = "nan" ∧ True) :=
    fun named => unnamed rfl rfl named.1
  unfold fraction
  simp only [begins.splitSign]
  rw [if_neg notInfinite, if_neg notNan]
  split
  next mark first others shape =>
    obtain ⟨_, rfl⟩ := List.cons.inj shape
    have notMark := not_or.mpr (notHexadecimal mark List.mem_cons_self)
    rw [if_neg notMark]
  next =>
    rfl

/-- The digits behind a point, and the point. -/
def pointed : Option (List Char) → List Char
  | none => []
  | some places => '.' :: places

/-- An exponent as it is written, if there is one. -/
def marked : Option Exponent → List Char
  | none => []
  | some exponent => exponent.text

/--
A decimal is its digits, scaled by its exponent and by the number of its places.  It is refused
only if its exponent has no digits, or if it is out of range.
-/
theorem decimalFraction_eq
    {whole : List Char}
    (present : whole ≠ [])
    (allDigits : AllDigits whole)
    (places? : Option (List Char))
    (placesDigits : ∀ places ∈ places?, AllDigits places)
    (exponent? : Option Exponent) :
    decimalFraction false (whole ++ pointed places? ++ marked exponent?) =
      let digits := whole ++ places?.getD []
      let scale := -((places?.getD []).length : Int)
      match exponent? with
      | none => powerRatio? false (numeral digits) 10 scale
      | some exponent =>
          if exponent.digits = [] then
            .error .invalid
          else
            powerRatio? false (numeral digits) 10 (exponent.heeded + scale) := by
  have ends : ∀ char ∈ (marked exponent?).head?, Lexeme.isDigit char = false ∧ char ≠ '.' := by
    cases exponent? with
    | none =>
        nofun
    | some exponent =>
        rintro _ ⟨⟩
        rcases exponent.isMark with mark | mark
        · rw [mark]
          decide
        · rw [mark]
          decide
  have anyDigit : whole.isEmpty = false := by
    rwa [Bool.eq_false_iff, ne_eq, List.isEmpty_iff]
  have read :
      mantissa 10 decimalDigit? Mantissa.start (whole ++ pointed places? ++ marked exponent?) =
        ⟨numeral (whole ++ places?.getD []), (places?.getD []).length, true, places?.isSome,
          marked exponent?⟩ := by
    have start := mantissa_digits allDigits [] 0 false false []
    rw [numeral_nil] at start
    rw [List.append_assoc, Mantissa.start, start]
    cases places? with
    | none =>
        simp [pointed, mantissa_ends ends, anyDigit]
    | some places =>
        rw [pointed, List.cons_append, mantissa, if_pos rfl]
        simp only [Bool.false_eq_true, ↓reduceIte]
        rw [mantissa_digits (placesDigits places rfl), mantissa_ends ends]
        simp [anyDigit]
  unfold decimalFraction
  simp only [read, ↓reduceIte]
  cases exponent? with
  | none =>
      rfl
  | some exponent =>
      simp only [marked, Exponent.text, List.isEmpty_cons, Bool.false_eq_true, ↓reduceIte,
        markedExponent?, exponent.isMark, exponent.exponent?_eq, Int.sub_eq_add_neg]
      by_cases bare : exponent.digits = []
      · simp only [bare, ↓reduceIte]
      · simp only [bare, ↓reduceIte]

end Reckon.Decimal
