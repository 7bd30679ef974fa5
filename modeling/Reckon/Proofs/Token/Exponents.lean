import Reckon.Proofs.Binary64.Nearest
import Reckon.Proofs.Token.Decoding

namespace Reckon

/-!
# Whole numbers with exponents

A whole number with an exponent is read as a double first.  It is a literal if that double is a
whole number of 32 bits, so a fraction next to a whole number is one as well.  Where the literal
itself denotes a whole number, it has that value, or none if it is out of range.
-/

namespace Literal

/-- A literal up to the mark of its exponent, underscores dropped. -/
def mantissaPart (text : List Char) : List Char :=
  (plain text).takeWhile fun char => !isMark char

/-- The digits of the exponent of a literal, as a number. -/
def exponentMagnitude (text : List Char) : Nat :=
  Decimal.numeral ((exponentPart text).filter Lexeme.isDigit)

/-- The sign of the exponent of a literal, in front of a number. -/
def exponentSigned (text : List Char) (magnitude : Nat) : Int :=
  if '-' ∈ exponentPart text then -(magnitude : Int) else magnitude

/-- The exponent of a literal. -/
def exponent (text : List Char) : Int :=
  exponentSigned text (exponentMagnitude text)

/-- The ratio that a literal denotes. -/
def ratio (text : List Char) : ℚ :=
  Decimal.numeral (mantissaPart text) * 10 ^ exponent text

/-- The ratio that is read: only the first five digits of the exponent count. -/
def ratioRead (text : List Char) : ℚ :=
  Decimal.numeral (mantissaPart text) *
    10 ^ exponentSigned text (Decimal.firstFive (exponentMagnitude text))

/-- The number that a literal denotes is not negative. -/
theorem ratio_nonneg
    (text : List Char) :
    0 ≤ ratio text := by
  rw [ratio]
  positivity

end Literal

/-- The values of a number token are the whole numbers of 32 bits that the text denotes. -/
def Token.ReadsInteger (token : Token) (text : List Char) (denotes : ℚ → Prop) : Prop :=
  ∀ value,
    token.number text = .ok value ↔
      ∃ whole : Int32, denotes whole.toInt ∧ value = .integer whole

/-! ### Rounding -/

namespace Decimal

/-- A scaled number is rounded from the ratio of that value. -/
theorem exists_ratio_of_powerRatio?
    (value : Nat)
    {base : Nat}
    (positive : 0 < base)
    (exponent : Int) :
    ∃ numerator denominator : Nat,
      0 < denominator ∧
        (numerator : ℚ) / denominator = value * base ^ exponent ∧
        powerRatio? false value base exponent =
          match Binary64.ofRatio? false numerator denominator with
          | some number => .ok number
          | none => .error .outOfRange := by
  cases exponent with
  | ofNat up =>
      refine ⟨value * base ^ up, 1, Nat.one_pos, ?_, rfl⟩
      simp
  | negSucc down =>
      refine ⟨value, base ^ (down + 1), Nat.pow_pos positive, ?_, rfl⟩
      rw [zpow_negSucc, div_eq_mul_inv]
      push_cast
      rfl

end Decimal

namespace Literal

/-- A float is read as an integer if its value is one of 32 bits. -/
theorem wholeNumber_eq_ok_iff
    {number : Float}
    {value : Value} :
    wholeNumber number = .ok value ↔
      ∃ whole : Int32,
        Binary64.value? number = some (whole.toInt : ℚ) ∧ value = .integer whole := by
  constructor
  · intro made
    unfold wholeNumber at made
    repeat' split at made
    all_goals cases made
    next whole found bounded =>
      have read : (Int32.ofInt whole).toInt = whole :=
        Int32.toInt_ofInt_of_le bounded.1 bounded.2
      exact ⟨_, read.symm ▸ Binary64.toInt?_eq_some_iff.mp found, rfl⟩
  · rintro ⟨whole, found, rfl⟩
    obtain ⟨negative, significand, exponent, shaped, -⟩ := Binary64.exists_shape_of_value? found
    have bounded : -0x80000000 ≤ whole.toInt ∧ whole.toInt < 0x80000000 :=
      ⟨whole.le_toInt, whole.toInt_lt⟩
    simp only [wholeNumber, shaped, Binary64.toInt?_eq_some_iff.mpr found, bounded, and_self,
      ↓reduceIte, Int32.ofInt_toInt]

/-- What is too large for a whole number is not rounded to one. -/
theorem not_roundsTo_of_large
    {ratio : ℚ}
    (large : 2 ^ 31 ≤ ratio)
    (whole : Int32) :
    ¬ Binary64.RoundsTo ratio whole.toInt := by
  intro rounds
  have small : (2 ^ 31 : Nat) < 2 ^ 53 := by
    decide
  obtain ⟨boundary, found⟩ := Binary64.exists_value?_natCast small
  have least := rounds.le_of_le found (by exact_mod_cast large)
  have bound := whole.toInt_lt
  have contradiction : (2 ^ 31 : Int) ≤ whole.toInt := by
    exact_mod_cast least
  omega

/-- A whole number is rounded to a word only if it is that word. -/
theorem roundsTo_iff_of_whole
    {ratio : ℚ}
    (nonnegative : 0 ≤ ratio)
    {denoted : Int}
    (isWhole : ratio = denoted)
    (whole : Int32) :
    Binary64.RoundsTo ratio whole.toInt ↔ (whole.toInt : ℚ) = ratio := by
  obtain ⟨number, rfl⟩ : ∃ number : Nat, denoted = number :=
    Int.eq_ofNat_of_zero_le (by rw [isWhole] at nonnegative; exact_mod_cast nonnegative)
  rw [Int.cast_natCast] at isWhole
  rw [isWhole]
  by_cases small : number < 2 ^ 53
  · exact Binary64.roundsTo_natCast_iff small
  · have bound := whole.toInt_lt
    refine iff_of_false (not_roundsTo_of_large ?_ whole) ?_
    · exact_mod_cast (by omega : 2 ^ 31 ≤ number)
    · norm_cast
      omega

/-- A whole number that is read as a double is the one that the ratio is rounded to. -/
theorem wholeNumber_powerRatio?_eq_ok_iff
    {magnitude base : Nat}
    (positive : 0 < base)
    {exponent : Int}
    {value : Value} :
    reading (Decimal.powerRatio? false magnitude base exponent) >>= wholeNumber = .ok value ↔
      ∃ whole : Int32,
        Binary64.RoundsTo (magnitude * base ^ exponent) whole.toInt ∧
          value = .integer whole := by
  obtain ⟨numerator, denominator, below, ratio, read⟩ :=
    Decimal.exists_ratio_of_powerRatio? magnitude positive exponent
  rw [read, ← ratio]
  cases found : Binary64.ofRatio? false numerator denominator with
  | none =>
      have large := Binary64.le_of_ofRatio?_eq_none below found
      have limit : (2 : ℚ) ^ 31 ≤ 2 ^ (1023 : Int) :=
        zpow_le_zpow_right₀ (by norm_num) (by decide : (31 : Int) ≤ 1023)
      constructor
      · rintro ⟨⟩
      · rintro ⟨whole, rounds, -⟩
        exact absurd rounds (not_roundsTo_of_large (limit.trans large) whole)
  | some number =>
      have nearest := Binary64.isNearest_of_ofRatio? below found
      simp only [nearest.roundsTo_iff]
      exact wholeNumber_eq_ok_iff

/-! ### Long exponents -/

/-- A large exponent makes any mantissa but zero too large for a word. -/
theorem large_of_scale
    {mantissa scale : Nat}
    (positive : 0 < mantissa)
    (long : 10000 ≤ scale) :
    (2 : ℚ) ^ 31 ≤ mantissa * 10 ^ (scale : Int) := by
  calc
    (2 : ℚ) ^ 31
      ≤ 10 ^ 31 :=
        pow_le_pow_left₀ (by norm_num) (by norm_num) _
    _ ≤ 10 ^ scale :=
        pow_le_pow_right₀ (by norm_num) (by omega)
    _ ≤ mantissa * 10 ^ (scale : Int) := by
        rw [zpow_natCast]
        exact le_mul_of_one_le_left (by positivity) (by exact_mod_cast positive)

/-- A very negative exponent makes a mantissa too small for a double. -/
theorem tiny_of_scale
    {mantissa length scale : Nat}
    (counted : mantissa < 10 ^ length)
    (long : length + 360 ≤ scale) :
    (mantissa : ℚ) * 10 ^ (-(scale : Int)) < 2 ^ (-1075 : Int) := by
  have ten : (10 : ℚ) ≠ 0 := by
    norm_num
  calc
    (mantissa : ℚ) * 10 ^ (-(scale : Int))
      < 10 ^ (length : Int) * 10 ^ (-(scale : Int)) := by
        gcongr
        exact_mod_cast counted
    _ = 10 ^ ((length : Int) - scale) := by
        rw [← zpow_add₀ ten, sub_eq_add_neg]
    _ ≤ 10 ^ (-360 : Int) :=
        zpow_le_zpow_right₀ (by norm_num) (by omega)
    _ ≤ 8 ^ (-360 : Int) := by
        rw [zpow_neg, zpow_neg]
        gcongr ?_⁻¹
        exact zpow_le_zpow_left₀ (by decide) (by norm_num) (by norm_num)
    _ = 2 ^ (-1080 : Int) := by
        rw [show (8 : ℚ) = 2 ^ (3 : Int) by norm_num, ← zpow_mul]
        rfl
    _ ≤ 2 ^ (-1075 : Int) :=
        zpow_le_zpow_right₀ (by norm_num) (by norm_num)

/--
The digits of an exponent that do not count do not matter, unless the mantissa is very long.
Either both ratios are rounded to zero, or neither is rounded to a whole number of 32 bits.
-/
theorem roundsTo_ratioRead_iff
    {text : List Char}
    (allDigits : Decimal.AllDigits (mantissaPart text))
    (near : -100000 < exponent text ∨ (mantissaPart text).length ≤ 9600)
    (whole : Int32) :
    Binary64.RoundsTo (ratioRead text) whole.toInt ↔
      Binary64.RoundsTo (ratio text) whole.toInt := by
  rw [ratioRead, ratio]
  rw [exponent] at near ⊢
  generalize exponentMagnitude text = magnitude at near ⊢
  by_cases small : magnitude < 100000
  · rw [Decimal.firstFive_of_lt small]
  have long : 10000 ≤ Decimal.firstFive magnitude :=
    Decimal.le_firstFive (by omega)
  unfold exponentSigned at near ⊢
  split
  next negative =>
    rw [if_pos negative] at near
    have counted := Decimal.numeral_lt allDigits
    rw [Binary64.roundsTo_iff_of_tiny (by positivity) (tiny_of_scale counted (by omega)),
      Binary64.roundsTo_iff_of_tiny (by positivity) (tiny_of_scale counted (by omega))]
  next =>
    rcases Nat.eq_zero_or_pos (Decimal.numeral (mantissaPart text)) with zero | positive
    · simp [zero]
    · have read := not_roundsTo_of_large (large_of_scale positive long) whole
      have exactly :=
        not_roundsTo_of_large (large_of_scale positive (by omega : 10000 ≤ magnitude)) whole
      exact iff_of_false read exactly

end Literal

/-! ### Parts of literals -/

namespace NumberParts

variable
  {parts : NumberParts}
  {text : List Char}
  {exponent : Decimal.Exponent}

/-- The mantissa of an integer is its digits before the mark. -/
theorem mantissaPart_eq
    (shape : Literal.plain text = parts.text)
    (isInteger : parts.kind = .integer)
    (found : parts.exponent? = some exponent) :
    Literal.mantissaPart text = parts.whole := by
  have front : ∀ char ∈ parts.whole, (!Literal.isMark char) = true := by
    intro char member
    rw [Literal.notMark_of_isDigit (parts.wholeDigits char member)]
    rfl
  have mark := exponent.isMark_mark
  rw [Literal.mantissaPart, shape, text_of_isInteger isInteger, found, Decimal.marked,
    Decimal.Exponent.text, List.takeWhile_append_of_pos front,
    List.takeWhile_cons_of_neg (by simp [mark]), List.append_nil]

/-- The exponent of an integer stands from the mark to the end. -/
theorem exponentPart_of_isInteger
    (shape : Literal.plain text = parts.text)
    (isInteger : parts.kind = .integer)
    (found : parts.exponent? = some exponent) :
    Literal.exponentPart text = exponent.text := by
  simp [exponentPart_eq shape, found, (parts_of_isInteger isInteger).1]

end NumberParts

namespace Decimal.Exponent

theorem filter_isDigit_text
    (exponent : Exponent) :
    exponent.text.filter Lexeme.isDigit = exponent.digits := by
  have mark : Lexeme.isDigit exponent.mark = false := by
    rcases exponent.isMark with mark | mark <;> rw [mark] <;> rfl
  have sign : exponent.sign.filter Lexeme.isDigit = [] := by
    rcases exponent.isSign with sign | sign | sign <;> rw [sign] <;> rfl
  rw [text, List.filter_cons_of_neg (by simp [mark]), List.filter_append, sign, List.nil_append,
    List.filter_eq_self]
  exact exponent.allDigits

/-- An exponent is negative if there is a minus sign in it. -/
theorem minus_mem_text_iff
    (exponent : Exponent) :
    '-' ∈ exponent.text ↔ exponent.sign = ['-'] := by
  have mark : exponent.mark ≠ '-' := by
    rcases exponent.isMark with mark | mark <;> rw [mark] <;> decide
  have digits : '-' ∉ exponent.digits := by
    intro member
    cases exponent.allDigits _ member
  rw [text, List.mem_cons, List.mem_append]
  rcases exponent.isSign with sign | sign | sign <;> simp [sign, mark.symm, digits]

end Decimal.Exponent

namespace NumberParts

variable
  {parts : NumberParts}
  {text : List Char}
  {exponent : Decimal.Exponent}

/-- The ratio that is read is the digits scaled by the exponent that is heeded. -/
theorem ratioRead_eq
    (shape : Literal.plain text = parts.text)
    (isInteger : parts.kind = .integer)
    (found : parts.exponent? = some exponent) :
    Literal.ratioRead text = Decimal.numeral parts.whole * 10 ^ exponent.heeded := by
  simp only [Literal.ratioRead, Literal.exponentSigned, Literal.exponentMagnitude,
    mantissaPart_eq shape isInteger found, exponentPart_of_isInteger shape isInteger found,
    exponent.filter_isDigit_text, exponent.minus_mem_text_iff, Decimal.Exponent.heeded]

/-- A whole number with an exponent is read from the double next to it. -/
theorem value_of_exponent
    (isInteger : parts.kind = .integer)
    (found : parts.exponent? = some exponent)
    (digits : exponent.digits ≠ []) :
    parts.value =
      Literal.reading
          (Decimal.powerRatio? false (Decimal.numeral parts.whole) 10 exponent.heeded) >>=
        Literal.wholeNumber := by
  obtain ⟨noUnit, noPlaces⟩ := parts_of_isInteger isInteger
  simp [value, reading, noUnit, noPlaces, found, digits]

end NumberParts

namespace Scanner

section Literals

variable
  {source text : List Char}
  {calls : Nat}
  {token : Token}

/-- The parts of a whole number of a source whose exponent has digits. -/
theorem exists_exponent_of_next
    (scanned : ((ofSource source).after calls).next.1 = .ok token)
    (isInteger : token.kind = .integer)
    (spanned : token.text? source = some text)
    (digit : ∃ char ∈ Literal.exponentPart text, Lexeme.isDigit char = true) :
    ∃ (parts : NumberParts) (exponent : Decimal.Exponent),
      Literal.plain text = parts.text ∧
        parts.kind = .integer ∧ parts.exponent? = some exponent ∧ exponent.digits ≠ [] := by
  obtain ⟨same, parts, span, shape, kind⟩ :=
    exists_parts_of_next scanned (by rw [isInteger]; rfl)
  cases span.symm.trans spanned
  obtain ⟨char, member, isDigit⟩ := digit
  obtain ⟨exponent, found⟩ :=
    Option.isSome_iff_exists.mp
      ((NumberParts.hasExponent_iff shape).mp (List.ne_nil_of_mem member))
  refine ⟨parts, exponent, shape, kind.symm.trans isInteger, found, fun none => ?_⟩
  have bare := (NumberParts.hasBareExponent_iff shape).mpr ⟨exponent, found, none⟩
  exact absurd isDigit (by simp [bare.2 char member])

/-- A scanned integer with an exponent is read as its ratio rounds. -/
theorem readsInteger_ratioRead
    (scanned : ((ofSource source).after calls).next.1 = .ok token)
    (isInteger : token.kind = .integer)
    (spanned : token.text? source = some text)
    (digit : ∃ char ∈ Literal.exponentPart text, Lexeme.isDigit char = true) :
    token.ReadsInteger text (Binary64.RoundsTo (Literal.ratioRead text)) := by
  obtain ⟨parts, exponent, shape, kind, found, digits⟩ :=
    exists_exponent_of_next scanned isInteger spanned digit
  intro value
  rw [Token.number_eq_ok_iff, isInteger, ← kind, NumberParts.decode_eq_value shape,
    NumberParts.value_of_exponent kind found digits, NumberParts.ratioRead_eq shape kind found]
  exact_mod_cast Literal.wholeNumber_powerRatio?_eq_ok_iff (by decide)

/--
A whole number with an exponent that has digits is read from the double that is nearest to the ratio
it denotes, as far as the digits of its exponent count.  If that ratio is a whole number, the
literal has this value or is out of range.
-/
theorem number_reads_exponent
    (scanned : ((ofSource source).after calls).next.1 = .ok token)
    (isInteger : token.kind = .integer)
    (spanned : token.text? source = some text)
    (digit : ∃ char ∈ Literal.exponentPart text, Lexeme.isDigit char = true) :
    token.ReadsInteger text (Binary64.RoundsTo (Literal.ratioRead text)) ∧
      (-100000 < Literal.exponent text ∨ (Literal.mantissaPart text).length ≤ 9600 →
        token.ReadsInteger text (Binary64.RoundsTo (Literal.ratio text)) ∧
          ((∃ whole : Int, Literal.ratio text = whole) →
            token.ReadsInteger text (· = Literal.ratio text))) := by
  have reads := readsInteger_ratioRead scanned isInteger spanned digit
  obtain ⟨parts, exponent, shape, kind, found, -⟩ :=
    exists_exponent_of_next scanned isInteger spanned digit
  have allDigits : Decimal.AllDigits (Literal.mantissaPart text) := by
    rw [NumberParts.mantissaPart_eq shape kind found]
    exact parts.wholeDigits
  refine ⟨reads, fun near => ?_⟩
  have rounds : token.ReadsInteger text (Binary64.RoundsTo (Literal.ratio text)) := by
    intro value
    rw [reads value]
    simp only [Literal.roundsTo_ratioRead_iff allDigits near]
  refine ⟨rounds, ?_⟩
  rintro ⟨whole, isWhole⟩ value
  rw [rounds value]
  simp only [Literal.roundsTo_iff_of_whole (Literal.ratio_nonneg text) isWhole]

end Literals

/-- The largest whole number is read from ten times itself. -/
theorem number_reads_largest :
    let source := "(21_474_836_470e-0_1)".toList
    let text := "21_474_836_470e-0_1".toList
    let token : Token := ⟨.integer, 1, 20, 1⟩
    ((ofSource source).after 1).next.1 = .ok token ∧
      token.text? source = some text ∧
      Literal.ratio text = 2147483647 ∧
      token.number text = .ok (.integer 2147483647) := by
  intro source text token
  have scanned : ((ofSource source).after 1).next.1 = .ok token := by
    decide
  have spanned : token.text? source = some text := by
    rfl
  have exponent : Literal.exponent text = -1 := by
    decide +kernel
  have ratio : Literal.ratio text = 2147483647 := by
    have mantissa : Decimal.numeral (Literal.mantissaPart text) = 21474836470 := by
      decide +kernel
    rw [Literal.ratio, exponent, mantissa]
    norm_num
  have digit : ∃ char ∈ Literal.exponentPart text, Lexeme.isDigit char = true :=
    ⟨'0', by decide +kernel, rfl⟩
  obtain ⟨-, near⟩ := number_reads_exponent scanned rfl spanned digit
  obtain ⟨-, reads⟩ := near (Or.inl (by rw [exponent]; decide))
  refine ⟨scanned, spanned, ratio, (reads ⟨2147483647, by rw [ratio]; rfl⟩ _).mpr ?_⟩
  exact ⟨2147483647, by rw [ratio]; rfl, rfl⟩

/-- A fraction that no double is nearer to than zero is read as zero, although it is no integer. -/
theorem number_reads_fraction_as_zero :
    let source := "1e-400".toList
    let token : Token := ⟨.integer, 0, 7, 1⟩
    (ofSource source).next.1 = .ok token ∧
      token.text? source = some source ∧
      token.number source = .ok (.integer 0) ∧
      ¬ ∃ whole : Int, Literal.ratio source = whole := by
  intro source token
  have scanned : ((ofSource source).after 0).next.1 = .ok token := by
    decide
  have spanned : token.text? source = some source := by
    rfl
  have mantissa : Decimal.numeral (Literal.mantissaPart source) = 1 := by
    decide +kernel
  have magnitude : Literal.exponentMagnitude source = 400 := by
    decide +kernel
  have signed (magnitude : Nat) : Literal.exponentSigned source magnitude = -(magnitude : Int) :=
    if_pos (by decide +kernel)
  have ratio : Literal.ratio source = 10 ^ (-400 : Int) := by
    rw [Literal.ratio, Literal.exponent, signed, magnitude, mantissa, Nat.cast_one, one_mul]
    rfl
  have ratioRead : Literal.ratioRead source = (1 : Nat) * 10 ^ (-((400 : Nat) : Int)) := by
    rw [Literal.ratioRead, signed, magnitude, mantissa, Decimal.firstFive_of_lt (by decide)]
  have reads :=
    readsInteger_ratioRead scanned rfl spanned ⟨'4', by decide +kernel, rfl⟩ (.integer 0)
  refine ⟨scanned, spanned, reads.mpr ⟨0, ?_, rfl⟩, ?_⟩
  · have tiny := @Literal.tiny_of_scale 1 1 400 (by decide) (by decide)
    rw [ratioRead, Binary64.roundsTo_iff_of_tiny (by positivity) tiny]
    rfl
  · rintro ⟨whole, isWhole⟩
    have positive : (0 : ℚ) < whole := by
      rw [← isWhole, ratio]
      positivity
    have small : (whole : ℚ) < 1 := by
      rw [← isWhole, ratio]
      exact zpow_lt_one_of_neg₀ (by norm_num) (by decide)
    norm_cast at positive small
    omega

end Scanner

end Reckon
