import Reckon.Proofs.Token.Numbers

namespace Reckon

/-!
# Numbers that are scanned are decoded

The scanner and the decoder of literals recognize numbers each in their own way.  They agree but for
one thing: a scanned exponent need not have digits, and such a literal is refused.  Every other
literal is refused only if its value is out of range or, where an exponent makes it one, is not
whole.
-/

namespace Literal

/-- The mark of an exponent. -/
def isMark (char : Char) : Bool :=
  char = 'e' || char = 'E'

/-- A literal from the mark of its exponent on, underscores dropped. -/
def exponentPart (text : List Char) : List Char :=
  (plain text).dropWhile fun char => !isMark char

/-- The literal has an exponent. -/
def HasExponent (text : List Char) : Prop :=
  exponentPart text ≠ []

/-- The literal has an exponent without digits. -/
def HasBareExponent (text : List Char) : Prop :=
  HasExponent text ∧ ∀ char ∈ exponentPart text, Lexeme.isDigit char = false

instance : DecidablePred HasExponent :=
  fun text => inferInstanceAs (Decidable (exponentPart text ≠ []))

instance : DecidablePred HasBareExponent :=
  fun text =>
    decidable_of_iff
      (HasExponent text ∧ (exponentPart text).all (fun char => !Lexeme.isDigit char) = true)
      (by simp [HasBareExponent])

theorem isMark_eq :
    isMark = fun char => decide (char = 'e') || decide (char = 'E') :=
  rfl

/-- A digit is no mark of an exponent. -/
theorem notMark_of_isDigit
    {char : Char}
    (digit : Lexeme.isDigit char = true) :
    isMark char = false := by
  have notLower : char ≠ 'e' := by
    rintro rfl
    cases digit
  have notUpper : char ≠ 'E' := by
    rintro rfl
    cases digit
  simp [isMark, notLower, notUpper]

/-- A whole number has a value if it fits in a word, and it is that word. -/
theorem wholeValue_eq_ok_iff
    {number : Nat}
    {value : Value} :
    (if number < 0x80000000 then
        .ok (.integer (Int32.ofInt number))
      else
        .error (.number .outOfRange) : Except LiteralProblem Value) = .ok value ↔
      number ≤ 2 ^ 31 - 1 ∧ ∃ whole : Int32, whole.toInt = number ∧ value = .integer whole := by
  split
  next small =>
    have read : (Int32.ofInt number).toInt = number :=
      Int32.toInt_ofInt_of_le (by omega) (by omega)
    constructor
    · rintro ⟨⟩
      exact ⟨by omega, _, read, rfl⟩
    · rintro ⟨-, whole, same, rfl⟩
      rw [← same, Int32.ofInt_toInt]
  next large =>
    constructor
    · rintro ⟨⟩
    · rintro ⟨small, -⟩
      omega

/-- A literal with digits is decoded as its kind says, without the underscores. -/
theorem decode_of_present
    {text : List Char}
    (present : (plain text).isEmpty = false) :
    decode .integer text = integer (plain text) ∧
      decode .float text = float (plain text) ∧
      decode .complex text = imaginary (plain text) := by
  rw [plain] at present ⊢
  simp only [decode, present, Bool.false_eq_true, ↓reduceIte, and_self]

/-- A float is refused as an integer for its fraction or its range. -/
theorem problem_of_wholeNumber
    {number : Float}
    {problem : LiteralProblem}
    (failed : wholeNumber number = .error problem) :
    problem = .notWhole ∨ problem = .number .outOfRange := by
  unfold wholeNumber at failed
  repeat' split at failed
  all_goals cases failed
  all_goals simp

end Literal

namespace Decimal

/-- Scaling a number fails for its range only. -/
theorem outOfRange_of_powerRatio?
    {negative : Bool}
    {value base : Nat}
    {exponent : Int}
    {problem : Problem}
    (failed : powerRatio? negative value base exponent = .error problem) :
    problem = .outOfRange := by
  unfold powerRatio? at failed
  simp only at failed
  split at failed
  · cases failed
  · cases failed
    rfl

/-- An exponent begins with its mark. -/
theorem Exponent.isMark_mark
    (exponent : Exponent) :
    Literal.isMark exponent.mark = true := by
  simpa [Literal.isMark] using exponent.isMark

end Decimal

/-- The text of a number token is refused for its form. -/
def LiteralProblem.IsSyntactic : LiteralProblem → Prop
  | .empty | .missingImaginary | .notNumber _ | .number .invalid => True
  | .notWhole | .number .outOfRange => False

namespace Token

/-- The error for a number token whose text has no value. -/
def refusal (token : Token) (text : List Char) (problem : LiteralProblem) : LexicalError where
  line := token.line
  offset := token.start
  problem := .malformed text problem

/-- A token has the value of its literal. -/
theorem number_eq_ok_iff
    {token : Token}
    {text : List Char}
    {value : Value} :
    token.number text = .ok value ↔ Literal.decode token.kind text = .ok value := by
  unfold number
  split
  next decoded =>
    rw [decoded]
    constructor <;> rintro ⟨⟩ <;> rfl
  next decoded => simp [decoded]

/-- A token is refused for the problem of its literal. -/
theorem number_eq_error_iff
    {token : Token}
    {text : List Char}
    {error : LexicalError} :
    token.number text = .error error ↔
      ∃ problem,
        Literal.decode token.kind text = .error problem ∧ error = token.refusal text problem := by
  unfold number
  split
  next decoded => simp [decoded]
  next problem decoded =>
    rw [decoded]
    constructor
    · rintro ⟨⟩
      exact ⟨problem, rfl, rfl⟩
    · rintro ⟨_, ⟨⟩, rfl⟩
      rfl

/-- Different problems of a token are refused differently. -/
theorem refusal_injective
    {token : Token}
    {text : List Char} :
    Function.Injective (token.refusal text) := by
  intro first second same
  injection same with _ _ same
  injection same

end Token

namespace NumberParts

variable {parts : NumberParts}

/-! ### Reading -/

/-- What is read from the number up to its unit. -/
def reading (parts : NumberParts) : Except Decimal.Problem Float :=
  let places := parts.places?.getD []
  let value := Decimal.numeral (parts.whole ++ places)
  match parts.exponent? with
  | none => Decimal.powerRatio? false value 10 (-(places.length : Int))
  | some exponent =>
      if exponent.digits = [] then
        .error .invalid
      else
        Decimal.powerRatio? false value 10 (exponent.heeded + -(places.length : Int))

/-- The number has an exponent without digits. -/
def IsBare (parts : NumberParts) : Prop :=
  ∃ exponent ∈ parts.exponent?, exponent.digits = []

/-- The real part of a number is made of digits, a point, a mark and a sign. -/
theorem mem_real
    {char : Char}
    (member : char ∈ parts.real) :
    Lexeme.isDigit char = true ∨ char ∈ ['.', 'e', 'E', '+', '-'] := by
  rw [real, List.mem_append, List.mem_append] at member
  rcases member with (inWhole | inPlaces) | inExponent
  · exact Or.inl (parts.wholeDigits char inWhole)
  · cases places : parts.places? with
    | none =>
        rw [places] at inPlaces
        cases inPlaces
    | some digits =>
        rw [places, Decimal.pointed, List.mem_cons] at inPlaces
        rcases inPlaces with rfl | inDigits
        · exact Or.inr (by simp)
        · exact Or.inl (parts.placesDigits digits places char inDigits)
  · cases shape : parts.exponent? with
    | none =>
        rw [shape] at inExponent
        cases inExponent
    | some exponent =>
        rw [shape, Decimal.marked, Decimal.Exponent.text, List.mem_cons, List.mem_append]
          at inExponent
        rcases inExponent with rfl | inSign | inDigits
        · rcases exponent.isMark with mark | mark <;> simp [mark]
        · rcases exponent.isSign with sign | sign | sign <;> simp_all
        · exact Or.inl (exponent.allDigits char inDigits)

/-- A character that stands in no number up to its unit. -/
theorem ne_of_mem_real
    {char other : Char}
    (member : char ∈ parts.real)
    (noDigit : Lexeme.isDigit other = false)
    (foreign : other ∉ ['.', 'e', 'E', '+', '-']) :
    char ≠ other := by
  rintro rfl
  rcases mem_real member with digit | known
  · rw [noDigit] at digit
    cases digit
  · exact foreign known

theorem exists_real_eq
    (parts : NumberParts) :
    ∃ char rest, parts.real = char :: rest ∧ Lexeme.isDigit char = true := by
  obtain ⟨char, rest, shape⟩ := List.exists_cons_of_ne_nil parts.present
  have digit : Lexeme.isDigit char = true :=
    parts.wholeDigits char (by rw [shape]; exact List.mem_cons_self)
  exact ⟨char, _, by rw [real, shape]; rfl, digit⟩

/-- The real part of a number is read by its parts. -/
theorem fraction_real
    (parts : NumberParts) :
    Decimal.fraction parts.real = parts.reading := by
  obtain ⟨char, rest, shape, digit⟩ := parts.exists_real_eq
  have decimal :=
    Decimal.decimalFraction_eq parts.present parts.wholeDigits parts.places? parts.placesDigits
      parts.exponent?
  rw [← real] at decimal
  refine Eq.trans ?_ decimal
  rw [shape]
  refine Decimal.fraction_eq_decimalFraction digit fun other inside => ?_
  have member : other ∈ parts.real := by
    rw [shape]
    exact List.mem_cons_of_mem _ inside
  exact ⟨ne_of_mem_real member rfl (by decide), ne_of_mem_real member rfl (by decide)⟩

/-- An exponent without digits is invalid. -/
theorem reading_of_isBare
    (bare : parts.IsBare) :
    parts.reading = .error .invalid := by
  obtain ⟨exponent, shape, none⟩ := bare
  simp only [reading, Option.mem_def.mp shape, none, ↓reduceIte]

/-- A number whose exponent has digits is refused for its range only. -/
theorem outOfRange_of_reading
    (digits : ¬ parts.IsBare)
    {problem : Decimal.Problem}
    (failed : parts.reading = .error problem) :
    problem = .outOfRange := by
  unfold reading at failed
  simp only at failed
  split at failed
  next => exact Decimal.outOfRange_of_powerRatio? failed
  next exponent shape =>
    rw [if_neg fun none => digits ⟨exponent, shape, none⟩] at failed
    exact Decimal.outOfRange_of_powerRatio? failed

/-! ### Exponents -/

/-- No mark stands in front of the exponent. -/
theorem notMark_of_mem_front
    {char : Char}
    (member : char ∈ parts.whole ++ Decimal.pointed parts.places?) :
    Literal.isMark char = false := by
  rcases List.mem_append.mp member with inWhole | inPlaces
  · exact Literal.notMark_of_isDigit (parts.wholeDigits char inWhole)
  · cases shape : parts.places? with
    | none =>
        rw [shape] at inPlaces
        cases inPlaces
    | some places =>
        rw [shape, Decimal.pointed, List.mem_cons] at inPlaces
        rcases inPlaces with rfl | inDigits
        · rfl
        · exact Literal.notMark_of_isDigit (parts.placesDigits places shape char inDigits)

theorem any_isMark_real
    (parts : NumberParts) :
    parts.real.any Literal.isMark = parts.exponent?.isSome := by
  have front : (parts.whole ++ Decimal.pointed parts.places?).any Literal.isMark = false := by
    rw [List.any_eq_false]
    intro char member
    simp [notMark_of_mem_front member]
  rw [real, List.any_append, front, Bool.false_or]
  cases parts.exponent? with
  | none => rfl
  | some exponent =>
      rw [Decimal.marked, Decimal.Exponent.text, List.any_cons, exponent.isMark_mark]
      rfl

/-- The exponent of a literal is what stands from the mark on. -/
theorem exponentPart_eq
    {text : List Char}
    (shape : Literal.plain text = parts.text) :
    Literal.exponentPart text =
      match parts.exponent? with
      | none => []
      | some exponent => exponent.text ++ parts.unit?.toList := by
  have front :
      ∀ char ∈ parts.whole ++ Decimal.pointed parts.places?, (!Literal.isMark char) = true := by
    intro char member
    rw [notMark_of_mem_front member]
    rfl
  rw [Literal.exponentPart, shape, NumberParts.text, real, List.append_assoc,
    List.dropWhile_append_of_pos front]
  cases parts.exponent? with
  | none =>
      rw [Decimal.marked, List.nil_append, List.dropWhile_eq_nil_iff]
      intro unit member
      rcases parts.isUnit unit (Option.mem_toList.mp member) with rfl | rfl <;> rfl
  | some exponent =>
      have mark := exponent.isMark_mark
      rw [Decimal.marked, Decimal.Exponent.text, List.cons_append,
        List.dropWhile_cons_of_neg (by simp [mark])]
      rfl

/-- A literal has an exponent if its parts have one. -/
theorem hasExponent_iff
    {text : List Char}
    (shape : Literal.plain text = parts.text) :
    Literal.HasExponent text ↔ parts.exponent?.isSome = true := by
  rw [Literal.HasExponent, exponentPart_eq shape]
  cases parts.exponent? with
  | none => simp
  | some exponent => simp [Decimal.Exponent.text]

/-- A literal has an exponent without digits if its parts have one. -/
theorem hasBareExponent_iff
    {text : List Char}
    (shape : Literal.plain text = parts.text) :
    Literal.HasBareExponent text ↔ parts.IsBare := by
  rw [Literal.HasBareExponent, hasExponent_iff shape, exponentPart_eq shape, IsBare]
  cases parts.exponent? with
  | none => simp
  | some exponent =>
      simp only [Option.isSome_some, true_and, Option.mem_some_iff, exists_eq_left']
      constructor
      · intro noDigit
        rw [List.eq_nil_iff_forall_not_mem]
        intro char inDigits
        have digit := exponent.allDigits char inDigits
        rw [noDigit char (by simp [Decimal.Exponent.text, inDigits])] at digit
        cases digit
      · intro none char member
        rw [Decimal.Exponent.text, none, List.append_nil, List.cons_append, List.mem_cons,
          List.mem_append, Option.mem_toList] at member
        rcases member with rfl | inSign | isUnit
        · rcases exponent.isMark with mark | mark <;> rw [mark] <;> rfl
        · rcases exponent.isSign with sign | sign | sign <;> rw [sign] at inSign
          · cases inSign
          · cases List.mem_singleton.mp inSign
            rfl
          · cases List.mem_singleton.mp inSign
            rfl
        · rcases parts.isUnit char isUnit with rfl | rfl <;> rfl

/-! ### Values -/

/-- The value of the number as a literal. -/
def value (parts : NumberParts) : Except LiteralProblem Value :=
  if parts.unit?.isSome then do
    let number ← Literal.reading parts.reading
    .ok (.complex { re := 0, im := number })
  else if parts.places?.isSome then do
    let number ← Literal.reading parts.reading
    .ok (.float number)
  else if parts.exponent?.isSome then do
    let number ← Literal.reading parts.reading
    Literal.wholeNumber number
  else if Decimal.numeral parts.whole < 0x80000000 then
    .ok (.integer (Int32.ofInt (Decimal.numeral parts.whole)))
  else
    .error (.number .outOfRange)

/-- Without its unit, an imaginary number is its real part. -/
theorem dropImaginaryUnit_real
    (parts : NumberParts)
    {unit : Char}
    (isUnit : unit = 'j' ∨ unit = 'J') :
    Literal.dropImaginaryUnit (parts.real ++ [unit]) = parts.real := by
  have kept :
      parts.real.reverse.dropWhile (fun char => decide (char = 'j') || decide (char = 'J')) =
        parts.real.reverse := by
    cases shape : parts.real.reverse with
    | nil => rfl
    | cons last others =>
        have member : last ∈ parts.real := by
          rw [← List.mem_reverse, shape]
          exact List.mem_cons_self
        have notUnit : last ≠ 'j' := ne_of_mem_real member rfl (by decide)
        have notUpper : last ≠ 'J' := ne_of_mem_real member rfl (by decide)
        rw [List.dropWhile_cons_of_neg (by simp [notUnit, notUpper])]
  rw [Literal.dropImaginaryUnit, List.reverse_append, List.reverse_singleton,
    List.singleton_append, List.dropWhile_cons_of_pos (by simpa using isUnit), kept,
    List.reverse_reverse]

/-- A whole number is read as a fraction if it has an exponent, and else by its digits. -/
theorem integer_real
    (noPlaces : parts.places? = none) :
    Literal.integer parts.real =
      if parts.exponent?.isSome then do
        let number ← Literal.reading parts.reading
        Literal.wholeNumber number
      else if Decimal.numeral parts.whole < 0x80000000 then
        .ok (.integer (Int32.ofInt (Decimal.numeral parts.whole)))
      else
        .error (.number .outOfRange) := by
  unfold Literal.integer
  rw [← Literal.isMark_eq, parts.any_isMark_real, parts.fraction_real]
  cases shape : parts.exponent? with
  | some exponent => rfl
  | none =>
      have realShape : parts.real = parts.whole := by
        rw [real, noPlaces, shape]
        simp [Decimal.pointed, Decimal.marked]
      rw [realShape, Decimal.integer_digits parts.present parts.wholeDigits]
      simp only [Option.isSome_none, Bool.false_eq_true, ↓reduceIte]
      split <;> rfl

/-- A literal has the value of its parts. -/
theorem decode_eq_value
    {text : List Char}
    (shape : Literal.plain text = parts.text) :
    Literal.decode parts.kind text = parts.value := by
  obtain ⟨char, rest, realShape, -⟩ := parts.exists_real_eq
  have present : parts.real.isEmpty = false := by
    rw [realShape]
    rfl
  have plainPresent : (Literal.plain text).isEmpty = false := by
    rw [shape, NumberParts.text, realShape]
    rfl
  obtain ⟨integer, float, imaginary⟩ := Literal.decode_of_present plainPresent
  rw [shape] at integer float imaginary
  cases unitShape : parts.unit? with
  | some unit =>
      have isUnit := parts.isUnit unit unitShape
      have textShape : parts.text = parts.real ++ [unit] := by
        rw [NumberParts.text, unitShape]
        rfl
      rw [kind, value, unitShape]
      simp only [Option.isSome_some, ↓reduceIte]
      rw [imaginary, textShape, Literal.imaginary, parts.dropImaginaryUnit_real isUnit, present,
        parts.fraction_real]
      rfl
  | none =>
      have textShape : parts.text = parts.real := by
        rw [NumberParts.text, unitShape]
        exact List.append_nil _
      rw [kind, value, unitShape]
      rw [textShape] at integer float
      cases placesShape : parts.places? with
      | some places =>
          simp only [Option.isSome_none, Bool.false_eq_true, Option.isSome_some, ↓reduceIte]
          rw [float, Literal.float, parts.fraction_real]
      | none =>
          simp only [Option.isSome_none, Bool.false_eq_true, ↓reduceIte]
          rw [integer, integer_real placesShape]

/-- A number whose exponent has no digits has no value. -/
theorem value_of_isBare
    (bare : parts.IsBare) :
    parts.value = .error (.number .invalid) := by
  have refused : Literal.reading parts.reading = .error (.number .invalid) := by
    rw [reading_of_isBare bare]
    rfl
  obtain ⟨exponent, shape, -⟩ := bare
  simp only [value, refused, Option.mem_def.mp shape, Option.isSome_some, ↓reduceIte]
  split
  · rfl
  · split <;> rfl

/-- A number with digits in its exponent is refused only for its value. -/
theorem problem_of_value
    (digits : ¬ parts.IsBare)
    {problem : LiteralProblem}
    (failed : parts.value = .error problem) :
    problem = .number .outOfRange ∨
      parts.kind = .integer ∧ parts.exponent?.isSome = true ∧ problem = .notWhole := by
  have unread
      {following : Float → Except LiteralProblem Value}
      (failed : Literal.reading parts.reading >>= following = .error problem) :
      problem = .number .outOfRange ∨ ∃ number, following number = .error problem := by
    cases read : parts.reading with
    | ok number =>
        rw [read] at failed
        exact Or.inr ⟨number, failed⟩
    | error reason =>
        rw [read, outOfRange_of_reading digits read] at failed
        cases failed
        exact Or.inl rfl
  unfold value at failed
  split at failed
  next =>
    rcases unread failed with outOfRange | ⟨number, made⟩
    · exact Or.inl outOfRange
    · cases made
  next noUnit =>
    split at failed
    next =>
      rcases unread failed with outOfRange | ⟨number, made⟩
      · exact Or.inl outOfRange
      · cases made
    next noPlaces =>
      split at failed
      next exponent =>
        rcases unread failed with outOfRange | ⟨number, notWhole⟩
        · exact Or.inl outOfRange
        · rcases Literal.problem_of_wholeNumber notWhole with notWhole | outOfRange
          · exact Or.inr ⟨by rw [kind, if_neg noUnit, if_neg noPlaces], exponent, notWhole⟩
          · exact Or.inl outOfRange
      next =>
        split at failed
        · cases failed
        · cases failed
          exact Or.inl rfl

/-- An integer has neither a unit nor a fraction. -/
theorem parts_of_isInteger
    (isInteger : parts.kind = .integer) :
    parts.unit? = none ∧ parts.places? = none := by
  unfold kind at isInteger
  split at isInteger
  next => cases isInteger
  next noUnit =>
    split at isInteger
    next => cases isInteger
    next noPlaces => simpa using And.intro noUnit noPlaces

/-- An integer is its digits and an exponent. -/
theorem text_of_isInteger
    (isInteger : parts.kind = .integer) :
    parts.text = parts.whole ++ Decimal.marked parts.exponent? := by
  obtain ⟨noUnit, noPlaces⟩ := parts_of_isInteger isInteger
  simp [NumberParts.text, real, noUnit, noPlaces, Decimal.pointed]

end NumberParts

namespace Scanner

/--
A number of a source is refused for its form only if its exponent has no digits, and otherwise only
for its value.  One without a point, an exponent and a unit has the value of its digits if that is
in range.
-/
theorem number_decodes_scanned
    {source : List Char}
    {calls : Nat}
    {token : Token}
    (scanned : ((ofSource source).after calls).next.1 = .ok token)
    (isNumber : token.kind.isNumber = true) :
    ∃ text,
      token.text? source = some text ∧
        ((∃ problem : LiteralProblem,
            problem.IsSyntactic ∧ token.number text = .error (token.refusal text problem)) ↔
          Literal.HasBareExponent text) ∧
        (∀ error,
          token.number text = .error error →
            ∃ problem : LiteralProblem,
              error = token.refusal text problem ∧
                (problem.IsSyntactic ∨
                  problem = .number .outOfRange ∨
                  token.kind = .integer ∧ Literal.HasExponent text ∧ problem = .notWhole)) ∧
        (token.kind = .integer →
          ¬ Literal.HasExponent text →
            Decimal.AllDigits (Literal.plain text) ∧
              ∀ value,
                token.number text = .ok value ↔
                  Decimal.numeral (Literal.plain text) ≤ 2 ^ 31 - 1 ∧
                    ∃ whole : Int32,
                      whole.toInt = Decimal.numeral (Literal.plain text) ∧
                        value = .integer whole) := by
  obtain ⟨text, parts, spanned, shape, kind⟩ := exists_parts_of_next scanned isNumber
  have decoded := NumberParts.decode_eq_value shape
  rw [← kind] at decoded
  have bare_iff := NumberParts.hasBareExponent_iff shape
  have exponent_iff := NumberParts.hasExponent_iff shape
  refine ⟨text, spanned, ⟨?_, ?_⟩, ?_, ?_⟩
  · rintro ⟨problem, syntactic, failed⟩
    obtain ⟨same, problemDecoded, refusal⟩ := Token.number_eq_error_iff.mp failed
    cases Token.refusal_injective refusal
    by_contra notBare
    rw [decoded] at problemDecoded
    rw [bare_iff] at notBare
    rcases NumberParts.problem_of_value notBare problemDecoded with rfl | ⟨-, -, rfl⟩
    · exact syntactic
    · exact syntactic
  · intro bare
    have invalid := decoded.trans (NumberParts.value_of_isBare (bare_iff.mp bare))
    exact ⟨.number .invalid, True.intro, Token.number_eq_error_iff.mpr ⟨_, invalid, rfl⟩⟩
  · intro error failed
    obtain ⟨problem, problemDecoded, refusal⟩ := Token.number_eq_error_iff.mp failed
    refine ⟨problem, refusal, ?_⟩
    rw [decoded] at problemDecoded
    rw [exponent_iff, kind]
    by_cases bare : parts.IsBare
    · rw [NumberParts.value_of_isBare bare] at problemDecoded
      cases problemDecoded
      exact Or.inl True.intro
    · exact Or.inr (NumberParts.problem_of_value bare problemDecoded)
  · intro isInteger noExponent
    rw [kind] at isInteger
    rw [exponent_iff, Option.not_isSome_iff_eq_none] at noExponent
    obtain ⟨noUnit, noPlaces⟩ := NumberParts.parts_of_isInteger isInteger
    have plain : Literal.plain text = parts.whole := by
      rw [shape, NumberParts.text_of_isInteger isInteger, noExponent]
      exact List.append_nil _
    rw [plain]
    refine ⟨parts.wholeDigits, fun value => ?_⟩
    rw [Token.number_eq_ok_iff, decoded, NumberParts.value, noUnit, noPlaces, noExponent]
    exact Literal.wholeValue_eq_ok_iff

/-- An exponent without digits is refused, and the largest whole number is read. -/
theorem number_decodes_limits :
    let source := "2_e+_j 2_147_483_647".toList
    let bare : Token := ⟨.complex, 0, 7, 1⟩
    let largest : Token := ⟨.integer, 7, 14, 1⟩
    (ofSource source).next.1 = .ok bare ∧
      ((ofSource source).after 1).next.1 = .ok largest ∧
      (∃ problem : LiteralProblem,
        problem.IsSyntactic ∧
          bare.number "2_e+_j".toList = .error (bare.refusal "2_e+_j".toList problem)) ∧
      largest.number "2_147_483_647".toList = .ok (.integer 2147483647) := by
  have scannedBare :
      ((ofSource "2_e+_j 2_147_483_647".toList).after 0).next.1 = .ok ⟨.complex, 0, 7, 1⟩ := by
    decide
  have scannedLargest :
      ((ofSource "2_e+_j 2_147_483_647".toList).after 1).next.1 = .ok ⟨.integer, 7, 14, 1⟩ := by
    decide
  refine ⟨scannedBare, scannedLargest, ?_, ?_⟩
  · obtain ⟨text, spanned, refused_iff, -⟩ := number_decodes_scanned scannedBare rfl
    cases spanned
    exact refused_iff.mpr (by decide)
  · obtain ⟨text, spanned, -, -, plain⟩ := number_decodes_scanned scannedLargest rfl
    cases spanned
    obtain ⟨-, ok_iff⟩ := plain rfl (by decide)
    have denoted : Decimal.numeral (Literal.plain "2_147_483_647".toList) = 2147483647 := by
      decide +kernel
    refine (ok_iff _).mpr ⟨denoted.le, 2147483647, ?_, rfl⟩
    exact congrArg Nat.cast denoted.symm

end Scanner

end Reckon
