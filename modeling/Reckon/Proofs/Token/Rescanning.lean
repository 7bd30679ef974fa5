import Reckon.Proofs.Token.LongestLexeme

namespace Reckon

/-!
# Numbers are scanned again

A number is seen to end at the character behind it, and nothing further on matters.  So the span
that its token reports, the number with that one character, is scanned to the same number.
-/

namespace Lexeme

/-- The length is found from the characters that it counts and one more. -/
def LooksOneAhead (length : List Char → Nat) : Prop :=
  ∀ text count, length text < count → length (text.take count) = length text

namespace LooksOneAhead

variable {length following : List Char → Nat}

theorem runLength
    (condition : Char → Bool) :
    LooksOneAhead (Lexeme.runLength condition) := by
  intro text count enough
  induction text generalizing count with
  | nil =>
      rw [List.take_nil]
  | cons char rest inductionHypothesis =>
      obtain ⟨fewer, rfl⟩ := Nat.exists_eq_add_one_of_ne_zero (Nat.ne_zero_of_lt enough)
      simp only [Lexeme.runLength, List.take_succ_cons, List.takeWhile_cons]
        at inductionHypothesis enough ⊢
      split
      next holds =>
        rw [if_pos holds, List.length_cons] at enough
        rw [List.length_cons, List.length_cons, inductionHypothesis fewer (by omega)]
      next =>
        rfl

theorem zero :
    LooksOneAhead fun _ => 0 :=
  fun _ _ _ => rfl

/-- A mark is seen at once, and what follows it is seen from one character further on. -/
theorem behind
    (marks : Char → Bool)
    (looks : LooksOneAhead following)
    (shape :
      ∀ char rest, length (char :: rest) = if marks char then 1 + following rest else 0) :
    LooksOneAhead length := by
  intro text count enough
  cases text with
  | nil =>
      rw [List.take_nil]
  | cons char rest =>
      obtain ⟨fewer, rfl⟩ := Nat.exists_eq_add_one_of_ne_zero (Nat.ne_zero_of_lt enough)
      rw [shape] at enough
      rw [List.take_succ_cons, shape, shape]
      split
      next marked =>
        rw [if_pos marked] at enough
        rw [looks rest fewer (by omega)]
      next =>
        rfl

/-- What is measured behind a part is not changed by cutting off what neither looks at. -/
theorem drop_take
    (followingLooks : LooksOneAhead following)
    (text : List Char)
    (passed : Nat)
    {count : Nat}
    (enough : passed + following (text.drop passed) < count) :
    following ((text.take count).drop passed) = following (text.drop passed) := by
  rw [List.drop_take]
  exact followingLooks _ _ (by omega)

theorem andThen
    (looks : LooksOneAhead length)
    (followingLooks : LooksOneAhead following) :
    LooksOneAhead fun text => length text + following (text.drop (length text)) := by
  intro text count enough
  simp only at enough ⊢
  rw [looks text count (by omega), followingLooks.drop_take text _ enough]

end LooksOneAhead

theorem looksOneAhead_digits :
    LooksOneAhead (runLength isNumberPart) :=
  .runLength isNumberPart

theorem looksOneAhead_fraction :
    LooksOneAhead fractionLength :=
  .behind _ looksOneAhead_digits fractionLength_cons

theorem looksOneAhead_exponent :
    LooksOneAhead exponentLength :=
  .behind _
    (LooksOneAhead.andThen (.behind _ .zero signLength_cons) looksOneAhead_digits)
    exponentLength_cons

theorem looksOneAhead_unit :
    LooksOneAhead unitLength :=
  .behind _ .zero unitLength_cons

/-- Cutting a text off behind the character that ends its number does not change the number. -/
theorem number_take
    {text : List Char}
    {count : Nat}
    (enough : (number text).length < count) :
    number (text.take count) = number text := by
  simp only [number] at enough
  have toExponent := Nat.lt_of_le_of_lt (Nat.le_add_right _ _) enough
  have toFraction := Nat.lt_of_le_of_lt (Nat.le_add_right _ _) toExponent
  have toWhole := Nat.lt_of_le_of_lt (Nat.le_add_right _ _) toFraction
  have whole := looksOneAhead_digits text count toWhole
  have fraction := looksOneAhead_fraction.drop_take text _ toFraction
  have exponent := looksOneAhead_exponent.drop_take text _ toExponent
  have unit := looksOneAhead_unit.drop_take text _ enough
  simp only [number, whole, fraction, exponent, unit]

end Lexeme

namespace Scanner

/-- A token that is a number is that of the number at a digit of the source. -/
theorem exists_number_of_next
    {source : List Char}
    {calls : Nat}
    {token : Token}
    (scanned : ((ofSource source).after calls).next.1 = .ok token)
    (isNumber : token.kind.isNumber = true) :
    ∃ before char rest,
      source = before ++ char :: rest ∧
        Lexeme.isDigit char = true ∧
        token.kind = (Lexeme.number (char :: rest)).kind ∧
        token.start = before.length ∧
        token.length = (Lexeme.number (char :: rest)).length + 1 := by
  have passed : ∃ before, (ofSource source).Behind source before :=
    ⟨[], rfl, rfl, rfl⟩
  obtain ⟨before, behind⟩ := behind_after passed calls
  obtain ⟨shape, position, _⟩ := behind.front
  generalize (ofSource source).after calls = scanner at scanned shape position
  cases found : Lexeme.front? scanner.front.rest with
  | none =>
      rw [next_of_none found] at scanned
      simp only at scanned
      split at scanned
      · cases scanned
        cases isNumber
      · cases scanned
  | some lexeme =>
      rw [next_of_some found] at scanned
      cases scanned
      cases restShape : scanner.front.rest with
      | nil =>
          rw [restShape] at found
          cases found
      | cons char rest =>
          rw [restShape] at found shape
          have digit := Lexeme.isDigit_of_front? found isNumber
          rw [Lexeme.front?, if_pos digit] at found
          cases found
          refine ⟨_, char, rest, shape, digit, rfl, ?_, rfl⟩
          rw [token, position]

/-- The token of a number spans it. -/
theorem spans_number
    {before text : List Char}
    {length : Nat}
    (bounded : length ≤ text.length)
    {token : Token}
    (isNumber : token.kind.isNumber = true)
    (start : token.start = before.length)
    (reported : token.length = length + 1) :
    token.Spans (before ++ text) (text.take length) := by
  refine ⟨before, text.drop length, ?_, start, ?_⟩
  · rw [List.append_assoc, List.take_append_drop]
  · rw [Token.stop, if_pos isNumber, start, reported, List.length_take_of_le bounded]
    omega

/-- A text that starts with a digit is scanned to a number first. -/
theorem next_ofSource_of_isDigit
    {char : Char}
    (digit : Lexeme.isDigit char = true)
    (rest : List Char) :
    (ofSource (char :: rest)).next.1 =
      .ok ((ofSource (char :: rest)).token (Lexeme.number (char :: rest))) := by
  have solid : Lexeme.isBlank char = false := by
    by_contra blankIs
    have noDigit : Lexeme.isDigit char = false :=
      Lexeme.eq_false_of_isBlank (by decide) (by simpa using blankIs)
    rw [digit] at noDigit
    cases noDigit
  have front : (ofSource (char :: rest)).front = ofSource (char :: rest) := by
    rw [Scanner.front, ofSource, skipBlanks, solid, if_neg Bool.false_ne_true]
  have found :
      Lexeme.front? (ofSource (char :: rest)).front.rest =
        some (Lexeme.number (char :: rest)) := by
    rw [front, ofSource, Lexeme.front?, if_pos digit]
  rw [next_of_some found, front]

/--
The span that the token of a number reports, cut off at the end of the source, is scanned to a
token of the same kind, length and text at its start.
-/
theorem next_rescans_number
    {source : List Char}
    {calls : Nat}
    {token : Token}
    (scanned : ((ofSource source).after calls).next.1 = .ok token)
    (isNumber : token.kind.isNumber = true) :
    ∃ start length : Nat,
      token.start = start ∧
        token.length = length ∧
        let span := (source.drop start).take length
        let again : Token := { token with start := 0, line := 1 }
        (ofSource span).next.1 = .ok again ∧
          ∃ text, token.text? source = some text ∧ again.text? span = some text := by
  obtain ⟨before, char, rest, rfl, digit, kind, start, reported⟩ :=
    exists_number_of_next scanned isNumber
  generalize lexemeShape : Lexeme.number (char :: rest) = lexeme at kind reported
  have bounded : lexeme.length ≤ (char :: rest).length := by
    rw [← lexemeShape]
    exact (Lexeme.length_number digit rest).2
  have same : Lexeme.number ((char :: rest).take (lexeme.length + 1)) = lexeme := by
    rw [← lexemeShape]
    exact Lexeme.number_take (Nat.lt_succ_self _)
  refine ⟨before.length, lexeme.length + 1, start, reported, ?_⟩
  simp only [List.drop_left]
  refine ⟨?_, _, (spans_number bounded isNumber start reported).text?_eq, ?_⟩
  · rw [List.take_succ_cons] at same ⊢
    have counted : (lexeme.reported : Int) = token.length := by
      rw [reported, ← lexemeShape]
      rfl
    rw [next_ofSource_of_isDigit digit, same, Scanner.token, counted, kind]
    rfl
  · have inSpan : lexeme.length ≤ ((char :: rest).take (lexeme.length + 1)).length := by
      rw [List.length_take]
      omega
    have spans :
        Token.Spans { token with start := 0, line := 1 }
          ([] ++ (char :: rest).take (lexeme.length + 1)) _ :=
      spans_number inSpan isNumber rfl reported
    rw [List.take_take, Nat.min_eq_left (Nat.le_succ _)] at spans
    exact spans.text?_eq

/-- A point and an exponent without digits are scanned again, the blank behind them included. -/
theorem next_rescans_bareExponent :
    let source := " (1_0.e+j )".toList
    let token : Token := ⟨.complex, 2, 8, 1⟩
    ((ofSource source).after 1).next.1 = .ok token ∧
      (ofSource "1_0.e+j ".toList).next.1 = .ok ⟨.complex, 0, 8, 1⟩ := by
  have scanned :
      ((ofSource " (1_0.e+j )".toList).after 1).next.1 = .ok ⟨.complex, 2, 8, 1⟩ := by
    decide
  refine ⟨scanned, ?_⟩
  obtain ⟨start, length, startShape, lengthShape, again, _⟩ := next_rescans_number scanned rfl
  cases startShape
  cases lengthShape
  exact again

end Scanner

end Reckon
