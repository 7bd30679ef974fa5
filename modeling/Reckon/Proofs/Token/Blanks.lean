import Reckon.Proofs.Token.Lexemes

namespace Reckon

/-!
# Lexemes end at blanks

A lexeme lies in the text that it is found at the front of.  There is no blank in it, and what
stands behind a blank does not matter for it.
-/

namespace Forest

variable {α : Type}

/-- The characters that the trees of a forest branch on. -/
def labels : Forest α → List Char
  | .empty => []
  | .tree char _ below beside => char :: (below.labels ++ beside.labels)

/-- A character that leads to a tree is a label, and so are the labels below. -/
theorem mem_labels_of_child?
    {forest : Forest α}
    {char : Char}
    {child : Trie α}
    (found : forest.child? char = some child) :
    char ∈ forest.labels ∧ child.below.labels ⊆ forest.labels := by
  induction forest with
  | empty =>
      cases found
  | tree label kind? below beside _ besideHypothesis =>
      rw [child?] at found
      split at found
      next same =>
        cases found
        simp [labels, same]
      next =>
        obtain ⟨isLabel, labelsBelow⟩ := besideHypothesis found
        simp only [labels]
        constructor
        · exact List.mem_cons_of_mem _ (List.mem_append_right _ isLabel)
        · intro other member
          exact List.mem_cons_of_mem _ (List.mem_append_right _ (labelsBelow member))

end Forest

namespace Trie

variable
  {α : Type}
  {trie : Trie α}
  {depth : Nat}
  {best : Option (α × Nat)}

/-- A search stops at a character that is no label. -/
theorem deepest_append
    {blank : Char}
    (unlabelled : blank ∉ trie.below.labels)
    (text more : List Char) :
    trie.deepest depth best (text ++ blank :: more) = trie.deepest depth best text := by
  induction text generalizing trie depth best with
  | nil =>
      rw [List.nil_append, deepest, deepest]
      split
      next => rfl
      next child reached => exact (unlabelled (Forest.mem_labels_of_child? reached).1).elim
  | cons char rest inductionHypothesis =>
      rw [List.cons_append, deepest, deepest]
      cases reached : trie.child? char with
      | none =>
          rfl
      | some child =>
          refine inductionHypothesis fun isLabel => unlabelled ?_
          exact (Forest.mem_labels_of_child? reached).2 isLabel

/-- What a search finds was known before, or ends in the part of the text that was searched. -/
theorem length_of_deepest
    {text : List Char}
    {kind : α}
    {length : Nat}
    (found : trie.deepest depth best text = some (kind, length)) :
    best = some (kind, length) ∨ depth < length ∧ length ≤ depth + text.length := by
  induction text generalizing trie depth best with
  | nil =>
      exact Or.inl found
  | cons char rest inductionHypothesis =>
      rw [deepest] at found
      split at found
      next =>
        exact Or.inl found
      next child reached =>
        rw [List.length_cons]
        rcases inductionHypothesis found with known | inRest
        · split at known
          next =>
            cases known
            exact Or.inr (by omega)
          next =>
            exact Or.inl known
        · exact Or.inr (by omega)

/-- A lexeme in a text is not empty and not longer than the text. -/
theorem length_of_longestMatch
    {text : List Char}
    {kind : α}
    {length : Nat}
    (found : trie.longestMatch text = some (kind, length)) :
    0 < length ∧ length ≤ text.length := by
  rcases length_of_deepest found with known | inText
  · cases known
  · omega

end Trie

namespace Lexeme

/-- A condition fails of each of the four blanks. -/
def refusesBlanks (condition : Char → Bool) : Bool :=
  [' ', '\t', '\r', '\n'].all fun blank => !condition blank

/-- A condition that refuses blanks does not hold of any. -/
theorem eq_false_of_isBlank
    {condition : Char → Bool}
    (refuses : refusesBlanks condition = true)
    {blank : Char}
    (blankIs : isBlank blank = true) :
    condition blank = false := by
  have member : blank ∈ [' ', '\t', '\r', '\n'] := by
    simpa [isBlank, or_assoc] using blankIs
  simpa using List.all_eq_true.mp refuses blank member

/-- The length of something at the front of a text that a blank ends. -/
structure EndsAtBlank (length : List Char → Nat) : Prop where
  le_length : ∀ text, length text ≤ text.length
  append :
    ∀ text blank more,
      isBlank blank = true →
      length (text ++ blank :: more) = length text

namespace EndsAtBlank

variable {length following : List Char → Nat}

/-- A run of characters that are not blank ends at a blank. -/
theorem runLength
    {condition : Char → Bool}
    (refuses : refusesBlanks condition = true) :
    EndsAtBlank (Lexeme.runLength condition) where
  le_length text :=
    (List.takeWhile_prefix condition).length_le
  append text blank more blankIs := by
    induction text with
    | nil =>
        simp [Lexeme.runLength, eq_false_of_isBlank refuses blankIs]
    | cons char rest inductionHypothesis =>
        simp only [Lexeme.runLength, List.cons_append, List.takeWhile_cons]
          at inductionHypothesis ⊢
        split
        · rw [List.length_cons, List.length_cons, inductionHypothesis]
        · rfl

theorem zero :
    EndsAtBlank fun _ => 0 where
  le_length _ := Nat.zero_le _
  append _ _ _ _ := rfl

/-- A mark and what follows it end at a blank, unless a blank is a mark. -/
theorem behind
    (marks : Char → Bool)
    (refuses : refusesBlanks marks = true)
    (endsAtBlank : EndsAtBlank following)
    (empty : length [] = 0)
    (shape :
      ∀ char rest, length (char :: rest) = if marks char then 1 + following rest else 0) :
    EndsAtBlank length where
  le_length text := by
    cases text with
    | nil =>
        simp [empty]
    | cons char rest =>
        have bound := endsAtBlank.le_length rest
        rw [shape, List.length_cons]
        split <;> omega
  append text blank more blankIs := by
    cases text with
    | nil =>
        simp [empty, shape, eq_false_of_isBlank refuses blankIs]
    | cons char rest =>
        rw [List.cons_append, shape, shape, endsAtBlank.append rest blank more blankIs]

/-- What is measured behind a part that ends at a blank is not changed by more text. -/
theorem drop_append
    (endsAtBlank : EndsAtBlank length)
    (followingEnds : EndsAtBlank following)
    (text : List Char)
    {blank : Char}
    (blankIs : isBlank blank = true)
    (more : List Char) :
    following ((text ++ blank :: more).drop (length text)) =
      following (text.drop (length text)) := by
  rw [List.drop_append_of_le_length (endsAtBlank.le_length text),
    followingEnds.append _ _ _ blankIs]

/-- Two parts of which each ends at a blank end there together. -/
theorem andThen
    (endsAtBlank : EndsAtBlank length)
    (followingEnds : EndsAtBlank following) :
    EndsAtBlank fun text => length text + following (text.drop (length text)) where
  le_length text := by
    have first := endsAtBlank.le_length text
    have second := followingEnds.le_length (text.drop (length text))
    rw [List.length_drop] at second
    omega
  append text blank more blankIs := by
    rw [endsAtBlank.append text blank more blankIs,
      endsAtBlank.drop_append followingEnds text blankIs]

end EndsAtBlank

theorem endsAtBlank_digits :
    EndsAtBlank (runLength isNumberPart) :=
  .runLength (by decide)

/-- A fraction is a point with the digits behind it. -/
theorem fractionLength_cons
    (char : Char)
    (rest : List Char) :
    fractionLength (char :: rest) =
      if decide (char = '.') then 1 + runLength isNumberPart rest else 0 := by
  unfold fractionLength
  grind

theorem signLength_cons
    (char : Char)
    (rest : List Char) :
    signLength (char :: rest) = if char = '+' || char = '-' then 1 + 0 else 0 := by
  unfold signLength
  grind

/-- An exponent is its mark, a sign and the digits behind them. -/
theorem exponentLength_cons
    (char : Char)
    (rest : List Char) :
    exponentLength (char :: rest) =
      if char = 'e' || char = 'E' then
        1 + (signLength rest + runLength isNumberPart (rest.drop (signLength rest)))
      else
        0 := by
  unfold exponentLength
  grind

theorem unitLength_cons
    (char : Char)
    (rest : List Char) :
    unitLength (char :: rest) = if char = 'j' || char = 'J' then 1 + 0 else 0 := by
  unfold unitLength
  grind

theorem endsAtBlank_fraction :
    EndsAtBlank fractionLength :=
  .behind _ (by decide) endsAtBlank_digits rfl fractionLength_cons

theorem endsAtBlank_sign :
    EndsAtBlank signLength :=
  .behind _ (by decide) .zero rfl signLength_cons

theorem endsAtBlank_exponent :
    EndsAtBlank exponentLength :=
  .behind _ (by decide) (endsAtBlank_sign.andThen endsAtBlank_digits) rfl exponentLength_cons

theorem endsAtBlank_unit :
    EndsAtBlank unitLength :=
  .behind _ (by decide) .zero rfl unitLength_cons

/-- A number ends at a blank. -/
theorem number_append
    (text : List Char)
    {blank : Char}
    (blankIs : isBlank blank = true)
    (more : List Char) :
    number (text ++ blank :: more) = number text := by
  have toFraction := endsAtBlank_digits.andThen endsAtBlank_fraction
  have toExponent := toFraction.andThen endsAtBlank_exponent
  have whole := endsAtBlank_digits.append text blank more blankIs
  have fraction := endsAtBlank_digits.drop_append endsAtBlank_fraction text blankIs more
  have exponent := toFraction.drop_append endsAtBlank_exponent text blankIs more
  have unit := toExponent.drop_append endsAtBlank_unit text blankIs more
  simp only [number, whole, fraction, exponent, unit]

/-- A number is not empty and not longer than the text that it starts. -/
theorem length_number
    {char : Char}
    (digit : isDigit char = true)
    (rest : List Char) :
    0 < (number (char :: rest)).length ∧
      (number (char :: rest)).length ≤ (char :: rest).length := by
  have toUnit :=
    ((endsAtBlank_digits.andThen endsAtBlank_fraction).andThen endsAtBlank_exponent).andThen
      endsAtBlank_unit
  have first : 0 < runLength isNumberPart (char :: rest) := by
    simp [runLength, isNumberPart, digit]
  refine ⟨?_, toUnit.le_length (char :: rest)⟩
  simp only [number]
  omega

/-- No reserved word has a blank in it. -/
theorem keywords_unblank :
    (keywords.below.labels.all fun char => !isBlank char) = true := by
  decide

/-- No operator has a blank in it. -/
theorem operators_unblank :
    (operators.below.labels.all fun char => !isBlank char) = true := by
  decide

section Blanks

variable
  {blank : Char}
  (blankIs : isBlank blank = true)

include blankIs

/-- A match in a table without blanks is not changed by what stands behind a blank. -/
theorem longestMatch_append
    {trie : Trie TokenKind}
    (unblank : (trie.below.labels.all fun char => !isBlank char) = true)
    (text more : List Char) :
    trie.longestMatch (text ++ blank :: more) = trie.longestMatch text := by
  refine Trie.deepest_append (fun isLabel => ?_) text more
  have notBlank := List.all_eq_true.mp unblank blank isLabel
  simp [blankIs] at notBlank

/-- A word is not changed by what stands behind a blank. -/
theorem word_append
    (text more : List Char) :
    word (text ++ blank :: more) = word text := by
  have letters : EndsAtBlank (runLength isWordPart) :=
    .runLength (by decide)
  simp only [word, letters.append text blank more blankIs,
    longestMatch_append blankIs keywords_unblank text more]

/-- An operator is not changed by what stands behind a blank. -/
theorem operator?_append
    (text more : List Char) :
    operator? (text ++ blank :: more) = operator? text := by
  simp only [operator?, longestMatch_append blankIs operators_unblank text more]

/-- The lexeme at the front of a text is not changed by what stands behind a blank. -/
theorem front?_append
    (text more : List Char) :
    front? (text ++ blank :: more) = front? text := by
  cases text with
  | nil =>
      have noDigit : isDigit blank = false :=
        eq_false_of_isBlank (by decide) blankIs
      have noLetter : isLetter blank = false :=
        eq_false_of_isBlank (by decide) blankIs
      have noOperator := operator?_append blankIs [] more
      rw [List.nil_append] at noOperator ⊢
      simp only [front?, noDigit, noLetter, Bool.false_eq_true, ↓reduceIte, noOperator]
      rfl
  | cons char rest =>
      have asNumber := number_append (char :: rest) blankIs more
      have asWord := word_append blankIs (char :: rest) more
      have asOperator := operator?_append blankIs (char :: rest) more
      rw [List.cons_append] at asNumber asWord asOperator ⊢
      simp only [front?, asNumber, asWord, asOperator]

end Blanks

/-- What holds of each lexeme at the front of a text. -/
structure LiesIn (lexeme : Lexeme) (text : List Char) : Prop where
  pos : 0 < lexeme.length
  le_length : lexeme.length ≤ text.length
  reported : lexeme.reported = if lexeme.kind.isNumber then lexeme.length + 1 else lexeme.length
  goesOn : lexeme.kind ≠ .endOfInput

/-- A number lies in the text that it begins. -/
theorem liesIn_number
    {char : Char}
    (digit : isDigit char = true)
    (rest : List Char) :
    (number (char :: rest)).LiesIn (char :: rest) := by
  obtain ⟨pos, bounded⟩ := length_number digit rest
  have isNumber : (number (char :: rest)).kind.isNumber = true := by
    simp only [number]
    split
    · rfl
    · split <;> rfl
  refine ⟨pos, bounded, by rw [isNumber]; rfl, fun ends => ?_⟩
  rw [ends] at isNumber
  cases isNumber

/-- A word or an operator reports its length. -/
theorem liesIn_plain
    {text : List Char}
    {kind : TokenKind}
    {length : Nat}
    (plain : kind.isNumber = false ∧ kind ≠ .endOfInput)
    (bounds : 0 < length ∧ length ≤ text.length) :
    LiesIn { kind := kind, length := length, reported := length } text where
  pos := bounds.1
  le_length := bounds.2
  reported := by simp [plain.1]
  goesOn := plain.2

/-- No keyword is a number or the end of the input. -/
theorem plain_keywords :
    keywords.below.Only fun kind => kind.isNumber = false ∧ kind ≠ .endOfInput := by
  unfold keywords
  apply Trie.only_ofList
  · decide
  · decide

theorem plain_operators :
    operators.below.Only fun kind => kind.isNumber = false ∧ kind ≠ .endOfInput := by
  unfold operators
  apply Trie.only_ofList
  · decide
  · decide

theorem liesIn_word
    {char : Char}
    (letter : isLetter char = true)
    (rest : List Char) :
    (word (char :: rest)).LiesIn (char :: rest) := by
  have letters : EndsAtBlank (runLength isWordPart) :=
    .runLength (by decide)
  have bounds :
      0 < runLength isWordPart (char :: rest) ∧
        runLength isWordPart (char :: rest) ≤ (char :: rest).length :=
    ⟨by simp [runLength, isWordPart, letter], letters.le_length (char :: rest)⟩
  unfold word
  simp only
  split
  next kind spanned matched =>
    split
    · exact liesIn_plain (Trie.admissible_of_longestMatch plain_keywords matched)
        (Trie.length_of_longestMatch matched)
    · exact liesIn_plain (by decide) bounds
  next =>
    exact liesIn_plain (by decide) bounds

theorem liesIn_operator
    {text : List Char}
    {lexeme : Lexeme}
    (found : operator? text = some lexeme) :
    lexeme.LiesIn text := by
  rw [operator?, Option.map_eq_some_iff] at found
  obtain ⟨⟨kind, length⟩, matched, rfl⟩ := found
  exact liesIn_plain (Trie.admissible_of_longestMatch plain_operators matched)
    (Trie.length_of_longestMatch matched)

/-- A lexeme lies in the text that it begins. -/
theorem liesIn_of_front?
    {text : List Char}
    {lexeme : Lexeme}
    (found : front? text = some lexeme) :
    lexeme.LiesIn text := by
  cases text with
  | nil =>
      cases found
  | cons char rest =>
      rw [front?] at found
      split at found
      next digit =>
        cases found
        exact liesIn_number digit rest
      next =>
        split at found
        next letter =>
          cases found
          exact liesIn_word letter rest
        next =>
          exact liesIn_operator found

/--
There is no blank in a lexeme.  It would be one of the text before the blank, and so would end
before it.
-/
theorem isBlank_of_mem_take
    {text : List Char}
    {lexeme : Lexeme}
    (found : front? text = some lexeme)
    {char : Char}
    (member : char ∈ text.take lexeme.length) :
    isBlank char = false := by
  cases blankIs : isBlank char with
  | false =>
      rfl
  | true =>
      obtain ⟨before, after, shape⟩ := List.append_of_mem member
      have split : text = before ++ char :: (after ++ text.drop lexeme.length) := by
        rw [← List.cons_append, ← List.append_assoc, ← shape, List.take_append_drop]
      rw [split, front?_append blankIs] at found
      have inBefore := (liesIn_of_front? found).le_length
      have cut := congrArg List.length shape
      simp only [List.length_take, List.length_append, List.length_cons] at cut
      omega

end Lexeme

end Reckon
