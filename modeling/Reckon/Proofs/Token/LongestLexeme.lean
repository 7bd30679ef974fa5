import Reckon.Proofs.Token.Languages
import Reckon.Proofs.Token.Tiling
import Reckon.Proofs.Trie

namespace Reckon

open scoped Computability

/-!
# The longest lexeme is taken

The first character of a lexeme tells which language it is of, and the scanner takes the longest
text of that language.  A word is reserved only if all of it is a reserved word.
-/

namespace Lexeme

/-! ### Words and operators -/

theorem takes_wordParts :
    Takes
      (runLength isWordPart)
      (one (letters ∪ digits))∗
      (letters ∪ digits)
      (letters ∪ digits) :=
  .runLength isWordPart_iff

/-- A word is made of letters and digits. -/
theorem mem_kstar_of_mem_words
    {text : List Char}
    (member : text ∈ words) :
    text ∈ (one (letters ∪ digits))∗ := by
  obtain ⟨first, isLetter, rest, isRest, rfl⟩ := mem_one_mul_iff.mp member
  rw [mem_kstar_one_iff] at isRest ⊢
  exact List.forall_mem_cons.mpr ⟨Or.inl isLetter, isRest⟩

/-- The trie of keywords holds the keywords of the table. -/
theorem find?_keywords_eq_some_iff
    {text : List Char}
    {kind : TokenKind} :
    keywords.find? text = some kind ↔ (String.ofList text, kind) ∈ TokenKind.keywords :=
  Trie.find?_ofList_eq_some_iff (by decide)

theorem find?_operators_eq_some_iff
    {text : List Char}
    {kind : TokenKind} :
    operators.find? text = some kind ↔ (String.ofList text, kind) ∈ TokenKind.operators :=
  Trie.find?_ofList_eq_some_iff (by decide)

/-- Reserved words are made of the characters of words. -/
theorem length_le_runLength_of_reserved
    {text part : List Char}
    {kind : TokenKind}
    (front : part <+: text)
    (reserved : (String.ofList part, kind) ∈ TokenKind.keywords) :
    part.length ≤ runLength isWordPart text := by
  have made :
      (TokenKind.keywords.all fun entry => entry.1.toList.all isWordPart) = true := by
    decide
  have isPart := List.all_eq_true.mp made _ reserved
  rw [String.toList_ofList, List.all_eq_true] at isPart
  refine takes_wordParts.longest text part front (mem_kstar_one_iff.mpr ?_)
  exact fun char inside => (isWordPart_iff char).mp (isPart char inside)

/-- A word is measured as one, and it is reserved if all of it is a reserved word. -/
theorem spells_word
    {char : Char}
    (letter : isLetter char = true)
    (rest : List Char) :
    (word (char :: rest)).length = runLength isWordPart (char :: rest) ∧
      Spells ((char :: rest).take (word (char :: rest)).length) (word (char :: rest)).kind := by
  have part : isWordPart char = true := by
    simp [isWordPart, letter]
  have isWord : (char :: rest).take (runLength isWordPart (char :: rest)) ∈ words := by
    rw [runLength, List.takeWhile_cons_of_pos part, List.length_cons, List.take_succ_cons, words,
      mem_one_mul_iff]
    exact ⟨char, (isLetter_iff char).mp letter, _, takes_wordParts.member rest, rfl⟩
  have present : (char :: rest).take (runLength isWordPart (char :: rest)) ≠ [] := by
    rw [takes_wordParts.take_ne_nil_iff, runLength, List.takeWhile_cons_of_pos part]
    exact Nat.succ_pos _
  have taken := List.length_take_of_le (takes_wordParts.le_length (char :: rest))
  generalize char :: rest = text at isWord present taken ⊢
  unfold word
  simp only
  split
  next kind spanned matched =>
    have longest := Trie.findsLongest_of_longestMatch matched
    have reserved := find?_keywords_eq_some_iff.mp longest.found
    have bounded := (Trie.length_of_longestMatch matched).2
    have inWord := length_le_runLength_of_reserved longest.front reserved
    rw [List.length_take_of_le bounded] at inWord
    split
    next spans =>
      obtain rfl := Nat.le_antisymm inWord spans
      exact ⟨rfl, .keyword isWord reserved⟩
    next short =>
      refine ⟨rfl, .identifier isWord ?_⟩
      rintro ⟨other, reservedToo⟩
      have found := find?_keywords_eq_some_iff.mpr reservedToo
      have bound := longest.longest _ (List.take_prefix _ _) (by rw [found]; rfl)
      rw [taken, List.length_take_of_le bounded] at bound
      exact short bound
  next unmatched =>
    refine ⟨rfl, .identifier isWord ?_⟩
    rintro ⟨kind, reserved⟩
    have missing := Trie.findsNone_of_longestMatch unmatched _ (List.take_prefix _ _) present
    rw [find?_keywords_eq_some_iff.mpr reserved] at missing
    cases missing

/-- No word at the front of a text is longer than the one that is taken. -/
theorem length_le_word
    {char : Char}
    (letter : isLetter char = true)
    {rest part : List Char}
    (front : part <+: char :: rest)
    (member : part ∈ words) :
    part.length ≤ (word (char :: rest)).length := by
  rw [(spells_word letter rest).1]
  exact takes_wordParts.longest _ part front (mem_kstar_of_mem_words member)

/-- An operator that is taken is spelled by the front of the text. -/
theorem spells_operator
    {text : List Char}
    {lexeme : Lexeme}
    (found : operator? text = some lexeme) :
    Spells (text.take lexeme.length) lexeme.kind := by
  rw [operator?, Option.map_eq_some_iff] at found
  obtain ⟨⟨kind, length⟩, matched, rfl⟩ := found
  exact .operator (find?_operators_eq_some_iff.mp (Trie.findsLongest_of_longestMatch matched).found)

/-- No operator at the front of a text is longer than the one that is taken. -/
theorem length_le_operator
    {text part : List Char}
    {lexeme : Lexeme}
    (found : operator? text = some lexeme)
    (front : part <+: text)
    (member : part ∈ listed TokenKind.operators) :
    part.length ≤ lexeme.length := by
  rw [operator?, Option.map_eq_some_iff] at found
  obtain ⟨⟨kind, length⟩, matched, rfl⟩ := found
  obtain ⟨other, entry⟩ := member
  have longest := Trie.findsLongest_of_longestMatch matched
  have bound := longest.longest part front (by rw [find?_operators_eq_some_iff.mpr entry]; rfl)
  rwa [List.length_take_of_le (Trie.length_of_longestMatch matched).2] at bound

/-! ### The lexeme at the front -/

theorem not_mem_letters_of_mem_digits
    {char : Char}
    (digit : char ∈ digits) :
    char ∉ letters := by
  rintro ((lower | upper) | rfl)
  · exact absurd (lower.1.trans digit.2) (by decide)
  · exact absurd (upper.1.trans digit.2) (by decide)
  · simp [digits] at digit

/-- Whether a text starts with a digit, and whether with a letter. -/
def lead? (text : List Char) : Option (Bool × Bool) :=
  text.head?.map fun char => (isDigit char, isLetter char)

/-- A number begins with a digit. -/
theorem lead?_of_mem_numbers
    {text : List Char}
    (member : text ∈ numbers) :
    lead? text = some (true, false) := by
  simp only [numbers, mul_assoc] at member
  obtain ⟨first, digit, rest, _, rfl⟩ := mem_one_mul_iff.mp member
  have noLetter : isLetter first = false := by
    rw [Bool.eq_false_iff, ne_eq, isLetter_iff]
    exact not_mem_letters_of_mem_digits digit
  simp [lead?, (isDigit_iff first).mpr digit, noLetter]

theorem lead?_of_mem_words
    {text : List Char}
    (member : text ∈ words) :
    lead? text = some (false, true) := by
  obtain ⟨first, letter, rest, _, rfl⟩ := mem_one_mul_iff.mp member
  have noDigit : isDigit first = false := by
    rw [Bool.eq_false_iff, ne_eq, isDigit_iff]
    exact fun digit => not_mem_letters_of_mem_digits digit letter
  simp [lead?, (isLetter_iff first).mpr letter, noDigit]

theorem lead?_of_mem_operators
    {text : List Char}
    (member : text ∈ listed TokenKind.operators) :
    lead? text = some (false, false) := by
  obtain ⟨kind, entry⟩ := member
  have leads :
      (TokenKind.operators.all fun entry =>
        decide (lead? entry.1.toList = some (false, false))) = true := by
    decide
  have led := List.all_eq_true.mp leads _ entry
  rwa [String.toList_ofList, decide_eq_true_eq] at led

/-- The first character of a lexeme tells which language it is of. -/
theorem cases_of_mem_lexemes
    {char : Char}
    {rest part : List Char}
    (front : part <+: char :: rest)
    (member : part ∈ lexemes) :
    isDigit char = true ∧ part ∈ numbers ∨
      isDigit char = false ∧ isLetter char = true ∧ part ∈ words ∨
        isDigit char = false ∧ isLetter char = false ∧ part ∈ listed TokenKind.operators := by
  have leads {digit letter : Bool} (led : lead? part = some (digit, letter)) :
      isDigit char = digit ∧ isLetter char = letter := by
    cases part with
    | nil =>
        cases led
    | cons first more =>
        obtain ⟨rfl, _⟩ := List.cons_prefix_cons.mp front
        simpa [lead?] using led
  rw [lexemes, Language.mem_add, Language.mem_add] at member
  rcases member with (isNumber | isWord) | isOperator
  · obtain ⟨digit, _⟩ := leads (lead?_of_mem_numbers isNumber)
    exact Or.inl ⟨digit, isNumber⟩
  · obtain ⟨noDigit, letter⟩ := leads (lead?_of_mem_words isWord)
    exact Or.inr (Or.inl ⟨noDigit, letter, isWord⟩)
  · obtain ⟨noDigit, noLetter⟩ := leads (lead?_of_mem_operators isOperator)
    exact Or.inr (Or.inr ⟨noDigit, noLetter, isOperator⟩)

/-- What is spelled is a lexeme. -/
theorem Spells.mem_lexemes
    {text : List Char}
    {kind : TokenKind}
    (spells : Spells text kind) :
    text ∈ lexemes := by
  rw [lexemes, Language.mem_add, Language.mem_add]
  cases spells with
  | number member => exact Or.inl (Or.inl member)
  | keyword member _ => exact Or.inl (Or.inr member)
  | identifier member _ => exact Or.inl (Or.inr member)
  | operator entry => exact Or.inr ⟨_, entry⟩

/-- The text is the longest lexeme at the front of what remains. -/
structure IsLongest (text remaining : List Char) : Prop where
  front : text <+: remaining
  present : text ≠ []
  member : text ∈ lexemes
  longest : ∀ other, other <+: remaining → other ∈ lexemes → other.length ≤ text.length

/-- What is scanned at the front of a text is the longest lexeme there. -/
theorem isLongest_of_front?
    {text : List Char}
    {lexeme : Lexeme}
    (found : front? text = some lexeme) :
    IsLongest (text.take lexeme.length) text ∧ Spells (text.take lexeme.length) lexeme.kind := by
  obtain ⟨pos, bounded, _, _⟩ := liesIn_of_front? found
  have taken := List.length_take_of_le bounded
  have present : text.take lexeme.length ≠ [] := by
    rwa [← List.length_pos_iff, taken]
  suffices
      Spells (text.take lexeme.length) lexeme.kind ∧
        ∀ other, other <+: text → other ∈ lexemes → other.length ≤ lexeme.length by
    obtain ⟨spells, longest⟩ := this
    refine ⟨⟨List.take_prefix _ _, present, spells.mem_lexemes, ?_⟩, spells⟩
    rwa [taken]
  cases text with
  | nil =>
      cases found
  | cons char rest =>
      rw [front?] at found
      split at found
      next digit =>
        obtain rfl := Option.some.inj found
        refine ⟨spells_number digit rest, fun other front member => ?_⟩
        rcases cases_of_mem_lexemes front member with ⟨_, isNumber⟩ | ⟨noDigit, _⟩ | ⟨noDigit, _⟩
        · exact length_le_number front isNumber
        · simp [digit] at noDigit
        · simp [digit] at noDigit
      next noDigit =>
        split at found
        next letter =>
          obtain rfl := Option.some.inj found
          refine ⟨(spells_word letter rest).2, fun other front member => ?_⟩
          rcases cases_of_mem_lexemes front member with
            ⟨digit, _⟩ | ⟨_, _, isWord⟩ | ⟨_, noLetter, _⟩
          · exact (noDigit digit).elim
          · exact length_le_word letter front isWord
          · simp [letter] at noLetter
        next noLetter =>
          refine ⟨spells_operator found, fun other front member => ?_⟩
          rcases cases_of_mem_lexemes front member with
            ⟨digit, _⟩ | ⟨_, letter, _⟩ | ⟨_, _, isOperator⟩
          · exact (noDigit digit).elim
          · exact (noLetter letter).elim
          · exact length_le_operator found front isOperator

/-- Nothing is scanned only if there is no lexeme at the front. -/
theorem not_mem_lexemes_of_front?
    {text part : List Char}
    (missing : front? text = none)
    (front : part <+: text)
    (present : part ≠ []) :
    part ∉ lexemes := by
  intro member
  cases text with
  | nil =>
      exact present (List.prefix_nil.mp front)
  | cons char rest =>
      rw [front?] at missing
      split at missing
      next => cases missing
      next noDigit =>
        split at missing
        next => cases missing
        next noLetter =>
          rcases cases_of_mem_lexemes front member with
            ⟨digit, _⟩ | ⟨_, letter, _⟩ | ⟨_, _, kind, entry⟩
          · exact noDigit digit
          · exact noLetter letter
          · have unmatched := Option.map_eq_none_iff.mp missing
            have absent := Trie.findsNone_of_longestMatch unmatched part front present
            rw [find?_operators_eq_some_iff.mpr entry] at absent
            cases absent

end Lexeme

namespace Scanner

/-- The scanner that has been asked so many times. -/
def after : Nat → Scanner → Scanner
  | 0, scanner => scanner
  | calls + 1, scanner => scanner.next.2.after calls

/-- A scanner stays behind a part of its source with each call. -/
theorem behind_next
    {scanner : Scanner}
    {source : List Char}
    (passed : ∃ before, scanner.Behind source before) :
    ∃ before, scanner.next.2.Behind source before := by
  obtain ⟨before, behind⟩ := passed
  cases found : Lexeme.front? scanner.front.rest with
  | some lexeme =>
      rw [next_of_some found]
      exact ⟨_, behind.front.past found⟩
  | none =>
      rw [next_of_none found]
      exact ⟨_, behind.front⟩

/-- A scanner stays behind a part of its source with any number of calls. -/
theorem behind_after
    {scanner : Scanner}
    {source : List Char}
    (passed : ∃ before, scanner.Behind source before)
    (calls : Nat) :
    ∃ before, (scanner.after calls).Behind source before := by
  induction calls generalizing scanner with
  | zero => exact passed
  | succ calls inductionHypothesis => exact inductionHypothesis (behind_next passed)

/--
Wherever a scanner of a source has come to, it skips blanks and takes the longest lexeme there,
as a token of its kind.  It fails exactly if something remains and no part at the front of it is a
lexeme, and then it takes nothing but the blanks.  Where nothing remains, the input ends.
-/
theorem next_takes_longest_lexeme
    (source : List Char)
    (calls : Nat) :
    let scanner : Scanner := (ofSource source).after calls
    let remaining := (source.drop scanner.position).dropWhile Lexeme.isBlank
    let unread := source.drop scanner.next.2.position
    ((∃ error, scanner.next.1 = .error error) ↔
        remaining ≠ [] ∧
          ∀ text, text <+: remaining → text ≠ [] → text ∉ Lexeme.lexemes) ∧
      (∀ error, scanner.next.1 = .error error → unread = remaining) ∧
        ∀ token,
          scanner.next.1 = .ok token →
          (token.kind = .endOfInput ∧ remaining = [] ∧ unread = []) ∨
            ∃ text,
              Lexeme.IsLongest text remaining ∧
                Lexeme.Spells text token.kind ∧
                token.text? source = some text ∧
                remaining = text ++ unread := by
  intro scanner remaining unread
  have passed : ∃ before, (ofSource source).Behind source before :=
    ⟨[], rfl, rfl, rfl⟩
  obtain ⟨before, behind⟩ := behind_after passed calls
  obtain ⟨_, behindNext⟩ := behind_next ⟨before, behind⟩
  have restShape : scanner.front.rest = remaining := by
    rw [rest_front, behind.isAt]
  have unreadShape : unread = scanner.next.2.rest :=
    behindNext.isAt.symm
  cases found : Lexeme.front? scanner.front.rest with
  | some lexeme =>
      obtain ⟨isLongest, spells⟩ := Lexeme.isLongest_of_front? found
      have spans := (spans_token behind.front.isAt found).text?_eq
      have stepped := next_of_some found
      rw [restShape] at isLongest spells spans
      have shape : remaining = remaining.take lexeme.length ++ unread := by
        rw [unreadShape, stepped, past, restShape, List.take_append_drop]
      rw [stepped]
      refine ⟨iff_of_false ?_ fun stuck => ?_, ?_, ?_⟩
      · rintro ⟨_, ⟨⟩⟩
      · exact stuck.2 _ isLongest.front isLongest.present isLongest.member
      · rintro _ ⟨⟩
      · rintro _ ⟨⟩
        exact Or.inr ⟨_, isLongest, spells, spans, shape⟩
  | none =>
      have stepped := next_of_none found
      have stays : unread = remaining := by
        rw [unreadShape, stepped, restShape]
      have noLexeme :
          ∀ text, text <+: remaining → text ≠ [] → text ∉ Lexeme.lexemes := by
        intro text front present
        rw [← restShape] at front
        exact Lexeme.not_mem_lexemes_of_front? found front present
      rw [stepped, restShape]
      cases remainingShape : remaining with
      | nil =>
          refine ⟨by simp, ?_, ?_⟩
          · rintro _ ⟨⟩
          · rintro _ ⟨⟩
            exact Or.inl ⟨rfl, rfl, stays.trans remainingShape⟩
      | cons char rest =>
          rw [remainingShape] at stays noLexeme
          refine ⟨by simpa using noLexeme, fun _ _ => stays, ?_⟩
          rintro _ ⟨⟩

end Scanner

end Reckon
