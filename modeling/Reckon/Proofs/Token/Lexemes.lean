import Reckon.Text.Utf8
import Reckon.Token.Scanner

namespace Reckon

/-!
# Where tokens begin

A token that is a number was scanned where a digit stands: neither a word nor an operator has the
kind of a number.  A source that begins like an image begins with a character that starts no
token.
-/

/-! ### Kinds in tries -/

/-- Every lexeme of the forest has an admissible kind. -/
def Forest.Only {α : Type} (admissible : α → Prop) : Forest α → Prop
  | .empty => True
  | .tree _ kind? below beside =>
      (∀ kind ∈ kind?, admissible kind) ∧ below.Only admissible ∧ beside.Only admissible

namespace Forest.Only

variable
  {α : Type}
  {admissible : α → Prop}
  {kind : α}

/-- A chain of one lexeme holds its kind only. -/
theorem single
    (admitted : admissible kind)
    (char : Char)
    (rest : List Char) :
    (Forest.single kind char rest).Only admissible := by
  induction rest generalizing char with
  | nil =>
      refine ⟨?_, True.intro, True.intro⟩
      rintro other ⟨⟩
      exact admitted
  | cons next rest inductionHypothesis =>
      exact ⟨nofun, inductionHypothesis next, True.intro⟩

/-- Adding a lexeme of an admissible kind keeps the kinds admissible. -/
theorem insert
    {forest : Forest α}
    (only : forest.Only admissible)
    (admitted : admissible kind)
    (char : Char)
    (rest : List Char) :
    (forest.insert kind char rest).Only admissible := by
  induction forest generalizing char rest with
  | empty =>
      exact single admitted char rest
  | tree label kind? below beside belowHypothesis besideHypothesis =>
      obtain ⟨here, onlyBelow, onlyBeside⟩ := only
      rw [Forest.insert.eq_def]
      simp only
      split
      next =>
        split
        next =>
          refine ⟨?_, onlyBelow, onlyBeside⟩
          rintro other ⟨⟩
          exact admitted
        next next rest =>
          exact ⟨here, belowHypothesis onlyBelow next rest, onlyBeside⟩
      next =>
        exact ⟨here, onlyBelow, besideHypothesis onlyBeside char rest⟩

/-- A node below holds admissible kinds only. -/
theorem child?
    {forest : Forest α}
    (only : forest.Only admissible)
    {char : Char}
    {child : Trie α}
    (found : forest.child? char = some child) :
    (∀ kind ∈ child.kind?, admissible kind) ∧ child.below.Only admissible := by
  induction forest with
  | empty => cases found
  | tree label kind? below beside _ besideHypothesis =>
      obtain ⟨here, onlyBelow, onlyBeside⟩ := only
      rw [Forest.child?] at found
      split at found
      next =>
        cases found
        exact ⟨here, onlyBelow⟩
      next => exact besideHypothesis onlyBeside found

end Forest.Only

namespace Trie

variable
  {α : Type}
  {admissible : α → Prop}

/-- The trie of a table holds the kinds of the table only. -/
theorem only_ofList
    {table : List (String × α)}
    (admitted : ∀ entry ∈ table, admissible entry.2)
    (named : ∀ entry ∈ table, entry.1.toList ≠ []) :
    (ofList table).below.Only admissible := by
  suffices
      ∀ trie : Trie α, trie.below.Only admissible →
        (table.foldl (fun trie entry => trie.insert entry.1.toList entry.2) trie).below.Only
          admissible from
    this empty True.intro
  induction table with
  | nil => exact fun trie only => only
  | cons entry table inductionHypothesis =>
      intro trie only
      refine
        inductionHypothesis
          (fun entry member => admitted entry (List.mem_cons_of_mem _ member))
          (fun entry member => named entry (List.mem_cons_of_mem _ member))
          _ ?_
      obtain ⟨char, rest, lexeme⟩ :=
        List.exists_cons_of_ne_nil (named entry List.mem_cons_self)
      show (trie.insert entry.1.toList entry.2).below.Only admissible
      rw [lexeme]
      exact only.insert (admitted entry List.mem_cons_self) char rest

/-- The deepest match is of an admissible kind. -/
theorem admissible_of_deepest
    {trie : Trie α}
    (only : trie.below.Only admissible)
    {depth : Nat}
    {best : Option (α × Nat)}
    (bestAdmitted : ∀ found ∈ best, admissible found.1)
    (text : List Char) :
    ∀ found ∈ trie.deepest depth best text, admissible found.1 := by
  induction text generalizing trie depth best with
  | nil => exact bestAdmitted
  | cons char rest inductionHypothesis =>
      rw [deepest]
      split
      next => exact bestAdmitted
      next child reached =>
        obtain ⟨here, onlyBelow⟩ := only.child? reached
        refine inductionHypothesis onlyBelow ?_
        split
        next kind ends =>
          rintro found ⟨⟩
          exact here kind ends
        next => exact bestAdmitted

/-- The longest lexeme at the front of a text has the kind of an entry of the table. -/
theorem admissible_of_longestMatch
    {trie : Trie α}
    (only : trie.below.Only admissible)
    {text : List Char}
    {kind : α}
    {length : Nat}
    (found : trie.longestMatch text = some (kind, length)) :
    admissible kind :=
  admissible_of_deepest only (fun _ none => by cases none) text (kind, length) found

end Trie

/-! ### Numbers -/

namespace Lexeme

theorem only_keywords :
    keywords.below.Only fun kind => kind.isNumber = false := by
  unfold keywords
  apply Trie.only_ofList
  · decide
  · decide

theorem only_operators :
    operators.below.Only fun kind => kind.isNumber = false := by
  unfold operators
  apply Trie.only_ofList
  · decide
  · decide

/-- No word is a number. -/
theorem isNumber_word
    (text : List Char) :
    (word text).kind.isNumber = false := by
  unfold word
  simp only
  split
  next kind spanned matched =>
    split
    · exact Trie.admissible_of_longestMatch only_keywords matched
    · rfl
  next => rfl

theorem isNumber_of_operator?
    {text : List Char}
    {lexeme : Lexeme}
    (found : operator? text = some lexeme) :
    lexeme.kind.isNumber = false := by
  rw [operator?, Option.map_eq_some_iff] at found
  obtain ⟨⟨kind, length⟩, matched, rfl⟩ := found
  exact Trie.admissible_of_longestMatch only_operators matched

/-- A lexeme that is a number begins with a digit. -/
theorem isDigit_of_front?
    {char : Char}
    {rest : List Char}
    {lexeme : Lexeme}
    (found : front? (char :: rest) = some lexeme)
    (isNumber : lexeme.kind.isNumber = true) :
    isDigit char = true := by
  rw [front?] at found
  split at found
  next digit => exact digit
  next =>
    split at found
    next =>
      rw [← Option.some.inj found, isNumber_word] at isNumber
      cases isNumber
    next =>
      rw [isNumber_of_operator? found] at isNumber
      cases isNumber

end Lexeme

namespace Scanner

/-- The scanner is inside the source. -/
def IsAt (scanner : Scanner) (source : List Char) : Prop :=
  scanner.rest = source.drop scanner.position

/-- Skipping blanks keeps a scanner in its place in the source. -/
theorem isAt_skipBlanks
    {source rest : List Char}
    {position : Nat}
    (shape : rest = source.drop position)
    (line : Int64) :
    (skipBlanks rest position line).IsAt source := by
  induction rest generalizing position line with
  | nil => exact shape
  | cons char after inductionHypothesis =>
      have afterShape : after = source.drop (position + 1) := by
        rw [← List.drop_drop, ← shape]
        rfl
      rw [skipBlanks]
      split
      · exact inductionHypothesis afterShape _
      · exact shape

/-- The token starts at a digit of the source, if it is a number. -/
def StartsNumber (source : List Char) (token : Token) : Prop :=
  token.kind.isNumber = true →
    ∃ (start : Nat) (char : Char),
      token.start = Int.ofNat start ∧ source[start]? = some char ∧ Lexeme.isDigit char = true

/-- A token keeps the scanner in its place, and begins with a digit if it is a number. -/
theorem isAt_of_next
    {source : List Char}
    {scanner after : Scanner}
    (isAt : scanner.IsAt source)
    {token : Token}
    (scanned : scanner.next = (.ok token, after)) :
    after.IsAt source ∧ StartsNumber source token := by
  have front := isAt_skipBlanks isAt scanner.line
  unfold next at scanned
  simp only at scanned
  generalize skipBlanks scanner.rest scanner.position scanner.line = found at front scanned
  split at scanned
  next =>
    cases scanned
    exact ⟨front, by simp [StartsNumber, TokenKind.isNumber]⟩
  next char rest frontShape =>
    split at scanned
    next lexeme lexed =>
      cases scanned
      constructor
      · rw [IsAt, front, List.drop_drop]
      · intro isNumber
        rw [frontShape] at lexed
        refine ⟨found.position, char, rfl, ?_, Lexeme.isDigit_of_front? lexed isNumber⟩
        rw [← List.head?_drop, ← front, frontShape]
        rfl
    next => cases scanned

/-- All numbers that are scanned begin with a digit. -/
theorem startsNumber_of_tokensWithin
    {source : List Char}
    {count : Nat}
    {scanner : Scanner}
    (isAt : scanner.IsAt source)
    {tokens : List Token}
    (scanned : scanner.tokensWithin count = .ok tokens) :
    ∀ token ∈ tokens, StartsNumber source token := by
  induction count generalizing scanner tokens with
  | zero =>
      cases scanned
      simp
  | succ count inductionHypothesis =>
      unfold tokensWithin at scanned
      split at scanned
      next => cases scanned
      next token after found =>
        obtain ⟨afterIsAt, starts⟩ := isAt_of_next isAt found
        split at scanned
        next =>
          cases scanned
          simpa using starts
        next =>
          split at scanned
          next rest restScanned =>
            cases scanned
            intro other member
            rcases List.mem_cons.mp member with rfl | inRest
            · exact starts
            · exact inductionHypothesis afterIsAt restScanned other inRest
          next => cases scanned

end Scanner

/-- The numbers among the tokens of a source start at digits. -/
theorem startsNumber_of_tokenize
    {source : List Char}
    {tokens : List Token}
    (scanned : tokenize source = .ok tokens) :
    ∀ token ∈ tokens, Scanner.StartsNumber source token :=
  Scanner.startsNumber_of_tokensWithin
    (show (Scanner.ofSource source).IsAt source from rfl)
    scanned

namespace Token

/-- The text of a number begins with a digit, if there is any. -/
theorem isDigit_of_text?
    {source text : List Char}
    {token : Token}
    (starts : Scanner.StartsNumber source token)
    (isNumber : token.kind.isNumber = true)
    (spanned : token.text? source = some text) :
    ∀ char ∈ text.head?, Lexeme.isDigit char = true := by
  obtain ⟨start, digit, startShape, present, isDigit⟩ := starts isNumber
  have span : text = [] ∨ ∃ count, text = (source.drop start).take count := by
    unfold text? at spanned
    simp only [startShape] at spanned
    repeat' split at spanned
    all_goals
      first
      | exact Or.inl (Option.some.inj spanned).symm
      | exact Or.inr ⟨_, (Option.some.inj spanned).symm⟩
  intro char member
  rcases span with rfl | ⟨count, rfl⟩
  · cases member
  · rw [List.head?_take] at member
    split at member
    · cases member
    · rw [List.head?_drop, present] at member
      cases member
      exact isDigit

end Token

/-! ### Sources that begin like an image -/

/-- A replacement character begins no lexeme. -/
theorem front?_replacement
    (rest : List Char) :
    Lexeme.front? (Text.replacement :: rest) = none := by
  have noOperator : Lexeme.operators.child? Text.replacement = none := by
    decide
  have noDigit : Lexeme.isDigit Text.replacement = false := by
    decide
  have noLetter : Lexeme.isLetter Text.replacement = false := by
    decide
  simp [Lexeme.front?, noDigit, noLetter, Lexeme.operator?, Trie.longestMatch, Trie.deepest,
    noOperator]

/-- A source that begins with the character for a bad byte has no tokens. -/
theorem tokenize_replacement
    (rest : List Char) :
    tokenize (Text.replacement :: rest) =
      .error { line := 1, offset := 0, problem := .unexpected Text.replacement } := by
  have notBlank : Lexeme.isBlank Text.replacement = false := by
    decide
  simp only [tokenize, Scanner.ofSource, Scanner.tokensWithin, Scanner.next, Scanner.skipBlanks,
    notBlank, Bool.false_eq_true, ↓reduceIte, front?_replacement]
  rfl

end Reckon
