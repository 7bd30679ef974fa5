import Reckon.Proofs.Token.Blanks

namespace Reckon

/-!
# Tokens of joined sources

A line break between two sources keeps their tokens apart: the tokens of the whole are those of
the first source and, moved behind them, those of the second.  The lexeme of each token stays what
it was.
-/

namespace Scanner

/-- The scanner behind the blanks at its front. -/
def front (scanner : Scanner) : Scanner :=
  skipBlanks scanner.rest scanner.position scanner.line

/-- The token of a lexeme at the front. -/
def token (scanner : Scanner) (lexeme : Lexeme) : Token :=
  { kind := lexeme.kind
    start := scanner.position
    length := lexeme.reported
    line := scanner.line }

/-- The token at the end of the source. -/
def ending (scanner : Scanner) : Token :=
  { kind := .endOfInput, start := scanner.position, length := 0, line := scanner.line }

/-- The scanner behind a lexeme. -/
def past (scanner : Scanner) (lexeme : Lexeme) : Scanner :=
  { rest := scanner.rest.drop lexeme.length
    position := scanner.position + lexeme.length
    line := scanner.line }

/-- The tokens that are scanned up to the end of the source, and the one that ends it. -/
inductive Yields : Scanner → List Token → Token → Prop where
  | ending
      {scanner : Scanner}
      (atEnd : scanner.front.rest = []) :
      Yields scanner [] scanner.front.ending
  | token
      {scanner : Scanner}
      {lexeme : Lexeme}
      {tokens : List Token}
      {last : Token}
      (found : Lexeme.front? scanner.front.rest = some lexeme)
      (following : Yields (scanner.front.past lexeme) tokens last) :
      Yields scanner (scanner.front.token lexeme :: tokens) last

theorem length_skipBlanks_le
    (rest : List Char)
    (position : Nat)
    (line : Int64) :
    (skipBlanks rest position line).rest.length ≤ rest.length := by
  induction rest generalizing position line with
  | nil =>
      exact Nat.le_refl 0
  | cons char after inductionHypothesis =>
      rw [skipBlanks]
      split
      · exact Nat.le_succ_of_le (inductionHypothesis _ _)
      · exact Nat.le_refl _

/-- The next token is the end, or that of the lexeme at the front, unless there is none. -/
theorem next_cases
    (scanner : Scanner) :
    scanner.front.rest = [] ∧ scanner.next = (.ok scanner.front.ending, scanner.front) ∨
      (∃ lexeme,
        Lexeme.front? scanner.front.rest = some lexeme ∧
          scanner.next = (.ok (scanner.front.token lexeme), scanner.front.past lexeme)) ∨
        ∃ error,
          scanner.front.rest ≠ [] ∧
            Lexeme.front? scanner.front.rest = none ∧
              scanner.next = (.error error, scanner.front) := by
  unfold next
  simp only
  rw [← front]
  split
  next atEnd =>
    exact Or.inl ⟨atEnd, rfl⟩
  next char rest shape =>
    split
    next lexeme found =>
      exact Or.inr (Or.inl ⟨lexeme, found, rfl⟩)
    next missing =>
      exact Or.inr (Or.inr ⟨_, by simp [shape], missing, rfl⟩)

/-- Scanning ends with the tokens of the source, given that it may go on for long enough. -/
theorem tokensWithin_eq_ok_iff
    {count : Nat}
    {scanner : Scanner}
    (enough : scanner.rest.length < count)
    {tokens : List Token} :
    scanner.tokensWithin count = .ok tokens ↔
      ∃ read last, scanner.Yields read last ∧ tokens = read ++ [last] := by
  induction count generalizing scanner tokens with
  | zero =>
      omega
  | succ count inductionHypothesis =>
      rw [tokensWithin]
      rcases scanner.next_cases with
        ⟨atEnd, scanned⟩ | ⟨lexeme, found, scanned⟩ | ⟨error, present, missing, scanned⟩
      · simp only [scanned, Scanner.ending, ↓reduceIte, Except.ok.injEq]
        constructor
        · rintro rfl
          exact ⟨[], _, .ending atEnd, rfl⟩
        · rintro ⟨read, last, yields, rfl⟩
          cases yields with
          | ending _ =>
              rfl
          | token found _ =>
              rw [atEnd] at found
              cases found
      · have liesIn := Lexeme.liesIn_of_front? found
        have shrinks := length_skipBlanks_le scanner.rest scanner.position scanner.line
        have left : (scanner.front.past lexeme).rest.length < count := by
          have pos := liesIn.pos
          have bounded := liesIn.le_length
          simp only [past, front, List.length_drop] at bounded ⊢
          omega
        have goesOn : (scanner.front.token lexeme).kind ≠ .endOfInput := liesIn.goesOn
        simp only [scanned, goesOn, ↓reduceIte]
        constructor
        · intro scannedRest
          split at scannedRest
          next rest restScanned =>
            cases scannedRest
            obtain ⟨read, last, yields, rfl⟩ := (inductionHypothesis left).mp restScanned
            exact ⟨_, last, .token found yields, rfl⟩
          next =>
            cases scannedRest
        · rintro ⟨read, last, yields, rfl⟩
          cases yields with
          | ending atEnd =>
              rw [atEnd] at found
              cases found
          | @token _ other _ _ foundToo following =>
              obtain rfl := Option.some.inj (found.symm.trans foundToo)
              rw [(inductionHypothesis left).mpr ⟨_, _, following, rfl⟩]
              rfl
      · simp only [scanned, reduceCtorEq, false_iff, not_exists, not_and]
        intro read last yields
        cases yields with
        | ending atEnd =>
            exact (present atEnd).elim
        | token found _ =>
            rw [missing] at found
            cases found

end Scanner

/-- A source is scanned if the scanner yields its tokens and then the end. -/
theorem tokenize_eq_ok_iff
    {source : List Char}
    {tokens : List Token} :
    tokenize source = .ok tokens ↔
      ∃ read last, (Scanner.ofSource source).Yields read last ∧ tokens = read ++ [last] :=
  Scanner.tokensWithin_eq_ok_iff (Nat.lt_succ_self _)

/-! ### Moving tokens -/

namespace Token

/-- The token, so many characters and lines further on. -/
def moved (offset : Nat) (lines : Int64) (token : Token) : Token :=
  { token with start := token.start + offset, line := token.line + lines }

@[simp] theorem kind_moved
    (offset : Nat)
    (lines : Int64)
    (token : Token) :
    (token.moved offset lines).kind = token.kind :=
  rfl

@[simp] theorem line_moved
    (offset : Nat)
    (lines : Int64)
    (token : Token) :
    (token.moved offset lines).line = token.line + lines :=
  rfl

@[simp] theorem stop_moved
    (offset : Nat)
    (lines : Int64)
    (token : Token) :
    (token.moved offset lines).stop = token.stop + offset := by
  simp only [stop, moved]
  grind

@[simp] theorem moved_zero
    (token : Token) :
    token.moved 0 0 = token := by
  simp [moved]

/-- The lexeme of the token is a text that stands in the source. -/
def Spans (token : Token) (source text : List Char) : Prop :=
  ∃ before after,
    source = before ++ text ++ after ∧
      token.start = before.length ∧ token.stop = before.length + text.length

namespace Spans

variable
  {token : Token}
  {source text : List Char}

/-- A token that spans a text has it for its lexeme. -/
theorem text?_eq
    (spans : token.Spans source text) :
    token.text? source = some text := by
  obtain ⟨before, after, rfl, starts, stops⟩ := spans
  have fits : token.stop ≤ ((before ++ text ++ after).length : Int) := by
    rw [stops]
    simp only [List.length_append]
    omega
  have inRange : ¬ (0x8000000000000000 ≤ token.stop ∧
      ((before ++ text ++ after).length : Int) < token.stop) := by
    omega
  have nonnegative : ¬ token.stop < -0x8000000000000000 := by
    omega
  simp only [text?, inRange, nonnegative, ↓reduceIte, Int.min_eq_left fits]
  split
  next empty =>
    have none : text.length = 0 := by
      omega
    rw [List.length_eq_zero_iff.mp none]
  next =>
    split
    next start startShape =>
      obtain rfl : start = before.length := by
        rw [startShape] at starts
        exact Int.ofNat.inj starts
      have length : token.stop.toNat - before.length = text.length := by
        omega
      rw [length, List.append_assoc, List.drop_left, List.take_left]
    next start startShape =>
      rw [startShape] at starts
      cases starts

/-- A token moves with its source. -/
theorem moved
    (spans : token.Spans source text)
    (front behind : List Char)
    (lines : Int64) :
    (token.moved front.length lines).Spans (front ++ source ++ behind) text := by
  obtain ⟨before, after, rfl, starts, stops⟩ := spans
  refine ⟨front ++ before, after ++ behind, by simp, ?_, ?_⟩
  · simp only [Token.moved, starts, List.length_append]
    omega
  · simp only [stop_moved, stops, List.length_append]
    omega

end Spans

end Token

namespace Scanner

/-- The scanner, so many characters and lines further on. -/
def moved (offset : Nat) (lines : Int64) (scanner : Scanner) : Scanner :=
  { scanner with position := scanner.position + offset, line := scanner.line + lines }

/-- The scanner of a longer source. -/
def append (scanner : Scanner) (more : List Char) : Scanner :=
  { scanner with rest := scanner.rest ++ more }

/-- The scanner at the end of the source. -/
def atEnd (scanner : Scanner) : Scanner :=
  { rest := []
    position := scanner.position + scanner.rest.length
    line := scanner.line + Int64.ofNat (scanner.rest.count '\n') }

/-- Blanks are skipped alike wherever they are counted from. -/
theorem skipBlanks_moved
    (rest : List Char)
    (position offset : Nat)
    (line lines : Int64) :
    skipBlanks rest (position + offset) (line + lines) =
      (skipBlanks rest position line).moved offset lines := by
  induction rest generalizing position line with
  | nil =>
      rfl
  | cons char after inductionHypothesis =>
      rw [skipBlanks, skipBlanks]
      split
      · rw [← inductionHypothesis]
        congr 1
        · omega
        · split <;> grind
      · rfl

theorem front_moved
    (offset : Nat)
    (lines : Int64)
    (scanner : Scanner) :
    (scanner.moved offset lines).front = scanner.front.moved offset lines :=
  skipBlanks_moved ..

theorem ending_moved
    (offset : Nat)
    (lines : Int64)
    (scanner : Scanner) :
    (scanner.moved offset lines).ending = scanner.ending.moved offset lines := by
  simp [ending, moved, Token.moved]

theorem token_moved
    (offset : Nat)
    (lines : Int64)
    (scanner : Scanner)
    (lexeme : Lexeme) :
    (scanner.moved offset lines).token lexeme = (scanner.token lexeme).moved offset lines := by
  simp [token, moved, Token.moved]

theorem past_moved
    (offset : Nat)
    (lines : Int64)
    (scanner : Scanner)
    (lexeme : Lexeme) :
    (scanner.moved offset lines).past lexeme = (scanner.past lexeme).moved offset lines := by
  simp only [past, moved, mk.injEq, true_and, and_true]
  omega

/-- Blanks end before the first other character, whatever is added behind. -/
theorem skipBlanks_append_of_ne_nil
    {rest : List Char}
    {position : Nat}
    {line : Int64}
    (present : (skipBlanks rest position line).rest ≠ [])
    (more : List Char) :
    skipBlanks (rest ++ more) position line = (skipBlanks rest position line).append more := by
  induction rest generalizing position line with
  | nil =>
      exact (present rfl).elim
  | cons char after inductionHypothesis =>
      rw [skipBlanks] at present
      rw [List.cons_append, skipBlanks, skipBlanks]
      split
      next blankIs =>
        rw [if_pos blankIs] at present
        exact inductionHypothesis present
      next =>
        rfl

/-- Blanks up to the end go on with those that are added. -/
theorem skipBlanks_append_of_eq_nil
    {rest : List Char}
    {position : Nat}
    {line : Int64}
    (absent : (skipBlanks rest position line).rest = [])
    (more : List Char) :
    skipBlanks (rest ++ more) position line =
      skipBlanks more (skipBlanks rest position line).position
        (skipBlanks rest position line).line := by
  induction rest generalizing position line with
  | nil =>
      rfl
  | cons char after inductionHypothesis =>
      rw [skipBlanks] at absent
      rw [List.cons_append, skipBlanks, skipBlanks]
      split
      next blankIs =>
        rw [if_pos blankIs] at absent
        exact inductionHypothesis absent
      next solid =>
        rw [if_neg solid] at absent
        cases absent

/-- Skipping blanks does not move the end. -/
theorem atEnd_skipBlanks
    (rest : List Char)
    (position : Nat)
    (line : Int64) :
    (skipBlanks rest position line).atEnd =
      atEnd { rest := rest, position := position, line := line } := by
  induction rest generalizing position line with
  | nil =>
      rfl
  | cons char after inductionHypothesis =>
      rw [skipBlanks]
      split
      · rw [inductionHypothesis]
        simp only [atEnd, List.length_cons, List.count_cons, mk.injEq, true_and]
        refine ⟨by omega, ?_⟩
        by_cases isBreak : char = '\n'
        · simp only [isBreak, ↓reduceIte, BEq.rfl, Int64.ofNat_add]
          grind
        · simp [isBreak]
      · rfl

theorem atEnd_front
    (scanner : Scanner) :
    scanner.front.atEnd = scanner.atEnd :=
  atEnd_skipBlanks ..

/-- Where nothing but blanks is left, the front is the end. -/
theorem atEnd_eq_front
    {scanner : Scanner}
    (absent : scanner.front.rest = []) :
    scanner.atEnd = scanner.front := by
  rw [← atEnd_front, atEnd, absent, mk.injEq]
  exact ⟨absent.symm, rfl, by simp⟩

/-- Nor does stepping over a lexeme, in which no line ends. -/
theorem atEnd_past
    {scanner : Scanner}
    {lexeme : Lexeme}
    (found : Lexeme.front? scanner.rest = some lexeme) :
    (scanner.past lexeme).atEnd = scanner.atEnd := by
  have bounded := (Lexeme.liesIn_of_front? found).le_length
  have noBreak : (scanner.rest.take lexeme.length).count '\n' = 0 := by
    rw [List.count_eq_zero]
    intro member
    cases Lexeme.isBlank_of_mem_take found member
  have counted :
      scanner.rest.count '\n' = (scanner.rest.drop lexeme.length).count '\n' := by
    rw [← Nat.zero_add (List.count _ (scanner.rest.drop _)), ← noBreak, ← List.count_append,
      List.take_append_drop]
  simp only [atEnd, past, List.length_drop, counted, mk.injEq, true_and, and_true]
  omega

/-- Coming past a lexeme does not touch what is added behind. -/
theorem past_append
    {scanner : Scanner}
    {lexeme : Lexeme}
    (bounded : lexeme.length ≤ scanner.rest.length)
    (more : List Char) :
    (scanner.append more).past lexeme = (scanner.past lexeme).append more := by
  simp only [append, past, List.drop_append_of_le_length bounded]

/-- The token of a lexeme spans it. -/
theorem spans_token
    {source : List Char}
    {scanner : Scanner}
    (isAt : scanner.IsAt source)
    {lexeme : Lexeme}
    (found : Lexeme.front? scanner.rest = some lexeme) :
    (scanner.token lexeme).Spans source (scanner.rest.take lexeme.length) := by
  obtain ⟨pos, bounded, reported, _⟩ := Lexeme.liesIn_of_front? found
  have inside : scanner.position + lexeme.length ≤ source.length := by
    rw [isAt, List.length_drop] at bounded
    omega
  refine ⟨source.take scanner.position, scanner.rest.drop lexeme.length, ?_, ?_, ?_⟩
  · rw [List.append_assoc, List.take_append_drop, isAt, List.take_append_drop]
  · simp only [token, List.length_take]
    omega
  · simp only [Token.stop, token, reported, List.length_take]
    split <;> omega

namespace Yields

variable
  {scanner : Scanner}
  {read : List Token}
  {last : Token}

/-- The last token is the only one that ends the input. -/
theorem kinds
    (yields : scanner.Yields read last) :
    (∀ token ∈ read, token.kind ≠ .endOfInput) ∧ last.kind = .endOfInput := by
  induction yields with
  | ending _ =>
      exact ⟨by simp, rfl⟩
  | token found _ inductionHypothesis =>
      refine ⟨fun token member => ?_, inductionHypothesis.2⟩
      rcases List.mem_cons.mp member with rfl | inRest
      · exact (Lexeme.liesIn_of_front? found).goesOn
      · exact inductionHypothesis.1 token inRest

/-- Only what is behind the blanks matters. -/
theorem congr
    (yields : scanner.Yields read last)
    {other : Scanner}
    (same : scanner.front = other.front) :
    other.Yields read last := by
  cases yields with
  | ending atEnd =>
      rw [same] at atEnd ⊢
      exact .ending atEnd
  | token found following =>
      rw [same] at found following ⊢
      exact .token found following

/-- The tokens move with the scanner. -/
theorem moved
    (yields : scanner.Yields read last)
    (offset : Nat)
    (lines : Int64) :
    (scanner.moved offset lines).Yields (read.map (·.moved offset lines))
      (last.moved offset lines) := by
  induction yields with
  | @ending scanner atEnd =>
      rw [← ending_moved, ← front_moved]
      exact .ending (by rwa [front_moved])
  | @token scanner lexeme tokens last found following inductionHypothesis =>
      rw [← past_moved, ← front_moved] at inductionHypothesis
      rw [List.map_cons, ← token_moved, ← front_moved]
      exact .token (by rwa [front_moved]) inductionHypothesis

/--
Behind a blank, scanning goes on as from the end of what stands before it.  The lexeme ends before
the blank, so the longer text has the same one at its front.
-/
theorem join
    (yields : scanner.Yields read last)
    {blank : Char}
    (blankIs : Lexeme.isBlank blank = true)
    {more : List Char}
    {others : List Token}
    {otherLast : Token}
    (following : (scanner.atEnd.append (blank :: more)).Yields others otherLast) :
    (scanner.append (blank :: more)).Yields (read ++ others) otherLast := by
  induction yields with
  | @ending scanner absent =>
      refine following.congr ?_
      rw [atEnd_eq_front absent, front, append, absent]
      exact (skipBlanks_append_of_eq_nil absent _).symm
  | @token scanner lexeme tokens last found _ inductionHypothesis =>
      have present : scanner.front.rest ≠ [] := by
        intro absent
        rw [absent] at found
        cases found
      have moves : (scanner.append (blank :: more)).front = scanner.front.append (blank :: more) :=
        skipBlanks_append_of_ne_nil present _
      have bounded := (Lexeme.liesIn_of_front? found).le_length
      have foundToo : Lexeme.front? (scanner.append (blank :: more)).front.rest = some lexeme := by
        rw [moves, append, Lexeme.front?_append blankIs, found]
      rw [atEnd_past found, atEnd_front] at inductionHypothesis
      have goesOn := inductionHypothesis following
      rw [← past_append bounded, ← moves] at goesOn
      have same : scanner.front.token lexeme =
          (scanner.append (blank :: more)).front.token lexeme := by
        rw [moves]
        rfl
      rw [List.cons_append, same]
      exact .token foundToo goesOn

/-- Each token before the end spans a lexeme. -/
theorem exists_spans
    (yields : scanner.Yields read last)
    {source : List Char}
    (isAt : scanner.IsAt source) :
    ∀ token ∈ read, ∃ text, token.Spans source text := by
  induction yields with
  | ending _ =>
      simp
  | @token scanner lexeme tokens last found _ inductionHypothesis =>
      have front : scanner.front.IsAt source := isAt_skipBlanks isAt _
      have liesIn := Lexeme.liesIn_of_front? found
      have pastIsAt : (scanner.front.past lexeme).IsAt source := by
        rw [IsAt, past, front, List.drop_drop]
      intro token member
      rcases List.mem_cons.mp member with rfl | inRest
      · exact ⟨_, spans_token front found⟩
      · exact inductionHypothesis pastIsAt token inRest

end Yields

end Scanner

/-- How many lines a source takes up, the last one included. -/
def lineCount (source : List Char) : Int64 :=
  Int64.ofNat (1 + source.count '\n')

/--
The tokens of two sources with a line break between them: the second source starts one character
behind the end of the first one, and as many lines below as the first one takes up.
-/
theorem Scanner.Yields.joined
    {first second : List Char}
    {firstTokens secondTokens : List Token}
    {firstLast secondLast : Token}
    (firstYields : (ofSource first).Yields firstTokens firstLast)
    (secondYields : (ofSource second).Yields secondTokens secondLast) :
    (ofSource (first ++ '\n' :: second)).Yields
      (firstTokens ++ secondTokens.map (·.moved (first.length + 1) (lineCount first)))
      (secondLast.moved (first.length + 1) (lineCount first)) := by
  refine firstYields.join (by decide) ?_
  refine (secondYields.moved _ _).congr ?_
  have lines : 1 + lineCount first = 1 + Int64.ofNat (first.count '\n') + 1 := by
    rw [lineCount, Int64.ofNat_add]
    grind
  show
    skipBlanks second (0 + (first.length + 1)) (1 + lineCount first) =
      skipBlanks second (0 + first.length + 1) (1 + Int64.ofNat (first.count '\n') + 1)
  rw [lines, Nat.add_assoc]

end Reckon
