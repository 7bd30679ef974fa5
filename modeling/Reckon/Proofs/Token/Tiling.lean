import Mathlib.Data.List.TakeWhile
import Reckon.Proofs.Token.Joining

namespace Reckon

/-!
# Tokens tile the source

The lexemes of the tokens lie in the source one behind the other, and there is nothing but blanks
outside them.  Where no token can be read, this holds of the source up to there.

A scanner is followed from token to token.  `Scanner.Behind` says what it has passed so far, and
`Tiles` what the tokens up to there tell of it.
-/

namespace Scanner

/-- What a scanner answers when it is asked so many times. -/
def answers : Nat → Scanner → List (Except LexicalError Token)
  | 0, _ => []
  | count + 1, scanner => scanner.next.1 :: scanner.next.2.answers count

/-- The scanner of a source, behind the tokens that it has given. -/
inductive Reached (source : List Char) : List Token → Scanner → Prop where
  | start :
      Reached source [] (ofSource source)
  | token
      {tokens : List Token}
      {scanner : Scanner}
      {lexeme : Lexeme}
      (reached : Reached source tokens scanner)
      (found : Lexeme.front? scanner.front.rest = some lexeme) :
      Reached source (tokens ++ [scanner.front.token lexeme]) (scanner.front.past lexeme)

/-! ### Blanks -/

/-- Skipping blanks drops them, and counts them and their lines. -/
theorem skipBlanks_eq
    (rest : List Char)
    (position : Nat)
    (line : Int64) :
    skipBlanks rest position line =
      { rest := rest.dropWhile Lexeme.isBlank
        position := position + (rest.takeWhile Lexeme.isBlank).length
        line := line + Int64.ofNat ((rest.takeWhile Lexeme.isBlank).count '\n') } := by
  induction rest generalizing position line with
  | nil =>
      simp [skipBlanks]
  | cons char after inductionHypothesis =>
      rw [skipBlanks]
      split
      next blankIs =>
        rw [inductionHypothesis]
        simp only [List.dropWhile_cons_of_pos blankIs, List.takeWhile_cons_of_pos blankIs,
          List.length_cons, List.count_cons, mk.injEq, true_and]
        refine ⟨by omega, ?_⟩
        by_cases isBreak : char = '\n'
        · simp only [isBreak, ↓reduceIte, BEq.rfl, Int64.ofNat_add]
          grind
        · simp [isBreak]
      next solid =>
        simp [List.dropWhile_cons_of_neg solid, List.takeWhile_cons_of_neg solid]

/-- The front of a scanner is what is left without the blanks. -/
theorem rest_front
    (scanner : Scanner) :
    scanner.front.rest = scanner.rest.dropWhile Lexeme.isBlank := by
  rw [front, skipBlanks_eq]

/-- What is left behind the blanks does not begin with one. -/
theorem isBlank_of_rest_front
    {scanner : Scanner}
    {char : Char}
    {rest : List Char}
    (shape : scanner.front.rest = char :: rest) :
    Lexeme.isBlank char = false := by
  have solid := List.head?_dropWhile_not Lexeme.isBlank scanner.rest
  rwa [← rest_front, shape] at solid

/-- Blanks are skipped once. -/
theorem front_front
    (scanner : Scanner) :
    scanner.front.front = scanner.front := by
  cases shape : scanner.front.rest with
  | nil =>
      rw [front, shape, skipBlanks, ← shape]
  | cons char rest =>
      rw [front, shape, skipBlanks, isBlank_of_rest_front shape, if_neg Bool.false_ne_true, ← shape]

/-- Blanks before the next token do not matter for it. -/
theorem next_front
    (scanner : Scanner) :
    scanner.front.next = scanner.next := by
  have same :
      skipBlanks scanner.front.rest scanner.front.position scanner.front.line =
        skipBlanks scanner.rest scanner.position scanner.line :=
    scanner.front_front
  simp only [next, same]

/-! ### What a scanner has passed -/

/-- The scanner has passed a part of the source, and has counted its characters and its lines. -/
structure Behind (scanner : Scanner) (source before : List Char) : Prop where
  shape : source = before ++ scanner.rest
  position : scanner.position = before.length
  line : scanner.line = lineCount before

namespace Behind

variable
  {scanner : Scanner}
  {source before : List Char}

theorem isAt
    (behind : scanner.Behind source before) :
    scanner.IsAt source := by
  rw [IsAt, behind.shape, behind.position, List.drop_left]

/-- Skipping blanks passes them. -/
theorem front
    (behind : scanner.Behind source before) :
    scanner.front.Behind source (before ++ scanner.rest.takeWhile Lexeme.isBlank) := by
  rw [Scanner.front, skipBlanks_eq]
  refine ⟨?_, ?_, ?_⟩
  · rw [List.append_assoc, List.takeWhile_append_dropWhile, ← behind.shape]
  · rw [List.length_append, behind.position]
  · rw [behind.line, lineCount, lineCount, List.count_append, ← Nat.add_assoc, ← Int64.ofNat_add]

/-- Stepping over a lexeme passes it, and no line ends in it. -/
theorem past
    (behind : scanner.Behind source before)
    {lexeme : Lexeme}
    (found : Lexeme.front? scanner.rest = some lexeme) :
    (scanner.past lexeme).Behind source (before ++ scanner.rest.take lexeme.length) := by
  have bounded := (Lexeme.liesIn_of_front? found).le_length
  have noBreak : (scanner.rest.take lexeme.length).count '\n' = 0 := by
    rw [List.count_eq_zero]
    intro member
    cases Lexeme.isBlank_of_mem_take found member
  refine ⟨?_, ?_, ?_⟩
  · rw [Scanner.past, List.append_assoc, List.take_append_drop, ← behind.shape]
  · rw [Scanner.past, behind.position, List.length_append, List.length_take_of_le bounded]
  · rw [Scanner.past, behind.line, lineCount, lineCount, List.count_append, noBreak, Nat.add_zero]

end Behind

end Scanner

/-! ### Tiles -/

namespace Token

/-- What a token tells of its lexeme, a text that stands in the source. -/
structure Tells (source : List Char) (token : Token) (text : List Char) : Prop where
  lexeme : token.text? source = some text
  present : text ≠ []
  goesOn : token.kind ≠ .endOfInput
  starts : 0 ≤ token.start
  stops : token.start + text.length ≤ source.length
  length : token.length = text.length + if token.kind.isNumber then 1 else 0
  line : token.line = lineCount (source.take token.start.toNat)

/-- The place belongs to the lexeme of the token. -/
def Covers (source : List Char) (token : Token) (place : Nat) : Prop :=
  ∃ text,
    token.text? source = some text ∧
      token.start ≤ place ∧ (place : Int) < token.start + text.length

end Token

/--
The tokens tile the source up to a place: their lexemes are not empty and lie one behind the
other, and all characters outside them are blanks.
-/
structure Tiles (source : List Char) (finish : Nat) (tokens : List Token) : Prop where
  lexemes :
    ∀ token ∈ tokens,
      ∃ text, token.Tells source text ∧ token.start + (text.length : Int) ≤ finish
  ordered :
    tokens.Pairwise fun first second =>
      ∃ text,
        first.text? source = some text ∧ first.start + (text.length : Int) ≤ second.start
  blanks :
    ∀ place char,
      place < finish →
      source[place]? = some char →
      (∀ token ∈ tokens, ¬ token.Covers source place) →
      Lexeme.isBlank char = true

namespace Tiles

variable
  {source : List Char}
  {finish : Nat}
  {tokens : List Token}

theorem nil :
    Tiles source 0 [] where
  lexemes := by
    simp
  ordered :=
    .nil
  blanks := by
    simp

/-- Blanks behind the tokens belong to the tiling. -/
theorem skip
    (tiles : Tiles source finish tokens)
    {further : Nat}
    (onward : finish ≤ further)
    (blank :
      ∀ place char,
        finish ≤ place →
        place < further →
        source[place]? = some char →
        Lexeme.isBlank char = true) :
    Tiles source further tokens where
  lexemes token member := by
    obtain ⟨text, tells, inside⟩ := tiles.lexemes token member
    exact ⟨text, tells, by omega⟩
  ordered := tiles.ordered
  blanks place char inside found uncovered := by
    by_cases before : place < finish
    · exact tiles.blanks place char before found uncovered
    · exact blank place char (by omega) inside found

/-- So does a token that starts where the tiling ended. -/
theorem concat
    (tiles : Tiles source finish tokens)
    {token : Token}
    {text : List Char}
    (tells : token.Tells source text)
    (starts : token.start = finish) :
    Tiles source (finish + text.length) (tokens ++ [token]) where
  lexemes other member := by
    rcases List.mem_append.mp member with earlier | last
    · obtain ⟨otherText, otherTells, inside⟩ := tiles.lexemes other earlier
      exact ⟨otherText, otherTells, by omega⟩
    · rw [List.mem_singleton.mp last]
      exact ⟨text, tells, by omega⟩
  ordered := by
    refine List.pairwise_append.mpr ⟨tiles.ordered, List.pairwise_singleton _ _, ?_⟩
    intro other earlier last member
    obtain ⟨otherText, otherTells, inside⟩ := tiles.lexemes other earlier
    rw [List.mem_singleton.mp member, starts]
    exact ⟨otherText, otherTells.lexeme, inside⟩
  blanks place char inside found uncovered := by
    by_cases before : place < finish
    · refine tiles.blanks place char before found fun other member => ?_
      exact uncovered other (List.mem_append_left _ member)
    · refine (uncovered token (by simp) ⟨text, tells.lexeme, ?_, ?_⟩).elim <;> omega

end Tiles

namespace Scanner

variable
  {scanner : Scanner}
  {source before : List Char}
  {tokens : List Token}

/-- The token of the lexeme at the front tells where it stands. -/
theorem tells_token
    (behind : scanner.Behind source before)
    {lexeme : Lexeme}
    (found : Lexeme.front? scanner.rest = some lexeme) :
    (scanner.token lexeme).Tells source (scanner.rest.take lexeme.length) := by
  obtain ⟨pos, bounded, reported, goesOn⟩ := Lexeme.liesIn_of_front? found
  have taken := List.length_take_of_le bounded
  have sized := congrArg List.length behind.shape
  have placed := behind.position
  rw [List.length_append] at sized
  refine
    { lexeme := (spans_token behind.isAt found).text?_eq
      present := ?_
      goesOn := goesOn
      starts := by simp [token]
      stops := ?_
      length := ?_
      line := ?_ }
  · rw [← List.length_pos_iff, taken]
    exact pos
  · simp only [token, taken]
    omega
  · simp only [token, taken, reported]
    split <;> omega
  · simp only [token, Int.toNat_natCast, placed]
    rw [behind.shape, List.take_left]
    exact behind.line

/--
The blanks before a token belong to the tiling up to it, counted from where the scanner stood.
-/
theorem tiles_front
    (behind : scanner.Behind source before)
    (tiles : Tiles source scanner.position tokens) :
    Tiles source scanner.front.position tokens := by
  have placed := behind.position
  have frontPlaced := behind.front.position
  rw [List.length_append] at frontPlaced
  refine tiles.skip (by omega) fun place char onward inside found => ?_
  have inBlanks : (scanner.rest.takeWhile Lexeme.isBlank)[place - before.length]? = some char := by
    rw [behind.front.shape, List.append_assoc, List.getElem?_append_right (by omega),
      List.getElem?_append_left (by omega)] at found
    exact found
  exact List.mem_takeWhile_imp (List.mem_of_getElem? inBlanks)

/-- The tokens that a scanner has given tile what it has passed. -/
theorem Reached.tiles
    (reached : Reached source tokens scanner) :
    (∃ before, scanner.Behind source before) ∧ Tiles source scanner.position tokens := by
  induction reached with
  | start =>
      exact ⟨⟨[], rfl, rfl, rfl⟩, .nil⟩
  | @token tokens scanner lexeme _ found inductionHypothesis =>
      obtain ⟨⟨before, behind⟩, tiles⟩ := inductionHypothesis
      have bounded := (Lexeme.liesIn_of_front? found).le_length
      have whole :=
        (tiles_front behind tiles).concat (tells_token behind.front found) rfl
      rw [List.length_take_of_le bounded] at whole
      exact ⟨⟨_, behind.front.past found⟩, whole⟩

/-! ### From the first token to the last -/

/-- No more tokens are given than characters are passed. -/
theorem Reached.length_le
    (reached : Reached source tokens scanner) :
    tokens.length + scanner.rest.length ≤ source.length := by
  induction reached with
  | start =>
      simp [ofSource]
  | @token tokens scanner lexeme _ found inductionHypothesis =>
      have pos := (Lexeme.liesIn_of_front? found).pos
      have bounded := (Lexeme.liesIn_of_front? found).le_length
      have shrinks := length_skipBlanks_le scanner.rest scanner.position scanner.line
      rw [← front] at shrinks
      simp only [past, List.length_append, List.length_singleton, List.length_drop]
      omega

/-- A scanner comes to a place where it reads no further token. -/
theorem Reached.exists_last
    {source : List Char}
    {tokens : List Token}
    {scanner : Scanner}
    (reached : Reached source tokens scanner) :
    ∃ others last, Reached source others last ∧ Lexeme.front? last.front.rest = none := by
  cases found : Lexeme.front? scanner.front.rest with
  | none =>
      exact ⟨tokens, scanner, reached, found⟩
  | some lexeme =>
      have onward := reached.token found
      have bounded : tokens.length < source.length := by
        have counted := onward.length_le
        rw [List.length_append, List.length_singleton] at counted
        omega
      exact onward.exists_last
termination_by source.length - tokens.length

/-- A lexeme at the front is the next token. -/
theorem next_of_some
    {lexeme : Lexeme}
    (found : Lexeme.front? scanner.front.rest = some lexeme) :
    scanner.next = (.ok (scanner.front.token lexeme), scanner.front.past lexeme) := by
  rcases scanner.next_cases with
    ⟨atEnd, _⟩ | ⟨other, foundToo, scanned⟩ | ⟨error, _, missing, _⟩
  · rw [atEnd] at found
    cases found
  · obtain rfl := Option.some.inj (found.symm.trans foundToo)
    exact scanned
  · rw [missing] at found
    cases found

/-- Where no token can be read, the scanner ends the input or reports the next character. -/
theorem next_of_none
    (missing : Lexeme.front? scanner.front.rest = none) :
    scanner.next =
      (match scanner.front.rest with
        | [] => .ok scanner.front.ending
        | char :: _ =>
            .error
              { line := scanner.front.line
                offset := scanner.front.position
                problem := .unexpected char },
        scanner.front) := by
  unfold next
  simp only
  rw [← front, missing]
  cases scanner.front.rest with
  | nil =>
      rfl
  | cons char rest =>
      rfl

/-- The answers of a scanner are the tokens that it has given, and those of what is left. -/
theorem Reached.answers_eq
    (reached : Reached source tokens scanner)
    (count : Nat) :
    (ofSource source).answers (tokens.length + count) =
      tokens.map .ok ++ scanner.answers count := by
  induction reached generalizing count with
  | start =>
      simp
  | @token tokens scanner lexeme _ found inductionHypothesis =>
      rw [List.length_append, List.length_singleton, Nat.add_assoc, Nat.add_comm 1,
        inductionHypothesis, answers, next_of_some found]
      simp

/-- Where no token can be read, the scanner gives the same answer again and again. -/
theorem answers_of_none
    (missing : Lexeme.front? scanner.front.rest = none)
    (count : Nat) :
    scanner.answers count = List.replicate count scanner.next.1 := by
  induction count generalizing scanner with
  | zero =>
      rfl
  | succ count inductionHypothesis =>
      have stays : scanner.next.2 = scanner.front := by
        rw [next_of_none missing]
      have again := @inductionHypothesis scanner.front (by rwa [front_front])
      rw [answers, stays, again, next_front, List.replicate_succ]

/-- Scanning goes on from the scanner that was reached, with the tokens so far in front. -/
theorem Reached.tokensWithin_eq
    (reached : Reached source tokens scanner)
    (count : Nat) :
    (ofSource source).tokensWithin (tokens.length + count) =
      (scanner.tokensWithin count).map (tokens ++ ·) := by
  induction reached generalizing count with
  | start =>
      simp only [List.length_nil, Nat.zero_add, List.nil_append]
      cases (ofSource source).tokensWithin count <;> rfl
  | @token tokens scanner lexeme _ found inductionHypothesis =>
      have goesOn : (scanner.front.token lexeme).kind ≠ .endOfInput :=
        (Lexeme.liesIn_of_front? found).goesOn
      rw [List.length_append, List.length_singleton, Nat.add_assoc, Nat.add_comm 1,
        inductionHypothesis, tokensWithin]
      simp only [next_of_some found, goesOn, ↓reduceIte]
      cases (scanner.front.past lexeme).tokensWithin count with
      | error error =>
          rfl
      | ok more =>
          simp [Except.map]

end Scanner

/-- Scanning a source gives the tokens up to where no other can be read, and the answer there. -/
theorem tokenize_of_reached
    {source : List Char}
    {tokens : List Token}
    {scanner : Scanner}
    (reached : Scanner.Reached source tokens scanner)
    (missing : Lexeme.front? scanner.front.rest = none) :
    tokenize source = scanner.next.1.map (tokens ++ [·]) := by
  have bounded := reached.length_le
  have counted : source.length + 1 = tokens.length + (source.length - tokens.length + 1) := by
    omega
  rw [tokenize, counted, reached.tokensWithin_eq, Scanner.tokensWithin,
    Scanner.next_of_none missing]
  cases scanner.front.rest <;> rfl

/--
The tokens of a source tile it, and the last of them is the only one that ends the input.  Where
no token can be read, the tokens before that place tile the source up to it, and the character there
is not a blank.  Each token tells its line, as does the error.  A scanner that is asked again and
again gives the tokens one by one, and from then on the end of the input, or the error, each time.
-/
theorem tokenize_tiles_source
    (source : List Char) :
    match tokenize source with
    | .ok tokens =>
        ∃ read last,
          tokens = read ++ [last] ∧
            Tiles source source.length read ∧
            last = ⟨.endOfInput, source.length, 0, lineCount source⟩ ∧
            ∀ more,
              (Scanner.ofSource source).answers (read.length + more) =
                read.map .ok ++ List.replicate more (.ok last)
    | .error error =>
        ∃ read offset char,
          Tiles source offset read ∧
            source[offset]? = some char ∧
            Lexeme.isBlank char = false ∧
            error = ⟨lineCount (source.take offset), offset, .unexpected char⟩ ∧
            ∀ more,
              (Scanner.ofSource source).answers (read.length + more) =
                read.map .ok ++ List.replicate more (.error error) := by
  obtain ⟨read, scanner, reached, missing⟩ :=
    (Scanner.Reached.start : Scanner.Reached source _ _).exists_last
  obtain ⟨⟨before, behind⟩, tiles⟩ := reached.tiles
  have tilesUpTo := Scanner.tiles_front behind tiles
  have answered (more : Nat) :
      (Scanner.ofSource source).answers (read.length + more) =
        read.map .ok ++ List.replicate more scanner.next.1 := by
    rw [reached.answers_eq, Scanner.answers_of_none missing]
  obtain ⟨passed, sourceShape, placed, onLine⟩ : ∃ passed, scanner.front.Behind source passed :=
    ⟨_, behind.front⟩
  rw [tokenize_of_reached reached missing]
  simp only [Scanner.next_of_none missing] at answered ⊢
  cases restShape : scanner.front.rest with
  | nil =>
      rw [restShape, List.append_nil] at sourceShape
      rw [← sourceShape] at placed onLine
      rw [placed] at tilesUpTo
      simp only [restShape] at answered ⊢
      refine ⟨read, _, rfl, tilesUpTo, ?_, answered⟩
      rw [Scanner.ending, placed, onLine]
  | cons char rest =>
      rw [restShape] at sourceShape
      have found : source[scanner.front.position]? = some char := by
        rw [sourceShape, placed, List.getElem?_append_right (Nat.le_refl _), Nat.sub_self]
        rfl
      have taken : source.take scanner.front.position = passed := by
        rw [sourceShape, placed, List.take_left]
      simp only [restShape] at answered ⊢
      refine
        ⟨read, scanner.front.position, char, tilesUpTo, found,
          Scanner.isBlank_of_rest_front restShape, ?_, answered⟩
      rw [taken, onLine]

end Reckon
