import Reckon.Proofs.Token.LongestLexeme

namespace Reckon

/-!
# Layout of tokens

Lexemes that are written one behind the other, with blanks between them, are scanned as the same
tokens wherever they stood before.  A lexeme is found again where it stands alone, and a blank
behind it ends it.
-/

namespace Lexeme

/-- A text is a lexeme of one kind only. -/
theorem Spells.unique
    {text : List Char}
    {kind other : TokenKind}
    (spells : Spells text kind)
    (otherwise : Spells text other) :
    kind = other := by
  cases spells with
  | number member =>
      cases otherwise with
      | number _ => rfl
      | keyword word _ => cases (lead?_of_mem_numbers member).symm.trans (lead?_of_mem_words word)
      | identifier word _ =>
          cases (lead?_of_mem_numbers member).symm.trans (lead?_of_mem_words word)
      | operator entry =>
          cases (lead?_of_mem_numbers member).symm.trans (lead?_of_mem_operators ⟨_, entry⟩)
  | keyword member reserved =>
      cases otherwise with
      | number digits => cases (lead?_of_mem_words member).symm.trans (lead?_of_mem_numbers digits)
      | keyword _ reservedToo =>
          have found := find?_keywords_eq_some_iff.mpr reserved
          rw [find?_keywords_eq_some_iff.mpr reservedToo] at found
          exact (Option.some.inj found).symm
      | identifier _ unreserved => exact (unreserved ⟨_, reserved⟩).elim
      | operator entry =>
          cases (lead?_of_mem_words member).symm.trans (lead?_of_mem_operators ⟨_, entry⟩)
  | identifier member unreserved =>
      cases otherwise with
      | number digits => cases (lead?_of_mem_words member).symm.trans (lead?_of_mem_numbers digits)
      | keyword _ reserved => exact (unreserved ⟨_, reserved⟩).elim
      | identifier _ _ => rfl
      | operator entry =>
          cases (lead?_of_mem_words member).symm.trans (lead?_of_mem_operators ⟨_, entry⟩)
  | operator entry =>
      have led := lead?_of_mem_operators ⟨_, entry⟩
      cases otherwise with
      | number digits => cases led.symm.trans (lead?_of_mem_numbers digits)
      | keyword word _ => cases led.symm.trans (lead?_of_mem_words word)
      | identifier word _ => cases led.symm.trans (lead?_of_mem_words word)
      | operator entryToo =>
          have found := find?_operators_eq_some_iff.mpr entry
          rw [find?_operators_eq_some_iff.mpr entryToo] at found
          exact (Option.some.inj found).symm

/--
A lexeme that stands alone is scanned as it was in a longer text, as nothing shorter is taken of
it.
-/
theorem front?_take
    {text : List Char}
    {lexeme : Lexeme}
    (found : front? text = some lexeme) :
    front? (text.take lexeme.length) = some lexeme := by
  obtain ⟨isLongest, spells⟩ := isLongest_of_front? found
  have liesIn := liesIn_of_front? found
  have taken := List.length_take_of_le liesIn.le_length
  cases foundAlone : front? (text.take lexeme.length) with
  | none =>
      have noLexeme :=
        not_mem_lexemes_of_front? foundAlone (List.prefix_refl _) isLongest.present
      exact (noLexeme isLongest.member).elim
  | some alone =>
      obtain ⟨isLongestAlone, spellsAlone⟩ := isLongest_of_front? foundAlone
      have liesAlone := liesIn_of_front? foundAlone
      have whole : alone.length = lexeme.length := by
        have above := liesAlone.le_length
        have below := isLongestAlone.longest _ (List.prefix_refl _) isLongest.member
        rw [List.length_take_of_le liesAlone.le_length] at below
        omega
      rw [whole, List.take_take, Nat.min_self] at spellsAlone
      have sameKind := spellsAlone.unique spells
      have sameReport : alone.reported = lexeme.reported := by
        rw [liesAlone.reported, liesIn.reported, sameKind, whole]
      rw [show alone = lexeme by cases alone; cases lexeme; simp_all]

end Lexeme

/-- The texts are written one behind the other, with blanks between them and behind the last. -/
inductive Layout : List (List Char) → List Char → Prop where
  | nil :
      Layout [] []
  | cons
      {text gap written : List Char}
      {texts : List (List Char)}
      (blank : ∀ char ∈ gap, Lexeme.isBlank char = true)
      (apart : texts ≠ [] → gap ≠ [])
      (following : Layout texts written) :
      Layout (text :: texts) (text ++ gap ++ written)

namespace Token

/-- What a token is apart from its place: its kind and its lexeme. -/
def spelling (source : List Char) (token : Token) : TokenKind × Option (List Char) :=
  (token.kind, token.text? source)

end Token

namespace Scanner

/-- The end of the input has the empty text for its lexeme. -/
theorem text?_ending
    (source : List Char)
    (scanner : Scanner) :
    scanner.ending.text? source = some [] := by
  have stops : scanner.ending.stop = scanner.position := by
    simp [ending, Token.stop, TokenKind.isNumber]
  have starts : scanner.ending.start = scanner.position :=
    rfl
  have notBefore : ¬ (scanner.position : Int) < -0x8000000000000000 := by
    omega
  simp only [Token.text?, stops, starts, notBefore, ↓reduceIte, Int.min_le_left]
  split <;> rfl

/-- The end of the input is spelled with nothing. -/
theorem Yields.spelling_last
    {scanner : Scanner}
    {read : List Token}
    {last : Token}
    (yields : scanner.Yields read last)
    (source : List Char) :
    last.spelling source = (.endOfInput, some []) := by
  induction yields with
  | @ending scanner _ =>
      rw [Token.spelling, text?_ending]
      rfl
  | token _ _ inductionHypothesis =>
      exact inductionHypothesis

/-- Where a lexeme is written behind blanks, and blanks or nothing behind it, it is found again. -/
theorem front?_of_layout
    {scanner : Scanner}
    {text before gap written : List Char}
    {texts : List (List Char)}
    {lexeme : Lexeme}
    (found : Lexeme.front? text = some lexeme)
    (whole : text.length = lexeme.length)
    (blankBefore : ∀ char ∈ before, Lexeme.isBlank char = true)
    (blank : ∀ char ∈ gap, Lexeme.isBlank char = true)
    (apart : texts ≠ [] → gap ≠ [])
    (following : Layout texts written)
    (shape : scanner.rest = before ++ (text ++ gap ++ written)) :
    scanner.front.rest = text ++ (gap ++ written) ∧
      Lexeme.front? scanner.front.rest = some lexeme := by
  have solid : ∀ char ∈ text, Lexeme.isBlank char = false := by
    intro char inside
    rw [← List.take_of_length_le (Nat.le_of_eq whole)] at inside
    exact Lexeme.isBlank_of_mem_take found inside
  have restShape : scanner.front.rest = text ++ (gap ++ written) := by
    rw [rest_front, shape, List.dropWhile_append_of_pos blankBefore, List.append_assoc]
    cases text with
    | nil => cases found
    | cons char rest =>
        rw [List.cons_append, List.dropWhile_cons_of_neg (by simp [solid char])]
  refine ⟨restShape, ?_⟩
  rw [restShape]
  cases gap with
  | nil =>
      cases following with
      | nil => simpa using found
      | cons => exact (apart (List.cons_ne_nil _ _) rfl).elim
  | cons char rest =>
      rw [List.cons_append, Lexeme.front?_append (blank char List.mem_cons_self), found]

/-- The tokens of a layout are spelled as those that the lexemes were taken from. -/
theorem Yields.exists_of_layout
    {source target : List Char}
    {scanner other : Scanner}
    {read : List Token}
    {last : Token}
    (yields : scanner.Yields read last)
    (isAt : scanner.IsAt source)
    (otherIsAt : other.IsAt target)
    {texts : List (List Char)}
    (lexemes : read.map (·.text? source) = texts.map some)
    {before written : List Char}
    (blankBefore : ∀ char ∈ before, Lexeme.isBlank char = true)
    (layout : Layout texts written)
    (shape : other.rest = before ++ written) :
    ∃ others otherLast,
      other.Yields others otherLast ∧
        others.map (·.spelling target) = read.map (·.spelling source) := by
  induction yields generalizing other texts before written with
  | @ending scanner atEnd =>
      obtain rfl : texts = [] := by
        simpa using lexemes.symm
      cases layout
      have absent : other.front.rest = [] := by
        rw [rest_front, shape, List.append_nil, List.dropWhile_eq_nil_iff]
        exact blankBefore
      exact ⟨[], _, .ending absent, rfl⟩
  | @token scanner lexeme tokens last found _ inductionHypothesis =>
      have frontIsAt : scanner.front.IsAt source := isAt_skipBlanks isAt _
      have pastIsAt : (scanner.front.past lexeme).IsAt source := by
        rw [IsAt, past, frontIsAt, List.drop_drop]
      have spans := (spans_token frontIsAt found).text?_eq
      cases texts with
      | nil =>
          simp at lexemes
      | cons text texts =>
          rw [List.map_cons, List.map_cons, spans] at lexemes
          obtain ⟨textShape, restLexemes⟩ := List.cons.inj lexemes
          obtain rfl := Option.some.inj textShape
          cases layout with
          | @cons _ gap written _ blank apart following =>
              have whole := List.length_take_of_le (Lexeme.liesIn_of_front? found).le_length
              obtain ⟨restShape, foundToo⟩ :=
                front?_of_layout (Lexeme.front?_take found) whole blankBefore blank apart
                  following shape
              have otherFrontIsAt : other.front.IsAt target := isAt_skipBlanks otherIsAt _
              have otherPastIsAt : (other.front.past lexeme).IsAt target := by
                rw [IsAt, past, otherFrontIsAt, List.drop_drop]
              have otherSpans := (spans_token otherFrontIsAt foundToo).text?_eq
              have pastShape : (other.front.past lexeme).rest = gap ++ written := by
                rw [past, restShape, List.drop_left' whole]
              obtain ⟨others, otherLast, othersYield, same⟩ :=
                inductionHypothesis pastIsAt otherPastIsAt restLexemes blank following pastShape
              refine ⟨_, otherLast, .token foundToo othersYield, ?_⟩
              rw [List.map_cons, List.map_cons, same, Token.spelling, Token.spelling, spans,
                otherSpans, restShape, List.take_left' whole]
              rfl

end Scanner

/--
The lexemes of a source can be written anew, with blanks between them, and are scanned as tokens
that are spelled in the same way.
-/
theorem tokenize_layout
    {source : List Char}
    {tokens : List Token}
    (tokenized : tokenize source = .ok tokens) :
    ∃ texts,
      tokens.dropLast.map (·.text? source) = texts.map some ∧
        ∀ before written,
          (∀ char ∈ before, Lexeme.isBlank char = true) →
          Layout texts written →
          ∃ others,
            tokenize (before ++ written) = .ok others ∧
              others.map (·.spelling (before ++ written)) = tokens.map (·.spelling source) := by
  obtain ⟨read, last, yields, rfl⟩ := tokenize_eq_ok_iff.mp tokenized
  have isAt : (Scanner.ofSource source).IsAt source := rfl
  have spanned :
      ∀ token ∈ read, token.text? source = some ((token.text? source).getD []) := by
    intro token member
    obtain ⟨text, spans⟩ := yields.exists_spans isAt token member
    rw [spans.text?_eq]
    rfl
  have lexemes :
      read.map (·.text? source) =
        (read.map fun token => (token.text? source).getD []).map some := by
    rw [List.map_map]
    exact List.map_congr_left spanned
  refine ⟨_, by rw [List.dropLast_concat]; exact lexemes, ?_⟩
  intro before written blankBefore layout
  have otherIsAt : (Scanner.ofSource (before ++ written)).IsAt (before ++ written) := rfl
  obtain ⟨others, otherLast, othersYield, same⟩ :=
    yields.exists_of_layout isAt otherIsAt lexemes blankBefore layout rfl
  refine ⟨_, tokenize_eq_ok_iff.mpr ⟨others, otherLast, othersYield, rfl⟩, ?_⟩
  simp only [List.map_append, same, List.map_singleton, yields.spelling_last,
    othersYield.spelling_last]

end Reckon
