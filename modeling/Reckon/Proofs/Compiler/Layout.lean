import Reckon.Proofs.Compiler.Reporting
import Reckon.Proofs.Syntax.Spelling

namespace Reckon

/-!
# Layout of programs

How a program is laid out does not matter.  Sources whose tokens are spelled alike compile to the
same code and constants, or both are reported, at the same token and for the same problem.
-/

namespace Compiler

section Tokenized

variable
  (compiler : Compiler)
  {source : List Char}
  {tokens : List Token}
  (tokenized : tokenize source = .ok tokens)

include tokenized

/-- A source that is scanned compiles as its tokens do. -/
theorem compile_eq_compileTokens :
    compiler.compile source = compiler.compileTokens source tokens := by
  rw [compile, tokenized]

/-- A source that fails is reported at an index of its tokens. -/
theorem compile_eq_failed_iff
    (error : SourceError) :
    (compiler.compile source).1 = .failed error ↔
      ∃ index, Token.ReportsAt source tokens index error := by
  rw [compile_eq_compileTokens compiler tokenized, compileTokens_eq_failed_iff compiler tokenized]
  constructor
  · rintro ⟨before, token, after, shape, faultless, reports⟩
    exact ⟨_, before, token, after, shape, rfl, faultless, reports⟩
  · rintro ⟨_, before, token, after, shape, _, faultless, reports⟩
    exact ⟨before, token, after, shape, faultless, reports⟩

/-- A source that compiles gives the chunk of its program. -/
theorem exists_script_of_compile
    {function : Function}
    (compiled : (compiler.compile source).1 = .done function) :
    ∃ script, Script.Derives (Token.beforeEnd tokens) script := by
  rw [compile_eq_compileTokens compiler tokenized] at compiled
  have placed : Placed tokens := Scanner.start_nonneg_of_tokensWithin tokenized
  obtain ⟨script, derived, _⟩ := exists_script_of_done compiler source tokens placed compiled
  exact ⟨script, derived⟩

/-- What a source compiles to has the code of any derivation of its tokens. -/
theorem chunk?_of_compile
    {function : Function}
    (compiled : (compiler.compile source).1 = .done function)
    {script : Script}
    (derived : Script.Derives (Token.beforeEnd tokens) script) :
    function.chunk? = some (Script.chunk source (Token.endLine tokens) script) := by
  rw [compile_eq_compileTokens compiler tokenized] at compiled
  have placed : Placed tokens := Scanner.start_nonneg_of_tokensWithin tokenized
  obtain ⟨_, rfl⟩ := eq_function_of_done compiler source tokens placed compiled derived
  rfl

/-- Compiling a source that is scanned is never aborted. -/
theorem compile_ne_aborted :
    (compiler.compile source).1 ≠ .aborted := by
  have placed : Placed tokens := Scanner.start_nonneg_of_tokensWithin tokenized
  rw [compile_eq_compileTokens compiler tokenized]
  exact (meets_compileTokens compiler source tokens placed).ne_aborted

end Tokenized

/-- Tokens that are spelled alike end alike. -/
theorem beforeEnd_of_spelling
    {source target : List Char}
    {tokens others : List Token}
    (spelled : others.map (·.spelling target) = tokens.map (·.spelling source)) :
    (Token.beforeEnd others).map (·.spelling target) =
      (Token.beforeEnd tokens).map (·.spelling source) := by
  have cut := congrArg (List.takeWhile fun spelling => decide (spelling.1 ≠ .endOfInput)) spelled
  rwa [List.takeWhile_map, List.takeWhile_map] at cut

/-- Programs that are spelled alike have the same code and constants. -/
theorem chunk_of_spelling
    {source target : List Char}
    {tokens others : List Token}
    (spelled : others.map (·.spelling target) = tokens.map (·.spelling source))
    {script : Script}
    (derived : script.Derives tokens) :
    ∃ other : Script,
      other.Derives others ∧
        ∀ line otherLine,
          (Script.chunk target otherLine other).code = (Script.chunk source line script).code ∧
            (Script.chunk target otherLine other).constants =
              (Script.chunk source line script).constants := by
  obtain ⟨other, otherDerived, closings, sameCode⟩ :=
    derived.exists_of_kinds (Token.kinds_of_spellings spelled)
  refine ⟨other, otherDerived, fun line otherLine => ⟨?_, ?_⟩⟩
  · exact Script.code_instructions_of_closed closings sameCode line otherLine
  · simp only [Script.chunk, Script.constants, otherDerived.literals_eq, derived.literals_eq]
    exact Token.literals_of_spelling spelled

/--
The lexemes of a source can be written anew with any blanks between them, and are scanned as tokens
of the same kinds and lexemes.  Any two sources with such tokens either both compile, to the same
code and constants, or both are reported at the token with the same index, by errors of the same
kind that say the same.
-/
theorem compile_ignores_layout
    {source : List Char}
    {tokens : List Token}
    (tokenized : tokenize source = .ok tokens) :
    (∃ texts,
      tokens.dropLast.map (·.text? source) = texts.map some ∧
        ∀ before written,
          (∀ char ∈ before, Lexeme.isBlank char = true) →
          Layout texts written →
          ∃ others,
            tokenize (before ++ written) = .ok others ∧
              others.map (·.spelling (before ++ written)) = tokens.map (·.spelling source)) ∧
      ∀ target others,
        tokenize target = .ok others →
        others.map (·.spelling target) = tokens.map (·.spelling source) →
        ∀ compiler otherCompiler : Compiler,
          (∃ function chunk otherFunction otherChunk,
            (compiler.compile source).1 = .done function ∧
              function.chunk? = some chunk ∧
              (otherCompiler.compile target).1 = .done otherFunction ∧
              otherFunction.chunk? = some otherChunk ∧
              otherChunk.code = chunk.code ∧
              otherChunk.constants = chunk.constants) ∨
            ∃ index error otherError,
              (compiler.compile source).1 = .failed error ∧
                Token.ReportsAt source tokens index error ∧
                (otherCompiler.compile target).1 = .failed otherError ∧
                Token.ReportsAt target others index otherError ∧
                error.Resembles otherError ∧
                error.detail = otherError.detail := by
  refine ⟨tokenize_layout tokenized, ?_⟩
  intro target others othersTokenized spelled compiler otherCompiler
  cases compiled : (compiler.compile source).1 with
  | aborted =>
      exact (compile_ne_aborted compiler tokenized compiled).elim
  | failed error =>
      obtain ⟨index, reports⟩ := (compile_eq_failed_iff compiler tokenized error).mp compiled
      obtain ⟨otherError, otherReports, resembles⟩ := reports.exists_of_spelling spelled
      have otherCompiled :=
        (compile_eq_failed_iff otherCompiler othersTokenized otherError).mpr ⟨index, otherReports⟩
      exact Or.inr
        ⟨index, error, otherError, rfl, reports, otherCompiled, otherReports, resembles,
          resembles.detail_eq⟩
  | done function =>
      obtain ⟨script, derived⟩ := exists_script_of_compile compiler tokenized compiled
      cases otherCompiled : (otherCompiler.compile target).1 with
      | aborted =>
          exact (compile_ne_aborted otherCompiler othersTokenized otherCompiled).elim
      | failed error =>
          obtain ⟨index, reports⟩ :=
            (compile_eq_failed_iff otherCompiler othersTokenized error).mp otherCompiled
          obtain ⟨otherError, otherReports, _⟩ := reports.exists_of_spelling spelled.symm
          have failed :=
            (compile_eq_failed_iff compiler tokenized otherError).mpr ⟨index, otherReports⟩
          rw [compiled] at failed
          cases failed
      | done otherFunction =>
          obtain ⟨other, otherDerived, same⟩ :=
            chunk_of_spelling (beforeEnd_of_spelling spelled) derived
          have chunkShape := chunk?_of_compile compiler tokenized compiled derived
          have otherChunkShape :=
            chunk?_of_compile otherCompiler othersTokenized otherCompiled otherDerived
          obtain ⟨sameCode, sameConstants⟩ := same (Token.endLine tokens) (Token.endLine others)
          exact Or.inl
            ⟨function, _, otherFunction, _, rfl, chunkShape, rfl, otherChunkShape, sameCode,
              sameConstants⟩

/-- The lexemes of the group that is assigned to, with other blanks between them. -/
def spacedGroup : List Char :=
  "(\t1 == 2 =\r\n3 ".toList

theorem layout_spacedGroup :
    Layout [['('], ['1'], ['=', '='], ['2'], ['='], ['3']] spacedGroup :=
  @Layout.cons ['('] ['\t'] _ _ (by simp [Lexeme.isBlank]) (by simp) <|
    @Layout.cons ['1'] [' '] _ _ (by simp [Lexeme.isBlank]) (by simp) <|
    @Layout.cons ['=', '='] [' '] _ _ (by simp [Lexeme.isBlank]) (by simp) <|
    @Layout.cons ['2'] [' '] _ _ (by simp [Lexeme.isBlank]) (by simp) <|
    @Layout.cons ['='] ['\r', '\n'] _ _ (by simp [Lexeme.isBlank]) (by simp) <|
    @Layout.cons ['3'] [' '] _ _ (by simp [Lexeme.isBlank]) (by simp) .nil

/-- With other blanks in it and before it, the group is refused for the same reason. -/
theorem compile_ignores_layout_of_spacedGroup :
    Layout [['('], ['1'], ['=', '='], ['2'], ['='], ['3']] spacedGroup ∧
      ∃ tokens others index error,
        tokenize assignedGroup = .ok tokens ∧
          tokenize (' ' :: spacedGroup) = .ok others ∧
          (Compiler.new.compile (' ' :: spacedGroup)).1 = .failed error ∧
          Token.ReportsAt (' ' :: spacedGroup) others index error ∧
          error.detail = "invalid assignment target" := by
  obtain ⟨⟨texts, lexemes, rewritten⟩, same⟩ := compile_ignores_layout tokenize_assignedGroup
  obtain rfl : texts = [['('], ['1'], ['=', '='], ['2'], ['='], ['3']] := by
    refine List.map_injective_iff.mpr (Option.some_injective _) (lexemes.symm.trans ?_)
    rfl
  obtain ⟨others, scanned, spelled⟩ :=
    rewritten [' '] spacedGroup (by simp [Lexeme.isBlank]) layout_spacedGroup
  rcases same _ others scanned spelled Compiler.new Compiler.new with
    ⟨_, _, _, _, compiled, _⟩ | ⟨index, _, error, failed, _, failedToo, reports, _, same⟩
  · rw [compile_assignedGroup] at compiled
    cases compiled
  · rw [compile_assignedGroup] at failed
    cases failed
    exact
      ⟨layout_spacedGroup, _, others, index, error, tokenize_assignedGroup, scanned, failedToo,
        reports, same.symm⟩

end Compiler

end Reckon
