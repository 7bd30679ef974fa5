import Reckon.Proofs.Syntax.Viability

namespace Reckon

/-!
# Offending tokens

A token offends behind those before it if no program begins with the tokens up to it, or if it is
a number without a value, or one number too many.  What is reported of it depends on where it
stands, and the first token that offends is reported in one way only.
-/

/-- Problems are told apart by their wording. -/
theorem CompileProblem.eq_of_message_eq
    {problem other : CompileProblem}
    (same : problem.message = other.message) :
    problem = other := by
  cases problem <;> cases other <;> first | rfl | simp [message] at same

namespace Token

/-- A problem at a token as it is reported; the end of the input shows no lexeme. -/
def reported (source : List Char) (token : Token) (problem : CompileProblem) : SourceError :=
  .compile
    { line := token.line
      lexeme := if token.kind = .endOfInput then [] else (token.text? source).getD []
      problem := problem }

/--
The token is wrong behind the tokens before it: no program goes on like this, or it is a number
that has no value, or the number behind 256 others.
-/
def Offends (source : List Char) (before : List Token) (token : Token) : Prop :=
  ¬ Viable (before ++ [token]) ∨
    token.kind.isNumber = true ∧
      (token.literal? source = none ∨
        (before.filter (·.kind.isNumber)).length = Chunk.maxConstants)

/-- How a token is refused with which no program goes on. -/
inductive Misplaced (before : List Token) (token : Token) : String → Prop where
  | assignment
      (refused : ¬ Viable (before ++ [token]))
      (assigns : token.kind = .assign)
      (behind : BehindExpression before) :
      Misplaced before token "invalid assignment target"
  | unclosed
      (refused : ¬ Viable (before ++ [token]))
      (assignsNot : token.kind ≠ .assign)
      (behind : BehindOpenExpression before) :
      Misplaced before token "expect ')' after expression"
  | other
      (refused : ¬ Viable (before ++ [token]))
      (noTarget : ¬ (token.kind = .assign ∧ BehindExpression before))
      (nothingOpen : ¬ BehindOpenExpression before) :
      Misplaced before token "unexpected token in expression position"

/-- The error that is reported of a token that offends. -/
inductive Reports (source : List Char) (before : List Token) (token : Token) :
    SourceError → Prop where
  | misplaced
      {problem : CompileProblem}
      (misplaced : Misplaced before token problem.message) :
      Reports source before token (token.reported source problem)
  | malformed
      {text : List Char}
      {error : LexicalError}
      (viable : Viable (before ++ [token]))
      (isNumber : token.kind.isNumber = true)
      (lexeme : token.text? source = some text)
      (refused : token.number text = .error error)
      (onLine : error.line = token.line)
      (atStart : error.offset = token.start) :
      Reports source before token (.lexical error)
  | tooMany
      (viable : Viable (before ++ [token]))
      (isNumber : token.kind.isNumber = true)
      (decoded : ∃ value, token.literal? source = some value)
      (full : (before.filter (·.kind.isNumber)).length = Chunk.maxConstants) :
      Reports source before token (token.reported source .tooManyConstants)

/-- None of the tokens offends behind those before it. -/
def Faultless (source : List Char) (tokens : List Token) : Prop :=
  ∀ before token after, tokens = before ++ token :: after → ¬ token.Offends source before

/-- The error is reported of the first of the tokens that offends. -/
def ReportsFirst (source : List Char) (tokens : List Token) (error : SourceError) : Prop :=
  ∃ before token after,
    tokens = before ++ token :: after ∧
      Faultless source before ∧ token.Reports source before error

/-! ### One report for each offence -/

section Reporting

variable
  {source : List Char}
  {before : List Token}
  {token : Token}

/-- A misplaced token cannot go on from what stands before it. -/
theorem Misplaced.refused
    {message : String}
    (misplaced : Misplaced before token message) :
    ¬ Viable (before ++ [token]) := by
  cases misplaced <;> assumption

/-- A misplaced token has one message. -/
theorem Misplaced.unique
    {message other : String}
    (misplaced : Misplaced before token message)
    (otherwise : Misplaced before token other) :
    message = other := by
  cases misplaced <;> cases otherwise
  case assignment.assignment | unclosed.unclosed | other.other => rfl
  case assignment.unclosed assigns _ _ assignsNot _ => exact (assignsNot assigns).elim
  case unclosed.assignment assignsNot _ _ assigns _ => exact (assignsNot assigns).elim
  case assignment.other assigns behind _ noTarget _ => exact (noTarget ⟨assigns, behind⟩).elim
  case other.assignment noTarget _ _ assigns behind => exact (noTarget ⟨assigns, behind⟩).elim
  case unclosed.other _ behind _ _ nothingOpen => exact (nothingOpen behind).elim
  case other.unclosed _ nothingOpen _ _ behind => exact (nothingOpen behind).elim

/-- A number that is refused has no value. -/
theorem literal?_eq_none_of_number
    {text : List Char}
    {error : LexicalError}
    (lexeme : token.text? source = some text)
    (refused : token.number text = .error error) :
    token.literal? source = none := by
  simp [literal?, lexeme, refused]

/-- Only a token that offends is reported. -/
theorem Reports.offends
    {error : SourceError}
    (reports : token.Reports source before error) :
    token.Offends source before := by
  cases reports with
  | misplaced misplaced =>
      exact Or.inl misplaced.refused
  | malformed _ isNumber lexeme refused _ _ =>
      exact Or.inr ⟨isNumber, Or.inl (literal?_eq_none_of_number lexeme refused)⟩
  | tooMany _ isNumber _ full =>
      exact Or.inr ⟨isNumber, Or.inr full⟩

/-- A token is reported in one way only. -/
theorem Reports.unique
    {error other : SourceError}
    (reports : token.Reports source before error)
    (otherwise : token.Reports source before other) :
    error = other := by
  cases reports with
  | misplaced misplaced =>
      cases otherwise with
      | misplaced elsewhere => rw [CompileProblem.eq_of_message_eq (misplaced.unique elsewhere)]
      | malformed viable => exact (misplaced.refused viable).elim
      | tooMany viable => exact (misplaced.refused viable).elim
  | malformed viable _ lexeme refused _ _ =>
      cases otherwise with
      | misplaced elsewhere => exact (elsewhere.refused viable).elim
      | malformed _ _ otherLexeme otherRefused _ _ =>
          obtain rfl := Option.some.inj (lexeme.symm.trans otherLexeme)
          rw [Except.error.inj (refused.symm.trans otherRefused)]
      | tooMany _ _ decoded _ =>
          simp [literal?_eq_none_of_number lexeme refused] at decoded
  | tooMany viable _ decoded _ =>
      cases otherwise with
      | misplaced elsewhere => exact (elsewhere.refused viable).elim
      | malformed _ _ lexeme refused _ _ =>
          simp [literal?_eq_none_of_number lexeme refused] at decoded
      | tooMany => rfl

end Reporting

/--
Of the same tokens, one error only is reported first.  Of two tokens that offend, the later one
would have an offence before it.
-/
theorem ReportsFirst.unique
    {source : List Char}
    {tokens : List Token}
    {error other : SourceError}
    (reports : ReportsFirst source tokens error)
    (otherwise : ReportsFirst source tokens other) :
    error = other := by
  obtain ⟨before, token, after, rfl, faultless, reported⟩ := reports
  obtain ⟨otherBefore, otherToken, otherAfter, shape, otherFaultless, otherReported⟩ :=
    otherwise
  rcases List.append_eq_append_iff.mp shape with
    ⟨between, otherShape, tokenShape⟩ | ⟨between, beforeShape, otherTokenShape⟩
  · cases between with
    | nil =>
        simp only [List.append_nil] at otherShape
        obtain ⟨rfl, rfl⟩ := List.cons.inj tokenShape
        subst otherShape
        exact reported.unique otherReported
    | cons first rest =>
        obtain ⟨rfl, _⟩ := List.cons.inj tokenShape
        exact (otherFaultless before _ rest otherShape reported.offends).elim
  · cases between with
    | nil =>
        simp only [List.append_nil] at beforeShape
        obtain ⟨rfl, rfl⟩ := List.cons.inj otherTokenShape
        subst beforeShape
        exact reported.unique otherReported
    | cons first rest =>
        obtain ⟨rfl, _⟩ := List.cons.inj otherTokenShape
        exact (faultless otherBefore _ rest beforeShape otherReported.offends).elim

end Token

end Reckon
