import Reckon.Proofs.Syntax.Offences
import Reckon.Proofs.Token.Layout

namespace Reckon

/-!
# Tokens that are spelled alike

Where tokens stand does not matter for what they derive as.  The code of a program depends on the
kinds of its tokens only, the constants on their lexemes as well, and so do the token that offends
first and what is wrong with it.
-/

namespace Token

/-- As many tokens are numbers if the kinds are the same. -/
theorem length_filter_isNumber_of_kinds
    {tokens others : List Token}
    (kinds : others.map (·.kind) = tokens.map (·.kind)) :
    (others.filter (·.kind.isNumber)).length = (tokens.filter (·.kind.isNumber)).length := by
  have counted := congrArg (List.countP TokenKind.isNumber) kinds
  rw [List.countP_map, List.countP_map] at counted
  rw [← List.countP_eq_length_filter, ← List.countP_eq_length_filter]
  exact counted

end Token

/-! ### Trees -/

namespace Expression

/-- Tokens of the same kinds derive as an expression with the same code. -/
theorem Derives.exists_of_kinds
    {level : BindingLevel}
    {tokens others : List Token}
    {expression : Expression}
    (derived : Derives level tokens expression)
    (kinds : others.map (·.kind) = tokens.map (·.kind)) :
    ∃ other,
      Derives level others other ∧
        ∀ first,
          (other.instructions first).map Instruction.units =
            (expression.instructions first).map Instruction.units := by
  induction derived generalizing others with
  | @number token isNumber =>
      obtain ⟨other, rfl, sameKind⟩ := List.map_eq_singleton_iff.mp kinds
      exact ⟨_, .number (by rwa [sameKind]), fun _ => rfl⟩
  | @group opening closing tokens inner opens _ closes inductionHypothesis =>
      rw [List.cons_append, List.map_cons, List.map_append, List.map_singleton] at kinds
      obtain ⟨otherOpening, rest, rfl, sameOpening, restKinds⟩ := List.map_eq_cons_iff.mp kinds
      obtain ⟨insides, ending, rfl, insideKinds, endKinds⟩ := List.map_eq_append_iff.mp restKinds
      obtain ⟨otherClosing, rfl, sameClosing⟩ := List.map_eq_singleton_iff.mp endKinds
      obtain ⟨otherInner, innerDerived, sameCode⟩ := inductionHypothesis insideKinds
      refine ⟨_, .group ?_ innerDerived ?_, sameCode⟩
      · rw [sameOpening, opens]
      · rw [sameClosing, closes]
  | operand _ inductionHypothesis =>
      obtain ⟨other, otherDerived, sameCode⟩ := inductionHypothesis kinds
      exact ⟨other, .operand otherDerived, sameCode⟩
  | @binary level leftTokens rightTokens left right sign operator leftDerived shows joins
      rightDerived leftHypothesis rightHypothesis =>
      rw [List.map_append, List.map_cons] at kinds
      obtain ⟨lefts, rest, rfl, leftKinds, restKinds⟩ := List.map_eq_append_iff.mp kinds
      obtain ⟨otherOperator, rights, rfl, sameOperator, rightKinds⟩ :=
        List.map_eq_cons_iff.mp restKinds
      obtain ⟨otherLeft, otherLeftDerived, sameLeft⟩ := leftHypothesis leftKinds
      obtain ⟨otherRight, otherRightDerived, sameRight⟩ := rightHypothesis rightKinds
      have sameCount : otherLeft.literals.length = left.literals.length := by
        rw [otherLeftDerived.literals_eq, leftDerived.literals_eq,
          Token.length_filter_isNumber_of_kinds leftKinds]
      refine ⟨_, .binary otherLeftDerived (sameOperator.trans shows) joins otherRightDerived, ?_⟩
      intro first
      simp only [instructions, List.map_append, sameLeft, sameRight, sameCount]
      rfl

end Expression

namespace Statement

/-- Tokens of the same kinds derive a statement with the same code. -/
theorem Derives.exists_of_kinds
    {tokens others : List Token}
    {statement : Statement}
    (derived : Derives tokens statement)
    (kinds : others.map (·.kind) = tokens.map (·.kind)) :
    ∃ other,
      Derives others other ∧
        other.closing.opcode = statement.closing.opcode ∧
        ∀ first,
          (other.instructions first).map Instruction.units =
            (statement.instructions first).map Instruction.units := by
  cases derived with
  | expression derived =>
      obtain ⟨other, otherDerived, sameCode⟩ := derived.exists_of_kinds kinds
      refine ⟨_, .expression otherDerived, rfl, fun first => ?_⟩
      simp only [instructions, body, List.map_append, sameCode]
      rfl
  | @assertion word tokens condition asserts derived =>
      obtain ⟨otherWord, rest, rfl, sameWord, restKinds⟩ := List.map_eq_cons_iff.mp kinds
      obtain ⟨other, otherDerived, sameCode⟩ := derived.exists_of_kinds restKinds
      refine ⟨_, .assertion (sameWord.trans asserts) otherDerived, rfl, fun first => ?_⟩
      simp only [instructions, body, List.map_append, sameCode]
      rfl

end Statement

namespace Script

/-- The program ends in an expression if its last statement drops its value. -/
theorem endsInExpression_eq
    (script : Script) :
    endsInExpression script =
      decide ((script.map (·.closing.opcode)).getLast? = some .pop) := by
  rw [endsInExpression, List.getLast?_map]
  cases script.getLast? with
  | none => rfl
  | some statement => cases statement <;> rfl

/-- Tokens of the same kinds derive as a program with the same code. -/
theorem Derives.exists_of_kinds
    {tokens others : List Token}
    {script : Script}
    (derived : Derives tokens script)
    (kinds : others.map (·.kind) = tokens.map (·.kind)) :
    ∃ other,
      Derives others other ∧
        other.map (·.closing.opcode) = script.map (·.closing.opcode) ∧
        ∀ first,
          (closed first other).map Instruction.units =
            (closed first script).map Instruction.units := by
  induction derived generalizing others with
  | nil =>
      obtain rfl := List.map_eq_nil_iff.mp kinds
      exact ⟨[], .nil, rfl, fun _ => rfl⟩
  | @cons tokens rest statement script derived _ inductionHypothesis =>
      rw [List.map_append] at kinds
      obtain ⟨firsts, others, rfl, firstKinds, restKinds⟩ := List.map_eq_append_iff.mp kinds
      obtain ⟨first, firstDerived, sameClosing, sameFirst⟩ := derived.exists_of_kinds firstKinds
      obtain ⟨other, otherDerived, sameClosings, sameRest⟩ := inductionHypothesis restKinds
      have sameCount : first.body.literals.length = statement.body.literals.length := by
        rw [firstDerived.literals_eq, derived.literals_eq,
          Token.length_filter_isNumber_of_kinds firstKinds]
      refine ⟨_, .cons firstDerived otherDerived, ?_, fun start => ?_⟩
      · rw [List.map_cons, List.map_cons, sameClosing, sameClosings]
      · simp only [closed, List.map_append, sameFirst, sameRest, sameCount]

/-- Wherever its statements stand, a program is closed with the same code. -/
theorem code_instructions_of_closed
    {script other : Script}
    (closings : other.map (·.closing.opcode) = script.map (·.closing.opcode))
    (same :
      ∀ first,
        (closed first other).map Instruction.units = (closed first script).map Instruction.units)
    (line otherLine : Int64) :
    Instruction.code (instructions otherLine other) =
      Instruction.code (instructions line script) := by
  have ends : endsInExpression other = endsInExpression script := by
    rw [endsInExpression_eq, endsInExpression_eq, closings]
  suffices
      (instructions otherLine other).map Instruction.units =
        (instructions line script).map Instruction.units by
    rw [Instruction.code, Instruction.code, List.flatMap_def, List.flatMap_def, this]
  rw [instructions, instructions, ends]
  split
  · rw [List.map_append, List.map_append, List.map_dropLast, List.map_dropLast, same]
    rfl
  · rw [List.map_append, List.map_append, same]
    rfl

end Script

/-! ### Beginnings -/

/-- Only the kinds of tokens matter for the stages that they pass. -/
theorem Stage.run_of_kinds
    {tokens others : List Token}
    (kinds : others.map (·.kind) = tokens.map (·.kind))
    (stage : Stage) :
    stage.run others = stage.run tokens := by
  have passed (list : List Token) :
      stage.run list = (list.map (·.kind)).foldlM (fun stage kind => stage.next kind) stage := by
    rw [List.foldlM_map]
    rfl
  rw [passed, passed, kinds]

section Kinds

variable
  {tokens others : List Token}
  (kinds : others.map (·.kind) = tokens.map (·.kind))

include kinds

/-- Only the kinds of tokens decide if they begin a program. -/
theorem viable_iff_of_kinds :
    Viable others ↔ Viable tokens := by
  rw [← Stage.isSome_run_iff_viable, ← Stage.isSome_run_iff_viable, Stage.run_of_kinds kinds]

/-- Only the kinds of tokens decide if they end in an expression. -/
theorem BehindExpression.of_kinds
    (behind : BehindExpression tokens) :
    BehindExpression others := by
  obtain ⟨before, inner, expression, rfl, derived⟩ := behind
  rw [List.map_append] at kinds
  obtain ⟨befores, inners, rfl, _, innerKinds⟩ := List.map_eq_append_iff.mp kinds
  obtain ⟨other, otherDerived, _⟩ := derived.exists_of_kinds innerKinds
  exact ⟨befores, inners, other, rfl, otherDerived⟩

/-- Only the kinds of tokens decide if they end in an expression inside a group. -/
theorem BehindOpenExpression.of_kinds
    (behind : BehindOpenExpression tokens) :
    BehindOpenExpression others := by
  obtain ⟨before, opening, inner, expression, rfl, opens, derived⟩ := behind
  rw [List.map_append, List.map_cons] at kinds
  obtain ⟨befores, rest, rfl, _, restKinds⟩ := List.map_eq_append_iff.mp kinds
  obtain ⟨otherOpening, inners, rfl, sameOpening, innerKinds⟩ := List.map_eq_cons_iff.mp restKinds
  obtain ⟨other, otherDerived, _⟩ := derived.exists_of_kinds innerKinds
  exact ⟨befores, otherOpening, inners, other, rfl, sameOpening.trans opens, otherDerived⟩

end Kinds

/-! ### Offences -/

namespace SourceError

/-- What an error says, apart from its place. -/
def detail : SourceError → String
  | .lexical error => error.detail
  | .compile error => error.problem.message

/-- Errors of the same kind with the same problem, wherever they are. -/
inductive Resembles : SourceError → SourceError → Prop where
  | lexical
      {error other : LexicalError}
      (problem : error.problem = other.problem) :
      Resembles (.lexical error) (.lexical other)
  | compile
      {error other : CompileError}
      (lexeme : error.lexeme = other.lexeme)
      (problem : error.problem = other.problem) :
      Resembles (.compile error) (.compile other)

/-- Errors that resemble each other say the same. -/
theorem Resembles.detail_eq
    {error other : SourceError}
    (resembles : error.Resembles other) :
    error.detail = other.detail := by
  cases resembles with
  | lexical problem =>
      simp only [detail, LexicalError.detail, problem]
  | compile _ problem =>
      simp only [detail, problem]

end SourceError

namespace Token

/-- The error is reported of the token at an index, and none before it offends. -/
def ReportsAt
    (source : List Char)
    (tokens : List Token)
    (index : Nat)
    (error : SourceError) :
    Prop :=
  ∃ before token after,
    tokens = before ++ token :: after ∧
      before.length = index ∧
      Faultless source before ∧
      token.Reports source before error

/-- Tokens that are spelled alike are of the same kinds. -/
theorem kinds_of_spellings
    {source target : List Char}
    {tokens others : List Token}
    (spelled : others.map (·.spelling target) = tokens.map (·.spelling source)) :
    others.map (·.kind) = tokens.map (·.kind) := by
  have kinds := congrArg (List.map Prod.fst) spelled
  rwa [List.map_map, List.map_map] at kinds

section Spelled

variable
  {source target : List Char}
  {token other : Token}
  (same : other.spelling target = token.spelling source)

include same

theorem kind_of_spelling :
    other.kind = token.kind :=
  congrArg Prod.fst same

theorem text?_of_spelling :
    other.text? target = token.text? source :=
  congrArg Prod.snd same

/-- Numbers that are spelled alike have the same value. -/
theorem literal?_of_spelling :
    other.literal? target = token.literal? source := by
  simp only [literal?, text?_of_spelling same, number, kind_of_spelling same]
  cases token.text? source with
  | none =>
      rfl
  | some text =>
      simp only
      cases Literal.decode token.kind text <;> rfl

/-- Problems at tokens that are spelled alike resemble each other. -/
theorem reported_resembles
    (problem : CompileProblem) :
    (token.reported source problem).Resembles (other.reported target problem) := by
  refine .compile ?_ rfl
  simp only [text?_of_spelling same, kind_of_spelling same]

variable
  {before befores : List Token}
  (spelled : befores.map (·.spelling target) = before.map (·.spelling source))

include spelled

theorem kinds_concat :
    (befores ++ [other]).map (·.kind) = (before ++ [token]).map (·.kind) := by
  simp only [List.map_append, kinds_of_spellings spelled, List.map_singleton,
    kind_of_spelling same]

/-- A token offends where one that is spelled alike does. -/
theorem offends_iff_of_spelling :
    other.Offends target befores ↔ token.Offends source before := by
  simp only [Offends, viable_iff_of_kinds (kinds_concat same spelled), kind_of_spelling same,
    literal?_of_spelling same,
    length_filter_isNumber_of_kinds (kinds_of_spellings spelled)]

/-- A token is misplaced where one that is spelled alike is, with the same message. -/
theorem Misplaced.of_spelling
    {message : String}
    (misplaced : Misplaced before token message) :
    Misplaced befores other message := by
  have kinds := kinds_of_spellings spelled
  have sameKind := kind_of_spelling same
  have refusedToo (refused : ¬ Viable (before ++ [token])) : ¬ Viable (befores ++ [other]) := by
    rwa [viable_iff_of_kinds (kinds_concat same spelled)]
  cases misplaced with
  | assignment refused assigns behind =>
      exact .assignment (refusedToo refused) (sameKind.trans assigns) (behind.of_kinds kinds)
  | unclosed refused assignsNot behind =>
      exact .unclosed (refusedToo refused) (by rwa [sameKind]) (behind.of_kinds kinds)
  | other refused noTarget nothingOpen =>
      refine .other (refusedToo refused) ?_ fun behind => nothingOpen (behind.of_kinds kinds.symm)
      rw [sameKind]
      exact fun target => noTarget ⟨target.1, target.2.of_kinds kinds.symm⟩

/-- What is reported of a token is reported of one that is spelled alike. -/
theorem Reports.exists_of_spelling
    {error : SourceError}
    (reports : token.Reports source before error) :
    ∃ otherError, other.Reports target befores otherError ∧ error.Resembles otherError := by
  have viable := viable_iff_of_kinds (kinds_concat same spelled)
  have sameKind := kind_of_spelling same
  cases reports with
  | @misplaced problem misplaced =>
      exact ⟨_, .misplaced (misplaced.of_spelling same spelled), reported_resembles same problem⟩
  | @malformed text error isViable isNumber lexeme refused _ _ =>
      have lexemeToo := (text?_of_spelling same).trans lexeme
      simp only [number] at refused
      split at refused
      next => cases refused
      next problem undecoded =>
        cases refused
        have refusedToo :
            other.number text =
              .error
                { line := other.line
                  offset := other.start
                  problem := .malformed text problem } := by
          simp only [number, sameKind, undecoded]
        refine ⟨_, .malformed (viable.mpr isViable) ?_ lexemeToo refusedToo rfl rfl, .lexical rfl⟩
        rwa [sameKind]
  | tooMany isViable isNumber decoded full =>
      refine ⟨_, .tooMany (viable.mpr isViable) ?_ ?_ ?_, reported_resembles same _⟩
      · rwa [sameKind]
      · rwa [literal?_of_spelling same]
      · rwa [length_filter_isNumber_of_kinds (kinds_of_spellings spelled)]

end Spelled

section AllSpelled

variable
  {source target : List Char}
  {tokens others : List Token}
  (spelled : others.map (·.spelling target) = tokens.map (·.spelling source))

include spelled

/-- Tokens that are spelled as faultless ones are faultless. -/
theorem Faultless.of_spelling
    (faultless : Faultless source tokens) :
    Faultless target others := by
  rintro befores other after rfl offends
  rw [List.map_append, List.map_cons] at spelled
  obtain ⟨before, rest, rfl, beforeSpelled, restSpelled⟩ := List.map_eq_append_iff.mp spelled.symm
  obtain ⟨token, following, rfl, same, _⟩ := List.map_eq_cons_iff.mp restSpelled
  refine faultless before token following rfl ?_
  exact (offends_iff_of_spelling same.symm beforeSpelled.symm).mp offends

/-- An error is reported of the token at the same index. -/
theorem ReportsAt.exists_of_spelling
    {index : Nat}
    {error : SourceError}
    (reports : ReportsAt source tokens index error) :
    ∃ otherError, ReportsAt target others index otherError ∧ error.Resembles otherError := by
  obtain ⟨before, token, after, rfl, rfl, faultless, reported⟩ := reports
  rw [List.map_append, List.map_cons] at spelled
  obtain ⟨befores, rest, rfl, beforeSpelled, restSpelled⟩ := List.map_eq_append_iff.mp spelled
  obtain ⟨other, following, rfl, same, _⟩ := List.map_eq_cons_iff.mp restSpelled
  obtain ⟨otherError, otherReported, resembles⟩ := reported.exists_of_spelling same beforeSpelled
  have sameLength : befores.length = before.length := by
    simpa using congrArg List.length beforeSpelled
  exact
    ⟨otherError,
      ⟨befores, other, following, rfl, sameLength, faultless.of_spelling beforeSpelled,
        otherReported⟩,
      resembles⟩

/-- The numbers among the tokens have the same values. -/
theorem literals_of_spelling :
    (others.filter (·.kind.isNumber)).filterMap (literal? target) =
      (tokens.filter (·.kind.isNumber)).filterMap (literal? source) := by
  induction tokens generalizing others with
  | nil =>
      rw [List.map_eq_nil_iff.mp spelled]
      rfl
  | cons token tokens inductionHypothesis =>
      obtain ⟨other, rest, rfl, same, restSpelled⟩ := List.map_eq_cons_iff.mp spelled
      have following := inductionHypothesis restSpelled
      rw [List.filter_cons, List.filter_cons, kind_of_spelling same]
      split
      · rw [List.filterMap_cons, List.filterMap_cons, literal?_of_spelling same, following]
      · exact following

end AllSpelled

end Token

end Reckon
