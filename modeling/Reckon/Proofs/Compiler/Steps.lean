import Reckon.Compiler.Program
import Reckon.Proofs.Outcome
import Reckon.Proofs.Syntax.Postfix

namespace Reckon

/-!
# Steps of the compiler

Each step of the compiler that reads a token or appends code is described once, for a compiler
between any tokens with any chunk.
-/

namespace Chunk

@[simp] theorem constants_empty :
    empty.constants = [] :=
  rfl

/-- A chunk with more instructions and more constants behind its own. -/
def extend
    (chunk : Chunk)
    (instructions : List Instruction)
    (constants : List Value) :
    Chunk :=
  { code := chunk.code ++ Instruction.code instructions
    lines := chunk.lines ++ Instruction.lineTable instructions
    constants := chunk.constants ++ constants }

/-- A chunk that is extended twice is extended by all of it at once. -/
@[simp] theorem extend_extend
    (chunk : Chunk)
    (first second : List Instruction)
    (firstConstants secondConstants : List Value) :
    (chunk.extend first firstConstants).extend second secondConstants =
      chunk.extend (first ++ second) (firstConstants ++ secondConstants) := by
  simp [extend]

@[simp] theorem constants_extend
    (chunk : Chunk)
    (instructions : List Instruction)
    (constants : List Value) :
    (chunk.extend instructions constants).constants = chunk.constants ++ constants :=
  rfl

/-- Writing an instruction extends the chunk by it. -/
theorem write_make
    (chunk : Chunk)
    (opcode : Opcode)
    (operands : List Int)
    (line : Int64) :
    chunk.write (opcode.make operands) line =
      chunk.extend [{ opcode := opcode, operands := operands, line := line }] [] := by
  simp [write, extend, Instruction.code, Instruction.lineTable, Instruction.lines,
    Instruction.units]

/-- A chunk with the code and the constants of an expression behind its own. -/
def withExpression
    (source : List Char)
    (chunk : Chunk)
    (expression : Expression) :
    Chunk :=
  chunk.extend (expression.instructions chunk.constants.length) (expression.constants source)

/-- The literals of an expression have values, and the chunk has room for them. -/
structure Admits
    (source : List Char)
    (chunk : Chunk)
    (literals : List Token) :
    Prop where
  decoded : ∀ token ∈ literals, ∃ value, token.literal? source = some value
  room : chunk.constants.length + literals.length ≤ maxConstants

/-- Literals that have values give one constant each, in their order. -/
theorem map_some_filterMap_literal?
    {source : List Char}
    {literals : List Token}
    (decoded : ∀ token ∈ literals, ∃ value, token.literal? source = some value) :
    (literals.filterMap (Token.literal? source)).map some =
      literals.map (Token.literal? source) := by
  induction literals with
  | nil =>
      rfl
  | cons token rest inductionHypothesis =>
      obtain ⟨value, valueShape⟩ := decoded token (by simp)
      have restDecoded :
          ∀ token ∈ rest, ∃ value, token.literal? source = some value :=
        fun token member => decoded token (by simp [member])
      simp [valueShape, inductionHypothesis restDecoded]

/-- Literals that have values have as many values. -/
theorem length_filterMap_literal?
    {source : List Char}
    {literals : List Token}
    (decoded : ∀ token ∈ literals, ∃ value, token.literal? source = some value) :
    (literals.filterMap (Token.literal? source)).length = literals.length := by
  simpa using congrArg List.length (map_some_filterMap_literal? decoded)

/-- The constants of an admitted expression are counted by its literals. -/
theorem Admits.length_constants_withExpression
    {source : List Char}
    {chunk : Chunk}
    {expression : Expression}
    (admitted : chunk.Admits source expression.literals) :
    (chunk.withExpression source expression).constants.length =
      chunk.constants.length + expression.literals.length := by
  simp [withExpression, Expression.constants,
    length_filterMap_literal? admitted.decoded]

/-- Literals are admitted one part after the other. -/
theorem admits_append_iff
    {source : List Char}
    {chunk : Chunk}
    {left : Expression}
    {literals : List Token} :
    chunk.Admits source (left.literals ++ literals) ↔
      chunk.Admits source left.literals ∧
        (chunk.withExpression source left).Admits source literals := by
  constructor
  · intro admitted
    have leftAdmitted : chunk.Admits source left.literals := {
      decoded := fun token member => admitted.decoded token (by simp [member])
      room := by
        have := admitted.room
        simp only [List.length_append] at this
        omega
    }
    refine ⟨leftAdmitted, ?_, ?_⟩
    · exact fun token member => admitted.decoded token (by simp [member])
    · rw [leftAdmitted.length_constants_withExpression]
      simpa [Nat.add_assoc] using admitted.room
  · rintro ⟨leftAdmitted, admitted⟩
    refine ⟨?_, ?_⟩
    · intro token member
      rcases List.mem_append.mp member with inLeft | inRight
      · exact leftAdmitted.decoded token inLeft
      · exact admitted.decoded token inRight
    · have room := admitted.room
      rw [leftAdmitted.length_constants_withExpression] at room
      simpa [Nat.add_assoc] using room

/-- Operands and their operator, appended one after the other, are the binary expression. -/
theorem withExpression_binary
    {source : List Char}
    {chunk : Chunk}
    {left : Expression}
    (admitted : chunk.Admits source left.literals)
    (sign : Sign)
    (operator : Token)
    (right : Expression) :
    ((chunk.withExpression source left).withExpression source right).extend
        [.plain sign.opcode operator.line] [] =
      chunk.withExpression source (.binary left sign operator right) := by
  have counted := admitted.length_constants_withExpression
  simp only [withExpression, extend_extend] at counted ⊢
  rw [counted]
  simp [Expression.instructions, Expression.constants, Expression.literals]

end Chunk

namespace Token

/-- A token that does not start before its source has a lexeme. -/
theorem exists_text?
    {token : Token}
    (placed : 0 ≤ token.start)
    (source : List Char) :
    ∃ text, token.text? source = some text := by
  obtain ⟨start, startShape⟩ := Int.eq_ofNat_of_zero_le placed
  unfold text?
  simp only [startShape]
  repeat' split
  all_goals exact ⟨_, rfl⟩

end Token

namespace Compiler

@[simp] theorem here_done
    {α : Type}
    (compiler : Compiler)
    (result : α) :
    compiler.here (.done result) = .done result :=
  rfl

/-- A step meets a condition wherever it is taken. -/
@[simp] theorem meets_here_iff
    {α : Type}
    {compiler : Compiler}
    {step : Step α}
    {condition : α → Prop} :
    (compiler.here step).Meets condition ↔ step.Meets condition :=
  Outcome.meets_mapFailure_iff

/-- A compiler between tokens read, the latest first, and tokens to come. -/
def between
    (compiler : Compiler)
    (behind ahead : List Token)
    (chunk : Chunk) :
    Compiler :=
  { compiler with
    cursor := { behind := behind, ahead := ahead }
    chunk? := some chunk }

variable
  (compiler : Compiler)
  (behind ahead : List Token)
  (chunk : Chunk)

@[simp] theorem advance_between
    (token : Token) :
    (compiler.between behind (token :: ahead) chunk).advance =
      compiler.between (token :: behind) ahead chunk :=
  rfl

@[simp] theorem peek_between
    (token : Token) :
    (compiler.between behind (token :: ahead) chunk).peek = .done token :=
  rfl

@[simp] theorem previous_between
    (token : Token) :
    (compiler.between (token :: behind) ahead chunk).previous = .done token :=
  rfl

/-- A failure at a token that lies in the source is reported. -/
theorem meets_failAt
    {α : Type}
    {token : Token}
    (placed : 0 ≤ token.start)
    (problem : CompileProblem)
    (condition : α → Prop) :
    (compiler.failAt token problem : Step α).Meets condition := by
  obtain ⟨text, textShape⟩ := Token.exists_text? placed compiler.source
  unfold failAt lexeme
  split <;> simp [textShape, pure]

/-- An instruction on a line goes behind the code. -/
theorem emitAt_between
    (line : Int64)
    (opcode : Opcode)
    (operands : List Int) :
    (compiler.between behind ahead chunk).emitAt line opcode operands =
      .done (compiler.between behind ahead
        (chunk.extend [{ opcode := opcode, operands := operands, line := line }] [])) := by
  simp only [emitAt, between, Chunk.write_make]

/-- An instruction without a line of its own takes the line of the token read last. -/
theorem emit_between
    (token : Token)
    (opcode : Opcode)
    (operands : List Int) :
    (compiler.between (token :: behind) ahead chunk).emit opcode operands =
      .done (compiler.between (token :: behind) ahead
        (chunk.extend [{ opcode := opcode, operands := operands, line := token.line }] [])) := by
  simp only [emit, previous_between, Outcome.done_bind, emitAt_between]

/-- Emitting an opcode without operands extends the chunk by one instruction. -/
theorem emitPlain_between
    (token : Token)
    (opcode : Opcode) :
    (compiler.between (token :: behind) ahead chunk).emit opcode [] =
      .done (compiler.between (token :: behind) ahead
        (chunk.extend [.plain opcode token.line] [])) :=
  emit_between compiler behind ahead chunk token opcode []

/-- A constant for which there is room goes behind the others and is loaded. -/
theorem emitConstant_between
    (token : Token)
    (value : Value)
    (room : chunk.constants.length < Chunk.maxConstants) :
    (compiler.between (token :: behind) ahead chunk).emitConstant value =
      .done (compiler.between (token :: behind) ahead
        (chunk.extend [.load chunk.constants.length token.line] [value])) := by
  have notFull : ¬ Chunk.maxConstants ≤ chunk.constants.length := by
    omega
  have emitted :=
    emit_between compiler behind ahead
      { chunk with constants := chunk.constants ++ [value] } token .constant
      [(chunk.constants.length : Int)]
  simp only [emitConstant, between, Chunk.addConstant?, notFull, ↓reduceIte,
    Chunk.lastConstant, List.length_append, List.length_singleton, Int.natCast_add,
    Int.cast_ofNat_Int, Int.add_sub_cancel] at emitted ⊢
  rw [emitted]
  simp [Chunk.extend, Instruction.load]

/-- A number with a value becomes a constant if there is room for one. -/
theorem number_between
    {token : Token}
    (admitted : chunk.Admits compiler.source [token]) :
    (compiler.between (token :: behind) ahead chunk).number =
      .done (compiler.between (token :: behind) ahead
        (chunk.withExpression compiler.source (.number token))) := by
  obtain ⟨value, valueShape⟩ := admitted.decoded token (by simp)
  obtain ⟨text, textShape, read⟩ := Token.literal?_eq_some_iff.mp valueShape
  have lexemeShape :
      (compiler.between (token :: behind) ahead chunk).lexeme token = .done text := by
    simp [lexeme, between, textShape]
  have emitted :=
    emitConstant_between compiler behind ahead chunk token value admitted.room
  simp only [number, previous_between, Outcome.done_bind, lexemeShape, read, emitted]
  simp [Chunk.withExpression, Expression.instructions, Expression.constants,
    Expression.literals, valueShape]

/--
Reading a number ends with its constant, or with a reported problem.  If it has a value, what is
missing is the room.
-/
theorem meets_number
    {token : Token}
    (placed : 0 ≤ token.start) :
    (compiler.between (token :: behind) ahead chunk).number.Meets fun after =>
      chunk.Admits compiler.source [token] ∧
        after = compiler.between (token :: behind) ahead
          (chunk.withExpression compiler.source (.number token)) := by
  by_cases admitted : chunk.Admits compiler.source [token]
  · rw [number_between compiler behind ahead chunk admitted]
    exact ⟨admitted, rfl⟩
  · obtain ⟨text, textShape⟩ := Token.exists_text? placed compiler.source
    have lexemeShape :
        (compiler.between (token :: behind) ahead chunk).lexeme token = .done text := by
      simp [lexeme, between, textShape]
    simp only [number, previous_between, Outcome.done_bind, lexemeShape]
    cases read : token.number text with
    | error problem =>
        simp
    | ok value =>
        have full : Chunk.maxConstants ≤ chunk.constants.length := by
          refine Nat.le_of_not_lt fun room => admitted ⟨?_, room⟩
          intro other member
          rw [List.mem_singleton] at member
          subst member
          exact ⟨value, Token.literal?_eq_some_iff.mpr ⟨text, textShape, read⟩⟩
        simp only [emitConstant, between, Chunk.addConstant?, full, ↓reduceIte]
        exact meets_failAt (compiler.between (token :: behind) ahead chunk) placed
          .tooManyConstants _

/-- A closing parenthesis ends a group. -/
theorem closeGroup_between
    {closing : Token}
    (closes : closing.kind = .rightParenthesis) :
    (compiler.between behind (closing :: ahead) chunk).closeGroup =
      .done (compiler.between (closing :: behind) ahead chunk) := by
  simp [closeGroup, closes]

/-- Closing a group reads a closing parenthesis or reports that there is none. -/
theorem meets_closeGroup
    {closing : Token}
    (placed : 0 ≤ closing.start) :
    (compiler.between behind (closing :: ahead) chunk).closeGroup.Meets fun after =>
      closing.kind = .rightParenthesis ∧
        after = compiler.between (closing :: behind) ahead chunk := by
  by_cases closes : closing.kind = .rightParenthesis
  · rw [closeGroup_between compiler behind ahead chunk closes]
    exact ⟨closes, rfl⟩
  · simp only [closeGroup, peek_between, Outcome.done_bind, closes, ↓reduceIte]
    exact meets_failAt _ placed _ _

/-- The instruction of a sign goes behind the code, on the line of its token. -/
theorem emitOperator_between
    {sign : Sign}
    {operator : Token}
    (shows : operator.kind = sign.kind) :
    (compiler.between behind ahead chunk).emitOperator operator =
      .done (compiler.between behind ahead
        (chunk.extend [.plain sign.opcode operator.line] [])) := by
  have compiled : operator.kind.instruction? = some sign.opcode := by
    rw [shows]
    cases sign <;> rfl
  simp only [emitOperator, compiled, emitAt_between]
  rfl

/-- After an expression that no assignment follows, the compiler goes on. -/
theorem refuseAssignment_between
    (precedence : Precedence)
    {next : Token}
    (noAssignment : next.kind ≠ .assign) :
    (compiler.between behind (next :: ahead) chunk).refuseAssignment precedence =
      .done (compiler.between behind (next :: ahead) chunk) := by
  simp [refuseAssignment, noAssignment]

/-- An assignment after an expression is reported. -/
theorem meets_refuseAssignment
    (precedence : Precedence)
    {next : Token}
    (placed : 0 ≤ next.start) :
    (compiler.between behind (next :: ahead) chunk).refuseAssignment precedence |>.Meets
      fun after => after = compiler.between behind (next :: ahead) chunk := by
  by_cases noAssignment : next.kind = .assign
  · simp only [refuseAssignment, peek_between, Outcome.done_bind, noAssignment, ↓reduceIte]
    split
    · exact meets_failAt _ placed _ _
    · rfl
  · rw [refuseAssignment_between compiler behind ahead chunk precedence noAssignment]
    rfl

end Compiler

end Reckon
