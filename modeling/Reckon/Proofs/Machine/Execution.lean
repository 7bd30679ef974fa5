import Reckon.Proofs.Machine.Activation
import Reckon.Proofs.Syntax.Evaluation

namespace Reckon

/-!
# Running postfix code

Wherever the postfix code of a tree lies in a chunk, running it does what evaluating the tree
does: it goes on behind the code with the value on top of the operands, or it ends as the
evaluation ends.  The room that is left on the stack is the room for the evaluation.
-/

section Parts

variable
  {Item : Type}

/-- A part of a list lies at a position of it. -/
def LiesAt (part : List Item) (position : Nat) (whole : List Item) : Prop :=
  part <+: whole.drop position

namespace LiesAt

/-- Two parts that follow each other lie one behind the other. -/
theorem append_iff
    {first second whole : List Item}
    {position : Nat} :
    LiesAt (first ++ second) position whole ↔
      LiesAt first position whole ∧ LiesAt second (position + first.length) whole := by
  unfold LiesAt
  rw [← List.drop_drop]
  constructor
  · rintro ⟨rest, shape⟩
    rw [← shape, List.append_assoc]
    exact ⟨⟨second ++ rest, rfl⟩, ⟨rest, by simp⟩⟩
  · rintro ⟨⟨behindFirst, firstShape⟩, rest, secondShape⟩
    rw [← firstShape, List.drop_left] at secondShape
    exact ⟨rest, by rw [List.append_assoc, secondShape, firstShape]⟩

/-- The first item of a part lies where the part does. -/
theorem getElem?_eq
    {item : Item}
    {rest whole : List Item}
    {position : Nat}
    (lies : LiesAt (item :: rest) position whole) :
    whole[position]? = some item := by
  obtain ⟨behind, shape⟩ := lies
  have first : (whole.drop position)[0]? = some item := by
    rw [← shape]
    rfl
  simpa using first

/-- The rest of a part lies one place further. -/
theorem tail
    {item : Item}
    {rest whole : List Item}
    {position : Nat}
    (lies : LiesAt (item :: rest) position whole) :
    LiesAt rest (position + 1) whole :=
  ((@append_iff _ [item] rest whole position).mp lies).2

end LiesAt

end Parts

namespace Chunk

/-- Instructions lie at a position of a chunk, each with its line. -/
structure Holds (chunk : Chunk) (position : Nat) (instructions : List Instruction) : Prop where
  code : LiesAt (Instruction.code instructions) position chunk.code
  lines : LiesAt (Instruction.lineTable instructions) position chunk.lines

/-- Instructions that follow each other lie one behind the other. -/
theorem holds_append_iff
    {chunk : Chunk}
    {position : Nat}
    {first second : List Instruction} :
    chunk.Holds position (first ++ second) ↔
      chunk.Holds position first ∧
        chunk.Holds (position + (Instruction.code first).length) second := by
  constructor
  · rintro ⟨code, lines⟩
    rw [Instruction.code_append, LiesAt.append_iff] at code
    rw [Instruction.lineTable_append, LiesAt.append_iff, Instruction.length_lineTable] at lines
    exact ⟨⟨code.1, lines.1⟩, ⟨code.2, lines.2⟩⟩
  · rintro ⟨⟨firstCode, firstLines⟩, ⟨secondCode, secondLines⟩⟩
    refine ⟨?_, ?_⟩
    · rw [Instruction.code_append, LiesAt.append_iff]
      exact ⟨firstCode, secondCode⟩
    · rw [Instruction.lineTable_append, LiesAt.append_iff, Instruction.length_lineTable]
      exact ⟨firstLines, secondLines⟩

/-- The line of an instruction is found where it lies. -/
theorem Holds.lineAt_eq
    {chunk : Chunk}
    {position : Nat}
    {instruction : Instruction}
    {rest : List Instruction}
    (held : chunk.Holds position (instruction :: rest)) :
    chunk.lineAt position = instruction.line := by
  have lies :
      LiesAt (instruction.line :: (List.replicate (instruction.units.length - 1)
        instruction.line ++ Instruction.lineTable rest)) position chunk.lines :=
    held.lines
  rw [lineAt, lies.getElem?_eq, Option.getD_some]

/-- The constants from an index on are the values of literals of a source. -/
def Provides
    (chunk : Chunk)
    (source : List Char)
    (index : Nat)
    (literals : List Token) :
    Prop :=
  LiesAt (literals.map (Token.literal? source)) index (chunk.constants.map some)

/-- Constants are provided for two lists of literals if they are for one behind the other. -/
theorem provides_append_iff
    {chunk : Chunk}
    {source : List Char}
    {index : Nat}
    {first second : List Token} :
    chunk.Provides source index (first ++ second) ↔
      chunk.Provides source index first ∧
        chunk.Provides source (index + first.length) second := by
  rw [Provides, List.map_append, LiesAt.append_iff, List.length_map]
  rfl

end Chunk

namespace Sign

/-- The opcode of a sign carries out its operator. -/
theorem operator?_opcode
    (sign : Sign) :
    sign.opcode.operator? = some sign.operator := by
  cases sign <;> rfl

end Sign

namespace Routine

/-- How many operands there is room for above those that are there. -/
def room (routine : Routine) (operands : List Value) : Nat :=
  (routine.limit.toInt - (routine.base + 1 + operands.length)).toNat

/-- A function runs as a program: under its name, and with constants that indexes tell apart. -/
structure IsScript (routine : Routine) : Prop where
  named : routine.function.text = Function.scriptName
  counted : routine.chunk.constants.length ≤ Chunk.maxConstants

section Steps

variable
  {routine : Routine}
  {position : Nat}

/-- The stack is full exactly when there is no room. -/
theorem isFull_iff
    {activation : Activation} :
    routine.IsFull activation ↔ routine.room activation.operands = 0 := by
  simp only [IsFull, room]
  omega

/-- Each operand takes up one place. -/
theorem room_cons
    (value : Value)
    (operands : List Value) :
    routine.room (value :: operands) = routine.room operands - 1 := by
  simp only [room, List.length_cons]
  omega

/-- An instruction without operands is read and executed where it lies. -/
theorem step_plain
    {opcode : Opcode}
    {line : Int64}
    (short : opcode.operandKinds = [])
    (held : routine.chunk.Holds position [.plain opcode line])
    (operands : List Value) :
    routine.step { position := position, operands := operands } =
      routine.execute { position := position + 1, operands := operands } opcode := by
  have lies := held.code
  rw [Instruction.code_cons, Instruction.units_plain short] at lies
  simp only [step, lies.getElem?_eq, ↓reduceIte, Opcode.ofByte?_byte]
  rfl

/-- A fault is reported on the line of the instruction. -/
theorem IsScript.errorAt_eq
    (isScript : routine.IsScript)
    {instruction : Instruction}
    (held : routine.chunk.Holds position [instruction])
    (operands : List Value)
    (fault : Fault) :
    routine.errorAt { position := position, operands := operands } fault =
      .inScript instruction.line fault := by
  simp only [errorAt, RuntimeError.inScript, held.lineAt_eq, isScript.named]

/-- A constant is loaded where the instruction lies that has its index. -/
theorem step_load
    {index : Nat}
    {line : Int64}
    (inRange : index < Chunk.maxConstants)
    (held : routine.chunk.Holds position [.load index line])
    (operands : List Value)
    {value : Value}
    (present : routine.chunk.constants[index]? = some value) :
    routine.step { position := position, operands := operands } =
      routine.push { position := position + 2, operands := operands } value := by
  have opcodeLies := held.code
  rw [Instruction.code_cons, Instruction.units_load] at opcodeLies
  have indexLies := opcodeLies.tail
  have inByte := Chunk.toNat_index inRange
  simp only [step, opcodeLies.getElem?_eq, Opcode.ofByte?_byte, ↓reduceIte]
  simp only [execute, Opcode.operator?, load, Activation.skip, indexLies.getElem?_eq, inByte,
    present, ne_eq, not_true_eq_false, ↓reduceIte]

/-- An instruction that pushes a value goes on with it where there is room. -/
theorem IsScript.run_push
    (isScript : routine.IsScript)
    {instruction : Instruction}
    (held : routine.chunk.Holds position [instruction])
    {operands : List Value}
    {behind : Nat}
    {value : Value}
    (stepped :
      routine.step { position := position, operands := operands } =
        routine.push { position := behind, operands := operands } value) :
    routine.run { position := position, operands := operands } =
      if routine.room operands = 0 then
        .failed (.inScript instruction.line (.stackFull routine.limit))
      else
        routine.run { position := behind, operands := value :: operands } := by
  have fullness := @isFull_iff routine { position := behind, operands := operands }
  by_cases full : routine.room operands = 0
  · rw [run_eq, stepped, push, if_pos (fullness.mpr full), if_pos full]
    exact congrArg Outcome.failed (isScript.errorAt_eq held ..)
  · rw [run_eq, stepped, push, if_neg (mt fullness.mp full), if_neg full]
    rfl

/-- The value of a literal is loaded where there is room for it. -/
theorem IsScript.run_number
    (isScript : routine.IsScript)
    {source : List Char}
    {index : Nat}
    {token : Token}
    (held : routine.chunk.Holds position [.load index token.line])
    (provided : routine.chunk.Provides source index [token])
    (operands : List Value) :
    routine.run { position := position, operands := operands } =
      (Expression.number token).evaluateWithin source routine.limit (routine.room operands) >>=
        fun value =>
          routine.run { position := position + 2, operands := value :: operands } := by
  obtain ⟨value, present, literal⟩ :
      ∃ value, routine.chunk.constants[index]? = some value ∧
        token.literal? source = some value := by
    have lies := LiesAt.getElem?_eq provided
    rw [List.getElem?_map, Option.map_eq_some_iff] at lies
    obtain ⟨value, present, literal⟩ := lies
    exact ⟨value, present, literal.symm⟩
  have inRange := Nat.lt_of_lt_of_le (List.getElem?_eq_some_iff.mp present).1 isScript.counted
  rw [isScript.run_push held (step_load inRange held operands present)]
  cases routine.room operands with
  | zero =>
      rfl
  | succ room =>
      simp only [Nat.succ_ne_zero, ↓reduceIte, Expression.evaluateWithin, Token.evaluate,
        literal, Outcome.done_bind]

/-- An operator takes its operands and leaves its value. -/
theorem IsScript.run_operator
    (isScript : routine.IsScript)
    {sign : Sign}
    {operator : Token}
    (held : routine.chunk.Holds position [.plain sign.opcode operator.line])
    (left right : Value)
    (operands : List Value) :
    routine.run { position := position, operands := right :: left :: operands } =
      operator.apply sign left right >>= fun value =>
        routine.run { position := position + 1, operands := value :: operands } := by
  rw [run_eq, step_plain sign.operandKinds_opcode held]
  simp only [execute, sign.operator?_opcode, Activation.binary, Token.apply]
  cases sign.operator.apply left right with
  | done value =>
      rfl
  | failed fault =>
      simp only [isScript.errorAt_eq held]
      rfl
  | aborted =>
      rfl

/-- The end of a statement takes its value and goes on if there is nothing against it. -/
theorem IsScript.run_closing
    (isScript : routine.IsScript)
    {statement : Statement}
    (held : routine.chunk.Holds position [statement.closing])
    (value : Value)
    (operands : List Value) :
    routine.run { position := position, operands := value :: operands } =
      statement.conclude value >>= fun _ =>
        routine.run { position := position + 1, operands := operands } := by
  cases statement with
  | expression body =>
      rw [run_eq, step_plain rfl held]
      rfl
  | assertion word condition =>
      rw [run_eq, step_plain rfl held]
      simp only [execute, Opcode.operator?, Activation.assertTop, Statement.conclude]
      cases value with
      | bool truth =>
          cases truth with
          | true =>
              rfl
          | false =>
              simp only [isScript.errorAt_eq held]
              rfl
      | _ =>
          simp only [isScript.errorAt_eq held]
          rfl

end Steps

section Runs

variable
  {routine : Routine}
  {source : List Char}

/--
Running the code of an expression leaves its value.  The left value waits below the right operand
and takes room from it.
-/
theorem IsScript.run_expression
    (isScript : routine.IsScript)
    {expression : Expression}
    {first position : Nat}
    (held : routine.chunk.Holds position (expression.instructions first))
    (provided : routine.chunk.Provides source first expression.literals)
    (operands : List Value) :
    routine.run { position := position, operands := operands } =
      expression.evaluateWithin source routine.limit (routine.room operands) >>= fun value =>
        routine.run
          { position := position + (Instruction.code (expression.instructions first)).length
            operands := value :: operands } := by
  induction expression generalizing first position operands with
  | number token =>
      exact isScript.run_number held provided operands
  | group opening inner closing inductionHypothesis =>
      rw [Expression.evaluateWithin]
      exact inductionHypothesis held provided operands
  | binary left sign operator right leftHypothesis rightHypothesis =>
      simp only [Expression.instructions, Chunk.holds_append_iff, Instruction.code_append,
        List.length_append] at held
      obtain ⟨⟨leftHeld, rightHeld⟩, operatorHeld⟩ := held
      obtain ⟨leftProvided, rightProvided⟩ := Chunk.provides_append_iff.mp provided
      rw [leftHypothesis leftHeld leftProvided, Expression.evaluateWithin, bind_assoc]
      refine bind_congr fun leftValue => ?_
      rw [rightHypothesis rightHeld rightProvided, room_cons, bind_assoc]
      refine bind_congr fun rightValue => ?_
      rw [Nat.add_assoc, isScript.run_operator operatorHeld]
      simp [Expression.instructions, Instruction.units_plain sign.operandKinds_opcode,
        Nat.add_assoc]

/-- Running the code of a statement leaves nothing. -/
theorem IsScript.run_statement
    (isScript : routine.IsScript)
    {statement : Statement}
    {first position : Nat}
    (held : routine.chunk.Holds position (statement.instructions first))
    (provided : routine.chunk.Provides source first statement.body.literals)
    (operands : List Value) :
    routine.run { position := position, operands := operands } =
      statement.evaluateWithin source routine.limit (routine.room operands) >>= fun _ =>
        routine.run
          { position := position + (Instruction.code (statement.instructions first)).length
            operands := operands } := by
  obtain ⟨bodyHeld, closingHeld⟩ := Chunk.holds_append_iff.mp held
  rw [isScript.run_expression bodyHeld provided, Statement.evaluateWithin, bind_assoc]
  refine bind_congr fun value => ?_
  rw [isScript.run_closing closingHeld]
  simp [Statement.instructions, statement.length_units_closing, Nat.add_assoc]

/-- Running the code of statements leaves nothing, whatever they were evaluated after. -/
theorem IsScript.run_closed
    (isScript : routine.IsScript)
    {script : Script}
    {first position : Nat}
    (held : routine.chunk.Holds position (Script.closed first script))
    (provided : routine.chunk.Provides source first (Script.literals script))
    (operands : List Value)
    (initial : Value) :
    routine.run { position := position, operands := operands } =
      (script.foldlM
          (fun _ statement =>
            statement.evaluateWithin source routine.limit (routine.room operands))
          initial) >>= fun _ =>
        routine.run
          { position := position + (Instruction.code (Script.closed first script)).length
            operands := operands } := by
  induction script generalizing first position initial with
  | nil =>
      rfl
  | cons statement rest inductionHypothesis =>
      obtain ⟨firstHeld, restHeld⟩ := Chunk.holds_append_iff.mp held
      obtain ⟨firstProvided, restProvided⟩ := Chunk.provides_append_iff.mp provided
      rw [isScript.run_statement firstHeld firstProvided, List.foldlM_cons, bind_assoc]
      refine bind_congr fun value => ?_
      rw [inductionHypothesis restHeld restProvided value]
      simp [Script.closed, Nat.add_assoc]

/-- The last instruction of a program gives the top operand. -/
theorem run_return
    {position : Nat}
    {line : Int64}
    (held : routine.chunk.Holds position [.plain .return line])
    (value : Value)
    (operands : List Value) :
    routine.run { position := position, operands := value :: operands } = .done value := by
  rw [run_eq, step_plain rfl held]
  rfl

/-- A program that ends in an expression gives its value. -/
theorem IsScript.run_open
    (isScript : routine.IsScript)
    {before : Script}
    {value : Expression}
    {line : Int64}
    (held : routine.chunk.Holds 0
      (Script.instructions line (before ++ [.expression value])))
    (provided : routine.chunk.Provides source 0
      (Script.literals (before ++ [.expression value]))) :
    routine.run { position := 0, operands := [] } =
      Script.evaluateWithin source routine.limit (routine.room []) line
        (before ++ [.expression value]) := by
  rw [Script.instructions_concat_expression, Chunk.holds_append_iff,
    Chunk.holds_append_iff] at held
  obtain ⟨⟨beforeHeld, valueHeld⟩, returnHeld⟩ := held
  have literals :
      Script.literals (before ++ [.expression value]) =
        Script.literals before ++ value.literals := by
    simp [Script.literals, Statement.body]
  rw [literals, Chunk.provides_append_iff, Nat.zero_add] at provided
  rw [isScript.run_closed beforeHeld provided.1 [] (.bool true),
    Script.evaluateWithin_concat_expression]
  refine bind_congr fun _ => ?_
  rw [isScript.run_expression valueHeld provided.2]
  rw [Instruction.code_append, List.length_append, ← Nat.add_assoc] at returnHeld
  simp only [run_return returnHeld]
  exact bind_pure _

/-- Any other program gives true, for which there has to be room. -/
theorem IsScript.run_closing_true
    (isScript : routine.IsScript)
    {script : Script}
    {line : Int64}
    (closed : Script.endsInExpression script = false)
    (held : routine.chunk.Holds 0 (Script.instructions line script))
    (provided : routine.chunk.Provides source 0 (Script.literals script)) :
    routine.run { position := 0, operands := [] } =
      Script.evaluateWithin source routine.limit (routine.room []) line script := by
  simp only [Script.instructions, closed, Bool.false_eq_true, ↓reduceIte] at held
  obtain ⟨closedHeld, endHeld⟩ := Chunk.holds_append_iff.mp held
  obtain ⟨trueHeld, returnHeld⟩ :=
    (@Chunk.holds_append_iff _ _ [.plain .true line] [.plain .return line]).mp endHeld
  rw [isScript.run_closed closedHeld provided [] (.bool true), Script.evaluateWithin]
  refine bind_congr fun _ => ?_
  rw [isScript.run_push trueHeld (step_plain rfl trueHeld [])]
  simp only [closed, Bool.false_eq_true, ↓reduceIte]
  split
  · rfl
  · exact run_return returnHeld _ _

/-- Running the code of a program gives its value. -/
theorem IsScript.run_script
    (isScript : routine.IsScript)
    {script : Script}
    {line : Int64}
    (held : routine.chunk.Holds 0 (Script.instructions line script))
    (provided : routine.chunk.Provides source 0 (Script.literals script)) :
    routine.run { position := 0, operands := [] } =
      Script.evaluateWithin source routine.limit (routine.room []) line script := by
  cases ends : Script.endsInExpression script with
  | true =>
      obtain ⟨before, value, rfl⟩ := Script.exists_of_endsInExpression ends
      exact isScript.run_open held provided
  | false =>
      exact isScript.run_closing_true ends held provided

end Runs

end Routine

end Reckon
