import Reckon.Bytecode.Chunk
import Reckon.Proofs.Syntax.Grammar

namespace Reckon

/-!
# Postfix code

The code of a program is its trees written out from left to right, operands before their
operator.  The literals are numbered in their order, which is also the order of the constants.
-/

namespace Sign

/-- The instruction that applies an operator. -/
def opcode : Sign → Opcode
  | .equal => .equal
  | .notEqual => .notEqual
  | .less => .less
  | .lessEqual => .lessEqual
  | .greater => .greater
  | .greaterEqual => .greaterEqual
  | .plus => .add
  | .minus => .subtract
  | .star => .multiply
  | .slash => .divide
  | .slashSlash => .quotient
  | .starStar => .power

/-- The opcodes of signs have no operands. -/
theorem operandKinds_opcode
    (sign : Sign) :
    sign.opcode.operandKinds = [] := by
  cases sign <;> rfl

end Sign

namespace Token

/-- The value of a token of a source, if its lexeme is a number. -/
def literal? (source : List Char) (token : Token) : Option Value :=
  match token.text? source with
  | none => none
  | some text =>
      match token.number text with
      | .ok value => some value
      | .error _ => none

/-- A literal has a value exactly when its lexeme is there and is a number. -/
theorem literal?_eq_some_iff
    {source : List Char}
    {token : Token}
    {value : Value} :
    token.literal? source = some value ↔
      ∃ text, token.text? source = some text ∧ token.number text = .ok value := by
  unfold literal?
  cases token.text? source with
  | none =>
      simp
  | some text =>
      cases read : token.number text with
      | ok found =>
          simp [read]
      | error problem =>
          simp [read]

end Token

namespace Opcode

/-- An opcode is read back from its byte. -/
theorem ofByte?_byte
    (opcode : Opcode) :
    ofByte? opcode.byte = some opcode := by
  cases opcode <;> rfl

end Opcode

namespace Chunk

/-- A byte tells as many constants apart as a chunk may have. -/
theorem toNat_index
    {index : Nat}
    (inRange : index < maxConstants) :
    index.toUInt8.toNat = index := by
  rw [maxConstants] at inRange
  simpa using inRange

end Chunk

/-- An instruction with its operands and the line that it belongs to. -/
structure Instruction where
  opcode : Opcode
  operands : List Int
  line : Int64
  deriving Repr, DecidableEq

namespace Instruction

/-- An instruction without operands. -/
def plain (opcode : Opcode) (line : Int64) : Instruction :=
  { opcode := opcode, operands := [], line := line }

/-- The instruction that loads the constant with an index. -/
def load (index : Nat) (line : Int64) : Instruction :=
  { opcode := .constant, operands := [(index : Int)], line := line }

/-- The units of an instruction. -/
def units (instruction : Instruction) : List CodeUnit :=
  instruction.opcode.make instruction.operands

/-- An instruction without operands is one unit. -/
theorem units_plain
    {opcode : Opcode}
    (short : opcode.operandKinds = [])
    (line : Int64) :
    (plain opcode line).units = [{ kind := .opcode, byte := opcode.byte }] := by
  simp [units, plain, Opcode.make, short, Opcode.operandUnits]

/-- An instruction that loads a constant is its opcode and the index. -/
theorem units_load
    (index : Nat)
    (line : Int64) :
    (load index line).units =
      [{ kind := .opcode, byte := Opcode.constant.byte },
        { kind := .constantIndex, byte := index.toUInt8 }] := by
  have cut : ((index : Int) % 256).toNat.toUInt8 = index.toUInt8 := by
    apply UInt8.toNat_inj.mp
    simp only [Nat.toUInt8_eq, UInt8.toNat_ofNat', Nat.reducePow]
    omega
  simp [units, load, Opcode.make, Opcode.operandKinds, Opcode.operandUnits, cut]

/-- The line of an instruction, once for each of its units. -/
def lines (instruction : Instruction) : List Int64 :=
  List.replicate instruction.units.length instruction.line

/-- An instruction has a line for each of its units. -/
@[simp] theorem length_lines
    (instruction : Instruction) :
    instruction.lines.length = instruction.units.length := by
  simp [lines]

/-- The units of several instructions. -/
def code (instructions : List Instruction) : List CodeUnit :=
  instructions.flatMap units

/-- The lines of the units of several instructions. -/
def lineTable (instructions : List Instruction) : List Int64 :=
  instructions.flatMap lines

@[simp] theorem code_nil :
    code [] = [] :=
  rfl

@[simp] theorem code_cons
    (first : Instruction)
    (rest : List Instruction) :
    code (first :: rest) = first.units ++ code rest :=
  rfl

/-- The code of instructions is that of their parts, one behind the other. -/
@[simp] theorem code_append
    (first second : List Instruction) :
    code (first ++ second) = code first ++ code second := by
  simp [code]

@[simp] theorem lineTable_append
    (first second : List Instruction) :
    lineTable (first ++ second) = lineTable first ++ lineTable second := by
  simp [lineTable]

/-- There is one line for each unit. -/
@[simp] theorem length_lineTable
    (instructions : List Instruction) :
    (lineTable instructions).length = (code instructions).length := by
  simp [lineTable, code, List.length_flatMap]

end Instruction

namespace Expression

/-- The code of an expression whose first literal has the given number. -/
def instructions : Nat → Expression → List Instruction
  | first, .number token => [.load first token.line]
  | first, .group _ inner _ => inner.instructions first
  | first, .binary left sign operator right =>
      left.instructions first ++
        right.instructions (first + left.literals.length) ++
          [.plain sign.opcode operator.line]

/-- The values of the literals of an expression. -/
def constants (source : List Char) (expression : Expression) : List Value :=
  expression.literals.filterMap (Token.literal? source)

end Expression

namespace Statement

/-- The instruction that closes a statement: its value is dropped or has to be true. -/
def closing : Statement → Instruction
  | .expression value => .plain .pop value.last.line
  | .assertion _ condition => .plain .assert condition.last.line

/-- A statement is closed by one unit. -/
theorem length_units_closing
    (statement : Statement) :
    statement.closing.units.length = 1 := by
  cases statement <;> rfl

/-- The code of a statement whose first literal has the given number. -/
def instructions (first : Nat) (statement : Statement) : List Instruction :=
  statement.body.instructions first ++ [statement.closing]

end Statement

namespace Script

/-- The code of all statements, each of them closed. -/
def closed : Nat → Script → List Instruction
  | _, [] => []
  | first, statement :: rest =>
      statement.instructions first ++ closed (first + statement.body.literals.length) rest

/-- The program ends in an expression, which is then its result. -/
def endsInExpression (script : Script) : Bool :=
  match script.getLast? with
  | some (.expression _) => true
  | _ => false

/--
The code of a whole program that ends on a line.  The last statement gives the result if it is an
expression, and is not closed then; the result of any other program is true.
-/
def instructions (line : Int64) (script : Script) : List Instruction :=
  if script.endsInExpression then
    (closed 0 script).dropLast ++ [.plain .return line]
  else
    closed 0 script ++ [.plain .true line, .plain .return line]

/-- The code of statements ends with that of the last one, which is closed behind its body. -/
theorem closed_concat
    (first : Nat)
    (before : Script)
    (statement : Statement) :
    closed first (before ++ [statement]) =
      closed first before ++
          statement.body.instructions (first + (literals before).length) ++
        [statement.closing] := by
  induction before generalizing first with
  | nil =>
      simp [closed, literals, Statement.instructions]
  | cons earlier before inductionHypothesis =>
      simp [closed, inductionHypothesis, literals, Nat.add_assoc]

/-- A program that ends in an expression has one as its last statement. -/
theorem exists_of_endsInExpression
    {script : Script}
    (ends : endsInExpression script = true) :
    ∃ before value, script = before ++ [.expression value] := by
  rcases List.eq_nil_or_concat script with rfl | ⟨before, statement, rfl⟩
  · simp [endsInExpression] at ends
  · cases statement with
    | expression value =>
        exact ⟨before, value, by simp⟩
    | assertion word condition =>
        simp [endsInExpression] at ends

/-- A program that ends in an expression returns it. -/
theorem instructions_concat_expression
    (line : Int64)
    (before : Script)
    (value : Expression) :
    instructions line (before ++ [.expression value]) =
      closed 0 before ++ value.instructions (literals before).length ++
        [.plain .return line] := by
  have ends : endsInExpression (before ++ [.expression value]) = true := by
    simp [endsInExpression]
  simp [instructions, ends, closed_concat, Statement.body]

/-- The values of the literals of a program. -/
def constants (source : List Char) (script : Script) : List Value :=
  (literals script).filterMap (Token.literal? source)

/-- The chunk that a program compiles to. -/
def chunk (source : List Char) (line : Int64) (script : Script) : Chunk :=
  { code := Instruction.code (instructions line script)
    lines := Instruction.lineTable (instructions line script)
    constants := constants source script }

end Script

end Reckon
