import Reckon.Value.Operator

namespace Reckon

/-!
# Instructions

Code is a sequence of units, each an opcode or a one-byte operand.  A unit says which of the two
it is, so that an operand in the place of an opcode is noticed.
-/

/-- What an instruction does. -/
inductive Opcode where
  | constant
  | true
  | false
  | add
  | subtract
  | multiply
  | divide
  | quotient
  | power
  | equal
  | notEqual
  | greater
  | greaterEqual
  | less
  | lessEqual
  | not
  | negate
  | noop
  | pop
  | return
  | assert
  deriving Repr, DecidableEq

/-- What a unit holds, by its tag. -/
structure UnitKind where
  tag : UInt8
  deriving Repr, DecidableEq

namespace UnitKind

/-- An opcode. -/
def opcode : UnitKind := { tag := 0 }

/-- An index into the constants of a chunk. -/
def constantIndex : UnitKind := { tag := 1 }

/-- A number of units to skip, which no instruction uses. -/
def jumpDistance : UnitKind := { tag := 2 }

/-- The name of a kind of unit. -/
def name (kind : UnitKind) : String :=
  if kind = opcode then
    "op"
  else if kind = constantIndex then
    "constant-index"
  else if kind = jumpDistance then
    "jump-distance"
  else
    "UnitKind(" ++ Text.integer kind.tag.toNat ++ ")"

end UnitKind

/-- One cell of code. -/
structure CodeUnit where
  kind : UnitKind
  byte : UInt8
  deriving Repr, DecidableEq

namespace Opcode

/-- All opcodes, in the order of their numbers. -/
def all : List Opcode :=
  [.constant, .true, .false, .add, .subtract, .multiply, .divide, .quotient, .power, .equal,
    .notEqual, .greater, .greaterEqual, .less, .lessEqual, .not, .negate, .noop, .pop, .return,
    .assert]

/-- The number of an opcode. -/
def byte : Opcode → UInt8
  | .constant => 0
  | .true => 1
  | .false => 2
  | .add => 3
  | .subtract => 4
  | .multiply => 5
  | .divide => 6
  | .quotient => 7
  | .power => 8
  | .equal => 9
  | .notEqual => 10
  | .greater => 11
  | .greaterEqual => 12
  | .less => 13
  | .lessEqual => 14
  | .not => 15
  | .negate => 16
  | .noop => 17
  | .pop => 18
  | .return => 19
  | .assert => 20

/-- The opcode that a number stands for. -/
def ofByte? (byte : UInt8) : Option Opcode :=
  match byte.toNat with
  | 0 => some .constant
  | 1 => some .true
  | 2 => some .false
  | 3 => some .add
  | 4 => some .subtract
  | 5 => some .multiply
  | 6 => some .divide
  | 7 => some .quotient
  | 8 => some .power
  | 9 => some .equal
  | 10 => some .notEqual
  | 11 => some .greater
  | 12 => some .greaterEqual
  | 13 => some .less
  | 14 => some .lessEqual
  | 15 => some .not
  | 16 => some .negate
  | 17 => some .noop
  | 18 => some .pop
  | 19 => some .return
  | 20 => some .assert
  | _ => none

/-- The name of an opcode in listings. -/
def name : Opcode → String
  | .constant => "OpConstant"
  | .true => "OpTrue"
  | .false => "OpFalse"
  | .add => "OpAdd"
  | .subtract => "OpSubtract"
  | .multiply => "OpMultiply"
  | .divide => "OpDivide"
  | .quotient => "OpIntDivide"
  | .power => "OpExponent"
  | .equal => "OpValueEqual"
  | .notEqual => "OpNotValueEqual"
  | .greater => "OpGreater"
  | .greaterEqual => "OpGreaterEqual"
  | .less => "OpLess"
  | .lessEqual => "OpLessEqual"
  | .not => "OpNot"
  | .negate => "OpNegative"
  | .noop => "OpNoop"
  | .pop => "OpPop"
  | .return => "OpReturn"
  | .assert => "OpAssert"

/-- The name that a number has in listings, whether it stands for an opcode or not. -/
def nameOfByte (byte : UInt8) : String :=
  match ofByte? byte with
  | some opcode => opcode.name
  | none => "Opcode(" ++ Text.integer byte.toNat ++ ")"

/-- The wording for a number that stands for no opcode. -/
def undefinedMessage (byte : UInt8) : String :=
  "opcode " ++ Text.integer byte.toNat ++ " undefined"

/-- The kinds of the operands of an instruction, each of one unit. -/
def operandKinds : Opcode → List UnitKind
  | .constant => [.constantIndex]
  | _ => []

/-- The number of operand units of an instruction. -/
def width (opcode : Opcode) : Nat :=
  opcode.operandKinds.length

/-- The operator that a binary instruction applies. -/
def operator? : Opcode → Option Operator
  | .add => some .add
  | .subtract => some .subtract
  | .multiply => some .multiply
  | .divide => some .divide
  | .quotient => some .quotient
  | .power => some .power
  | .equal => some .equal
  | .notEqual => some .notEqual
  | .greater => some .greater
  | .greaterEqual => some .greaterEqual
  | .less => some .less
  | .lessEqual => some .lessEqual
  | _ => none

/-- Operand units; an operand that is not given leaves a unit of zeros. -/
def operandUnits : List UnitKind → List Int → List CodeUnit
  | [], _ => []
  | _ :: kinds, [] => { kind := { tag := 0 }, byte := 0 } :: operandUnits kinds []
  | kind :: kinds, operand :: operands =>
      { kind := kind, byte := (operand % 256).toNat.toUInt8 } :: operandUnits kinds operands

/-- The units of an instruction, each operand cut to a byte. -/
def make (opcode : Opcode) (operands : List Int) : List CodeUnit :=
  { kind := .opcode, byte := opcode.byte } :: operandUnits opcode.operandKinds operands

/-- The units of the instruction with a number, none if it stands for no opcode. -/
def makeByte (byte : UInt8) (operands : List Int) : List CodeUnit :=
  match ofByte? byte with
  | some opcode => opcode.make operands
  | none => []

/-- The operands at the front of some units, zero where there are too few. -/
def readOperands (opcode : Opcode) (units : List CodeUnit) : List UInt8 :=
  (List.range opcode.width).map fun index =>
    match units[index]? with
    | some unit => unit.byte
    | none => 0

end Opcode

namespace CodeUnit

/-- A unit as it is shown. -/
def text (unit : CodeUnit) : String :=
  if unit.kind = .opcode then
    Opcode.nameOfByte unit.byte
  else
    unit.kind.name ++ "(" ++ Text.integer unit.byte.toNat ++ ")"

end CodeUnit

end Reckon
