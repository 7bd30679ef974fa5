import Reckon.Bytecode.Chunk

namespace Reckon

/-!
# Listings

A listing shows one instruction a line, with its offset, its source line where that changes, and
the constant it refers to.  A unit that is no instruction is reported in place and stepped over.
-/

/-- Why no instruction can be shown at an offset. -/
inductive ListingProblem where
  | expectedOpcode (unit : CodeUnit)
  | undefinedOpcode (byte : UInt8)
  | missingOperand (opcode : Opcode)
  deriving Repr, DecidableEq

namespace ListingProblem

/-- The wording of a problem. -/
def message : ListingProblem → String
  | .expectedOpcode unit => unit.text ++ " where an opcode was expected"
  | .undefinedOpcode byte => Opcode.undefinedMessage byte
  | .missingOperand opcode => opcode.name ++ " is missing its operand"

end ListingProblem

namespace Chunk

/-- The instruction at an offset; none is there outside the code. -/
def instructionAt
    (chunk : Chunk)
    (offset : Nat) :
    Outcome ListingProblem Opcode :=
  match chunk.code[offset]? with
  | none => .aborted
  | some unit =>
      if unit.kind ≠ .opcode then
        .failed (.expectedOpcode unit)
      else
        match Opcode.ofByte? unit.byte with
        | none => .failed (.undefinedOpcode unit.byte)
        | some opcode =>
            if chunk.code.length < offset + 1 + opcode.width then
              .failed (.missingOperand opcode)
            else
              .done opcode

/-- An operand, with the constant that it refers to. -/
def operandText (chunk : Chunk) (kind : UnitKind) (operand : UInt8) : String :=
  let number := " " ++ Text.integer operand.toNat
  if kind = .constantIndex then
    match chunk.constants[operand.toNat]? with
    | some constant => number ++ " (" ++ constant.text ++ ")"
    | none => number
  else
    number

/-- The offset of an instruction and its line, or a bar where the line does not change. -/
def placeText (chunk : Chunk) (offset : Nat) : String :=
  let line := chunk.lineAt offset
  if 0 < offset ∧ line = chunk.lineAt (offset - 1) then
    Text.zeroPadded 4 offset ++ "    | "
  else
    Text.zeroPadded 4 offset ++ " " ++ Text.padLeft 4 (Text.integer line.toInt) ++ " "

/-- The line of a listing for an instruction. -/
def instructionLine (chunk : Chunk) (offset : Nat) (opcode : Opcode) : String :=
  let operands := opcode.readOperands (chunk.code.drop (offset + 1))
  let operandTexts :=
    (opcode.operandKinds.zip operands).map fun operand =>
      chunk.operandText operand.1 operand.2
  chunk.placeText offset ++ opcode.name ++ String.join operandTexts

/-- The instruction at an offset as it is listed. -/
def instructionText
    (chunk : Chunk)
    (offset : Int) :
    Outcome ListingProblem String :=
  match offset with
  | .ofNat offset => (chunk.instructionAt offset).map (chunk.instructionLine offset)
  | .negSucc _ => .aborted

/-- The lines from an offset on, of which there are at most as many as stated. -/
def instructionLines (chunk : Chunk) : Nat → Nat → List String
  | 0, _ => []
  | count + 1, offset =>
      match chunk.instructionAt offset with
      | .done opcode =>
          chunk.instructionLine offset opcode ::
            chunk.instructionLines count (offset + 1 + opcode.width)
      | .failed problem =>
          (Text.zeroPadded 4 offset ++ " ERROR: " ++ problem.message) ::
            chunk.instructionLines count (offset + 1)
      | .aborted => []

/-- The lines that show the constants from an index on. -/
def constantLines : Nat → List Value → List String
  | _, [] => []
  | index, constant :: rest =>
      ("  [" ++ Text.integer index ++ "] " ++ constant.kind.name ++ " " ++ constant.text) ::
        constantLines (index + 1) rest

end Chunk

namespace Function

/-- The wording where a function was needed and there was none, or none with a chunk. -/
def missingMessage : String := "nil function"

/-- The lines of a listing before those of the code: the function and its constants. -/
def listingHead (function : Function) (chunk : Chunk) : List String :=
  ["== " ++ function.text ++ " (arity=" ++ Text.integer function.arity.toInt ++ ") ==",
      "Constants (" ++ Text.integer chunk.constants.length ++ "):"] ++
    Chunk.constantLines 0 chunk.constants

/-- The listing of a function that has a chunk. -/
def listing? (function : Function) : Option String :=
  function.chunk?.map fun chunk =>
    let heading := "Instructions (" ++ Text.integer chunk.code.length ++ " units):"
    let instructions := chunk.instructionLines chunk.code.length 0
    String.join ((function.listingHead chunk ++ heading :: instructions).map (· ++ "\n"))

end Function

end Reckon
