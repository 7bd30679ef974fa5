import Reckon.Bytecode.Opcode

namespace Reckon

/-!
# Chunks

A chunk is code with one line number for each unit and the constants that the code refers to.
`Chunk.validate` accepts exactly the chunks whose units are whole instructions that refer to
constants of the chunk.
-/

/-- Code, the line of each unit, and constants. -/
structure Chunk where
  code : List CodeUnit
  lines : List Int64
  constants : List Value
  deriving Repr

/-- Why a chunk is refused. -/
inductive ChunkProblem where
  | lineCount (lines units : Nat)
  | constantCount (constants : Nat)
  | expectedOpcode (position : Nat) (unit : CodeUnit)
  | undefinedOpcode (position : Nat) (byte : UInt8)
  | missingOperand (position : Nat) (opcode : Opcode)
  | wrongOperand (position : Nat) (kind : UnitKind) (unit : CodeUnit)
  | constantRange (position : Nat) (index : UInt8) (constants : Nat)
  deriving Repr, DecidableEq

namespace ChunkProblem

/-- The place of a problem in a message. -/
def placed (position : Nat) (detail : String) : String :=
  "unit " ++ Text.integer position ++ ": " ++ detail

/-- The wording of a problem. -/
def message : ChunkProblem → String
  | .lineCount lines units =>
      "line table has " ++ Text.integer lines ++ " entries for " ++ Text.integer units ++
        " units"
  | .constantCount constants =>
      "too many constants in one chunk (" ++ Text.integer constants ++ ")"
  | .expectedOpcode position unit =>
      ChunkProblem.placed position ("expected opcode, got " ++ unit.text)
  | .undefinedOpcode position byte =>
      ChunkProblem.placed position (Opcode.undefinedMessage byte)
  | .missingOperand position opcode =>
      ChunkProblem.placed position (opcode.name ++ " is missing its operand")
  | .wrongOperand position kind unit =>
      ChunkProblem.placed position ("expected " ++ kind.name ++ ", got " ++ unit.text)
  | .constantRange position index constants =>
      ChunkProblem.placed position
        ("constant index " ++ Text.integer index.toNat ++ " out of range (" ++
          Text.integer constants ++ " constants)")

end ChunkProblem

namespace Chunk

/-- A chunk with nothing in it. -/
def empty : Chunk :=
  { code := [], lines := [], constants := [] }

/-- How many constants a one-byte index can tell apart. -/
def maxConstants : Nat := 256

/-- Append units that all have one line. -/
def write (chunk : Chunk) (units : List CodeUnit) (line : Int64) : Chunk :=
  { chunk with
    code := chunk.code ++ units
    lines := chunk.lines ++ List.replicate units.length line }

/-- Append a constant, unless there are as many as can be told apart; its index is the last one. -/
def addConstant? (chunk : Chunk) (value : Value) : Option Chunk :=
  if maxConstants ≤ chunk.constants.length then
    none
  else
    some { chunk with constants := chunk.constants ++ [value] }

/-- The index of the last constant, if there is one. -/
def lastConstant (chunk : Chunk) : Int :=
  (chunk.constants.length : Int) - 1

/-- The wording when there is no room for a constant. -/
def fullMessage : String :=
  "too many constants in one chunk (limit " ++ Text.integer maxConstants ++ ")"

/-- Drop every unit from a position on; there must be that many units. -/
def truncate? (chunk : Chunk) (position : Int) : Option Chunk :=
  match position with
  | .ofNat kept =>
      if kept ≤ chunk.code.length ∧ kept ≤ chunk.lines.length then
        some { chunk with code := chunk.code.take kept, lines := chunk.lines.take kept }
      else
        none
  | .negSucc _ => none

/-- The line of a unit, zero where there is none. -/
def lineAt (chunk : Chunk) (position : Nat) : Int64 :=
  chunk.lines[position]?.getD 0

/-- The line of a unit at any position, zero where there is none. -/
def line (chunk : Chunk) (position : Int) : Int64 :=
  match position with
  | .ofNat position => chunk.lineAt position
  | .negSucc _ => 0

/-- Check whole instructions from a position on. -/
def checkCode
    (constants : Nat) :
    Nat → List CodeUnit → Except ChunkProblem Unit
  | _, [] => .ok ()
  | position, unit :: rest =>
      if unit.kind ≠ .opcode then
        .error (.expectedOpcode position unit)
      else
        match Opcode.ofByte? unit.byte with
        | none => .error (.undefinedOpcode position unit.byte)
        | some .constant =>
            match rest with
            | [] => .error (.missingOperand position .constant)
            | operand :: rest =>
                if operand.kind ≠ .constantIndex then
                  .error (.wrongOperand (position + 1) .constantIndex operand)
                else if constants ≤ operand.byte.toNat then
                  .error (.constantRange (position + 1) operand.byte constants)
                else
                  checkCode constants (position + 2) rest
        | some _ => checkCode constants (position + 1) rest

/-- Check the invariants that running a chunk relies on. -/
def validate (chunk : Chunk) : Except ChunkProblem Unit :=
  if chunk.lines.length ≠ chunk.code.length then
    .error (.lineCount chunk.lines.length chunk.code.length)
  else if maxConstants < chunk.constants.length then
    .error (.constantCount chunk.constants.length)
  else
    checkCode chunk.constants.length 0 chunk.code

end Chunk

/-- A named piece of code; a function that was only announced has no chunk. -/
structure Function where
  name : String
  arity : Int64
  chunk? : Option Chunk
  deriving Repr

namespace Function

/-- The name of the function that a whole program is compiled to. -/
def scriptName : String := "<script>"

/-- A function with an empty chunk. -/
def named (name : String) (arity : Int64) : Function :=
  { name := name, arity := arity, chunk? := some .empty }

/-- A function as it is shown. -/
def text (function : Function) : String :=
  if function.name = "" ∨ function.name = scriptName then
    scriptName
  else
    "<fn " ++ function.name ++ "/" ++ Text.integer function.arity.toInt ++ ">"

end Function

end Reckon
