import Reckon.Bytecode.Opcode

namespace Reckon

/-!
# Faults

Why running code stops short, and the general cause that each reason belongs to.
-/

/-- The general causes of faults. -/
inductive Cause where
  | typeMismatch
  | divisionByZero
  | unsupportedOperand
  | assertion
  | arity
  | stackOverflow
  | malformedBytecode
  | notCallable
  deriving Repr, DecidableEq

/-- Why a value cannot be called. -/
inductive CalleeProblem where
  | missing
  | kind (name : String)
  | stale
  deriving Repr, DecidableEq

/-- Why running code stops. -/
inductive Fault where
  | arithmetic (fault : ArithmeticFault)
  | assertedKind (kind : Kind)
  | assertion
  | arity (function : String) (expected given : Int64)
  | callDepth (limit : Int64)
  | stackFull (limit : Int64)
  | pastEnd (function : String)
  | expectedOpcode (unit : CodeUnit)
  | missingIndex
  | constantRange (index : UInt8)
  | unknownOpcode (byte : UInt8)
  | underflow
  | callee (problem : CalleeProblem)
  deriving Repr, DecidableEq

namespace Cause

/-- The wording of a cause, with which every message of it begins. -/
def message : Cause → String
  | .typeMismatch => "type mismatch"
  | .divisionByZero => "division by zero"
  | .unsupportedOperand => "unsupported operand"
  | .assertion => "assertion failed"
  | .arity => "wrong number of arguments"
  | .stackOverflow => "stack overflow"
  | .malformedBytecode => "malformed bytecode"
  | .notCallable => "can only call functions"

/-- The wording of a cause with details. -/
def detailed (cause : Cause) (detail : String) : String :=
  cause.message ++ ": " ++ detail

end Cause

namespace CalleeProblem

/-- The wording of a problem. -/
def message : CalleeProblem → String
  | .missing => "nil function"
  | .kind name => "got " ++ name
  | .stale => "stale object handle"

end CalleeProblem

namespace ArithmeticFault

/-- The general cause of a failed operation. -/
def cause : ArithmeticFault → Cause
  | .notNumbers .. => .typeMismatch
  | .kindsDiffer .. => .typeMismatch
  | .divisionByZero .. => .divisionByZero
  | .unsupported .. => .unsupportedOperand
  | .notNumber _ => .typeMismatch
  | .notBoolean _ => .typeMismatch

end ArithmeticFault

namespace Fault

/-- The general cause of a fault. -/
def cause : Fault → Cause
  | .arithmetic fault => fault.cause
  | .assertedKind _ => .typeMismatch
  | .assertion => .assertion
  | .arity .. => .arity
  | .callDepth _ => .stackOverflow
  | .stackFull _ => .stackOverflow
  | .pastEnd _ => .malformedBytecode
  | .expectedOpcode _ => .malformedBytecode
  | .missingIndex => .malformedBytecode
  | .constantRange _ => .malformedBytecode
  | .unknownOpcode _ => .malformedBytecode
  | .underflow => .malformedBytecode
  | .callee _ => .notCallable

/-- The wording of a fault. -/
def message : Fault → String
  | .arithmetic fault => fault.message
  | .assertedKind kind =>
      Cause.typeMismatch.detailed ("assert needs a boolean, got " ++ kind.name)
  | .assertion => Cause.assertion.message
  | .arity function expected given =>
      Cause.arity.detailed
        (function ++ " expected " ++ Text.integer expected.toInt ++ " but got " ++
          Text.integer given.toInt)
  | .callDepth limit =>
      Cause.stackOverflow.detailed
        ("more than " ++ Text.integer limit.toInt ++ " nested calls")
  | .stackFull limit =>
      Cause.stackOverflow.detailed
        ("operand stack exceeds " ++ Text.integer limit.toInt ++ " slots")
  | .pastEnd function =>
      Cause.malformedBytecode.detailed ("ran past the end of " ++ function)
  | .expectedOpcode unit =>
      Cause.malformedBytecode.detailed (unit.text ++ " where an opcode was expected")
  | .missingIndex =>
      Cause.malformedBytecode.detailed "OpConstant without a constant index"
  | .constantRange index =>
      Cause.malformedBytecode.detailed
        ("constant index " ++ Text.integer index.toNat ++ " out of range")
  | .unknownOpcode byte =>
      Cause.malformedBytecode.detailed ("unknown opcode " ++ Text.integer byte.toNat)
  | .underflow => Cause.malformedBytecode.detailed "stack underflow"
  | .callee problem => Cause.notCallable.detailed problem.message

end Fault

/-- A fault with the line and the function of its instruction; outside any, line zero and no name. -/
structure RuntimeError where
  line : Int64
  function : String
  fault : Fault
  deriving Repr, DecidableEq

namespace RuntimeError

/-- A fault outside any instruction. -/
def outside (fault : Fault) : RuntimeError :=
  { line := 0, function := "", fault := fault }

/-- The wording of an error. -/
def message (error : RuntimeError) : String :=
  if error.line = 0 then
    "runtime error: " ++ error.fault.message
  else
    "[line " ++ Text.integer error.line.toInt ++ "] in " ++ error.function ++ ": " ++
      error.fault.message

end RuntimeError

end Reckon
