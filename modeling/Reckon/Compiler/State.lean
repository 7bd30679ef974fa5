import Reckon.Bytecode.Chunk
import Reckon.Compiler.Rule
import Reckon.Token.Scanner

namespace Reckon

/-!
# The state of a compiler

A compiler reads tokens one by one and appends code to the chunk of the function in the making.
It keeps no syntax tree.
-/

/-- Why a program does not compile. -/
inductive CompileProblem where
  | unexpectedStart
  | unexpectedAfter
  | assignmentTarget
  | missingParenthesis
  | unknownOperator
  | tooManyConstants
  | tooManyLocals
  | duplicateLocal
  | ownInitializer
  deriving Repr, DecidableEq

namespace CompileProblem

/-- The wording of a problem. -/
def message : CompileProblem → String
  | .unexpectedStart => "unexpected token in expression position"
  | .unexpectedAfter => "unexpected token after expression"
  | .assignmentTarget => "invalid assignment target"
  | .missingParenthesis => "expect ')' after expression"
  | .unknownOperator => "unknown binary operator"
  | .tooManyConstants => "too many constants in one chunk"
  | .tooManyLocals => "too many local variables in function"
  | .duplicateLocal => "already a variable with this name in this scope"
  | .ownInitializer => "can't read local variable in its own initializer"

end CompileProblem

/-- A problem at a token, which is given by its line and its lexeme. -/
structure CompileError where
  line : Int64
  lexeme : List Char
  problem : CompileProblem
  deriving Repr, DecidableEq

namespace CompileError

/-- The wording of an error; a token without a lexeme is the end. -/
def message (error : CompileError) : String :=
  let place :=
    if error.lexeme.isEmpty then "end" else "'" ++ String.ofList error.lexeme ++ "'"
  "[line " ++ Text.integer error.line.toInt ++ "] Error at " ++ place ++ ": " ++
    error.problem.message

end CompileError

/-- Why a source has no function: it cannot be read as tokens, or not as a program. -/
inductive SourceError where
  | lexical (error : LexicalError)
  | compile (error : CompileError)
  deriving Repr, DecidableEq

namespace SourceError

/-- The wording of an error. -/
def message : SourceError → String
  | .lexical error => error.message
  | .compile error => error.message

end SourceError

/-- Tokens read already, the latest first, and tokens to come. -/
structure Cursor where
  behind : List Token
  ahead : List Token
  deriving Repr, DecidableEq

namespace Cursor

/-- The start of a list of tokens. -/
def ofTokens (tokens : List Token) : Cursor :=
  { behind := [], ahead := tokens }

/-- The token to come, or the last one once there is none. -/
def peek? (cursor : Cursor) : Option Token :=
  cursor.ahead.head?.or cursor.behind.head?

/-- The token read last, or the first one before any is read. -/
def previous? (cursor : Cursor) : Option Token :=
  cursor.behind.head?.or cursor.ahead.head?

/-- Read a token, if one is left. -/
def advance (cursor : Cursor) : Cursor :=
  match cursor.ahead with
  | [] => cursor
  | token :: rest => { behind := token :: cursor.behind, ahead := rest }

end Cursor

/-- A variable of a block, which lives in a slot of the frame, and the depth of its block. -/
structure Local where
  name : Token
  depth : Int
  captured : Bool
  deriving Repr, DecidableEq

namespace Local

/-- The depth that stands for a declaration whose initializer is not read yet. -/
def pending : Int := -1

/-- The slot of the function itself, which has no name. -/
def callee : Local :=
  { name := { kind := .other "", start := 0, length := 0, line := 0 }
    depth := 0
    captured := false }

/-- A local that is declared and not initialized. -/
def declare (name : Token) : Local :=
  { name := name, depth := pending, captured := false }

/-- The local belongs to a block around the one of the given depth. -/
def isOutside (entry : Local) (depth : Int) : Bool :=
  entry.depth ≠ pending && entry.depth < depth

end Local

/-- A compiler between two tokens. -/
structure Compiler where
  source : List Char
  cursor : Cursor
  /-- The chunk of the function in the making. -/
  chunk? : Option Chunk
  kind : FunctionKind
  /-- The locals in scope, the newest first and the slot of the function last. -/
  locals : List Local
  depth : Int
  /-- The position of the pop that ends the latest statement, if that is an expression. -/
  lastPop? : Option Nat
  deriving Repr

namespace Compiler

/-- A compiler with nothing to do. -/
def new : Compiler :=
  { source := []
    cursor := .ofTokens []
    chunk? := none
    kind := .script
    locals := [Local.callee]
    depth := 0
    lastPop? := none }

/-- A step of a compiler. -/
abbrev Step (α : Type) := Outcome SourceError α

/-- The token to come. -/
def peek (compiler : Compiler) : Step Token :=
  match compiler.cursor.peek? with
  | some token => .done token
  | none => .aborted

/-- The token read last. -/
def previous (compiler : Compiler) : Step Token :=
  match compiler.cursor.previous? with
  | some token => .done token
  | none => .aborted

/-- Read a token. -/
def advance (compiler : Compiler) : Compiler :=
  { compiler with cursor := compiler.cursor.advance }

/-- The lexeme of a token. -/
def lexeme (compiler : Compiler) (token : Token) : Step (List Char) :=
  match token.text? compiler.source with
  | some text => .done text
  | none => .aborted

/-- Fail at a token; the end of input has no lexeme. -/
def failAt
    {α : Type}
    (compiler : Compiler)
    (token : Token)
    (problem : CompileProblem) :
    Step α := do
  let lexeme ← if token.kind = .endOfInput then pure [] else compiler.lexeme token
  .failed (.compile { line := token.line, lexeme := lexeme, problem := problem })

/-- Fail at the token read last. -/
def failAtPrevious {α : Type} (compiler : Compiler) (problem : CompileProblem) : Step α := do
  let token ← compiler.previous
  compiler.failAt token problem

/-- Append an instruction that belongs to a line. -/
def emitAt
    (compiler : Compiler)
    (line : Int64)
    (opcode : Opcode)
    (operands : List Int) :
    Step Compiler :=
  match compiler.chunk? with
  | some chunk =>
      .done { compiler with chunk? := some (chunk.write (opcode.make operands) line) }
  | none => .aborted

/-- Append an instruction that belongs to the line of the token read last. -/
def emit
    (compiler : Compiler)
    (opcode : Opcode)
    (operands : List Int) :
    Step Compiler := do
  let token ← compiler.previous
  compiler.emitAt token.line opcode operands

end Compiler

end Reckon
