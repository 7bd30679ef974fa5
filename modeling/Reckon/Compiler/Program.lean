import Reckon.Compiler.Scope

namespace Reckon

/-!
# Programs

A program is a sequence of statements, each an expression or an assertion of one.  Expressions
are read by precedence climbing: an operand, then every operator that binds at least as tightly
as the level asked for, each with its right operand one level tighter.  Code is appended on the
way, operands before their operator.
-/

namespace Compiler

/-- Why reading a program stopped short, and the compiler where it did. -/
structure Stop where
  error : SourceError
  compiler : Compiler
  deriving Repr

/-- A step of reading a program, which a problem leaves where it was found. -/
abbrev Reading (α : Type) := Outcome Stop α

/-- Take a step here, so that a problem of it is found here. -/
def here {α : Type} (compiler : Compiler) (step : Step α) : Reading α :=
  step.mapFailure fun error => { error := error, compiler := compiler }

/-- Append a constant and the instruction that loads it. -/
def emitConstant (compiler : Compiler) (value : Value) : Step Compiler :=
  match compiler.chunk? with
  | none => .aborted
  | some chunk =>
      match chunk.addConstant? value with
      | none => compiler.failAtPrevious .tooManyConstants
      | some extended =>
          { compiler with chunk? := some extended }.emit .constant [extended.lastConstant]

/-- Read the number that is the token read last. -/
def number (compiler : Compiler) : Step Compiler := do
  let token ← compiler.previous
  let text ← compiler.lexeme token
  match token.number text with
  | .ok value => compiler.emitConstant value
  | .error error => .failed (.lexical error)

/-- Read the parenthesis that closes a group. -/
def closeGroup (compiler : Compiler) : Step Compiler := do
  let token ← compiler.peek
  if token.kind = .rightParenthesis then
    .done compiler.advance
  else
    compiler.failAt token .missingParenthesis

/-- Append the instruction of a binary operator. -/
def emitOperator (compiler : Compiler) (operator : Token) : Step Compiler :=
  match operator.kind.instruction? with
  | some opcode => compiler.emitAt operator.line opcode []
  | none => compiler.failAt operator .unknownOperator

/-- Refuse an assignment after a whole expression. -/
def refuseAssignment (precedence : Precedence) (compiler : Compiler) : Step Compiler := do
  if precedence.rank ≤ Precedence.assignment.rank then
    let token ← compiler.peek
    if token.kind = .assign then
      compiler.failAt token .assignmentTarget
    else
      .done compiler
  else
    .done compiler

mutual

/-- Read an expression whose operators bind at least as tightly as a level. -/
def parse
    (fuel : Nat)
    (precedence : Precedence)
    (compiler : Compiler) :
    Reading Compiler :=
  match fuel with
  | 0 => .aborted
  | fuel + 1 => do
      let compiler := compiler.advance
      let token ← compiler.here compiler.previous
      match token.kind.rule.opening? with
      | none => compiler.here (compiler.failAt token .unexpectedStart)
      | some .number => do
          let compiler ← compiler.here compiler.number
          parseOperators fuel precedence compiler
      | some .grouping => do
          let compiler ← parse fuel .assignment compiler
          let compiler ← compiler.here compiler.closeGroup
          parseOperators fuel precedence compiler

/-- Read the operators after an operand, each with its right operand. -/
def parseOperators
    (fuel : Nat)
    (precedence : Precedence)
    (compiler : Compiler) :
    Reading Compiler :=
  match fuel with
  | 0 => .aborted
  | fuel + 1 => do
      let operator ← compiler.here compiler.peek
      let rule := operator.kind.rule
      if precedence.rank ≤ rule.precedence.rank then do
        let compiler := compiler.advance
        if rule.joinsOperands then do
          let compiler ← parse fuel rule.precedence.next compiler
          let compiler ← compiler.here (compiler.emitOperator operator)
          parseOperators fuel precedence compiler
        else
          compiler.here (compiler.failAt operator .unexpectedAfter)
      else
        compiler.here (compiler.refuseAssignment precedence)

end

/-- Enough fuel for the tokens that are left: each reading step takes one of them. -/
def parseFuel (compiler : Compiler) : Nat :=
  2 * compiler.cursor.ahead.length + 3

/-- Read a whole expression. -/
def expression (compiler : Compiler) : Reading Compiler :=
  parse compiler.parseFuel .assignment compiler

/-- Read a statement. -/
def statement (compiler : Compiler) : Reading Compiler := do
  let token ← compiler.here compiler.peek
  if token.kind = .assertWord then
    let compiler ← compiler.advance.expression
    let compiler ← compiler.here (compiler.emit .assert [])
    .done { compiler with lastPop? := none }
  else
    let compiler ← compiler.expression
    let position := compiler.chunk?.map (·.code.length)
    let compiler ← compiler.here (compiler.emit .pop [])
    .done { compiler with lastPop? := position }

/-- Read statements up to the end of input. -/
def statements (fuel : Nat) (compiler : Compiler) : Reading Compiler :=
  match fuel with
  | 0 => .aborted
  | fuel + 1 => do
      let token ← compiler.here compiler.peek
      if token.kind = .endOfInput then
        .done compiler
      else
        let compiler ← compiler.statement
        statements fuel compiler

/--
End the program: it returns the value of its last statement if that is an expression, whose pop
is taken back, and true otherwise.
-/
def finish (compiler : Compiler) : Step Chunk := do
  let token ← compiler.peek
  match compiler.chunk? with
  | none => .aborted
  | some chunk =>
      let returned :=
        match compiler.lastPop? with
        | some position =>
            if position + 1 = chunk.code.length then
              chunk.truncate? position
            else
              some (chunk.write (Opcode.make .true []) token.line)
        | none => some (chunk.write (Opcode.make .true []) token.line)
      match returned with
      | some chunk => .done (chunk.write (Opcode.make .return []) token.line)
      | none => .aborted

/-- Read a whole program and end it. -/
def program (compiler : Compiler) : Reading (Function × Compiler) := do
  let compiler ← compiler.statements (compiler.cursor.ahead.length + 1)
  let chunk ← compiler.here compiler.finish
  .done ({ name := Function.scriptName, arity := 0, chunk? := some chunk }, compiler)

/-- Tokens with an end: one is added on the line of the last token if there is none. -/
def withEnd (source : List Char) (tokens : List Token) : List Token :=
  match tokens.getLast? with
  | some last =>
      if last.kind = .endOfInput then
        tokens
      else
        tokens ++
          [{ kind := .endOfInput, start := source.length, length := 0, line := last.line }]
  | none => [{ kind := .endOfInput, start := source.length, length := 0, line := 1 }]

/-- A compiler at the start of a program, whatever it did before. -/
def start (compiler : Compiler) (source : List Char) (tokens : List Token) : Compiler :=
  { compiler with
    source := source
    cursor := .ofTokens tokens
    chunk? := some .empty
    kind := .script
    lastPop? := none }.resetLocals

/-- A compiler handed back for later use. -/
def handBack (compiler : Compiler) : Compiler :=
  { compiler with
    source := []
    cursor := .ofTokens []
    chunk? := none
    kind := .script
    lastPop? := none }.resetLocals

/-- Compile tokens of a source; a problem leaves the compiler where it was found. -/
def compileTokens
    (compiler : Compiler)
    (source : List Char)
    (tokens : List Token) :
    Step Function × Compiler :=
  let started := compiler.start source (withEnd source tokens)
  match started.program with
  | .done (function, compiler) => (.done function, { compiler with chunk? := none })
  | .failed stop => (.failed stop.error, stop.compiler)
  | .aborted => (.aborted, started)

/-- Compile a source; one that cannot be read as tokens leaves the compiler as it is. -/
def compile (compiler : Compiler) (source : List Char) : Step Function × Compiler :=
  match tokenize source with
  | .ok tokens => compiler.compileTokens source tokens
  | .error error => (.failed (.lexical error), compiler)

end Compiler

end Reckon
