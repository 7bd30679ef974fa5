import Reckon.Decimal.Reading
import Reckon.Text.Quoted
import Reckon.Token.Basic
import Reckon.Value.Basic

namespace Reckon

/-!
# Number literals

A literal is decoded by the kind of its token once its underscores are dropped.  A whole number
may have an exponent as long as the value is whole; an imaginary number ends in `j`.
-/

/-- Why the text of a number token has no value. -/
inductive LiteralProblem where
  | empty
  | number (problem : Decimal.Problem)
  | notWhole
  | missingImaginary
  | notNumber (kind : TokenKind)
  deriving Repr, DecidableEq

namespace LiteralProblem

/-- The wording of a problem. -/
def message : LiteralProblem → String
  | .empty => "empty"
  | .number problem => problem.message
  | .notWhole => "exponent does not yield an integer"
  | .missingImaginary => "missing imaginary part"
  | .notNumber kind => kind.name ++ " is not a number token"

end LiteralProblem

/-- What is wrong at a place of the source. -/
inductive LexicalProblem where
  | unexpected (char : Char)
  | malformed (text : List Char) (problem : LiteralProblem)
  deriving Repr, DecidableEq

/-- A place of the source where no token can be read, or none that has a value. -/
structure LexicalError where
  line : Int64
  offset : Int
  problem : LexicalProblem
  deriving Repr, DecidableEq

namespace LexicalError

/-- The wording of what is wrong. -/
def detail (error : LexicalError) : String :=
  match error.problem with
  | .unexpected char => "unexpected character " ++ Text.quoteChar char
  | .malformed text problem =>
      "malformed numeric literal " ++ Text.quote text ++ ": " ++ problem.message

/-- The wording of the error. -/
def message (error : LexicalError) : String :=
  "[line " ++ Text.integer error.line.toInt ++ "] lexical error at offset " ++
    Text.integer error.offset ++ ": " ++ error.detail

end LexicalError

namespace Literal

/-- A problem in place of a number that cannot be read. -/
def reading {α : Type} : Except Decimal.Problem α → Except LiteralProblem α
  | .ok number => .ok number
  | .error problem => .error (.number problem)

/-- A double as a whole number of 32 bits. -/
def wholeNumber (number : Float) : Except LiteralProblem Value :=
  match Binary64.shape number with
  | .nan => .error .notWhole
  | .infinite _ => .error (.number .outOfRange)
  | .finite .. =>
      match Binary64.toInt? number with
      | none => .error .notWhole
      | some whole =>
          if -0x80000000 ≤ whole ∧ whole < 0x80000000 then
            .ok (.integer (Int32.ofInt whole))
          else
            .error (.number .outOfRange)

/-- A whole number, with or without an exponent. -/
def integer (digits : List Char) : Except LiteralProblem Value :=
  if digits.any (fun char => char = 'e' || char = 'E') then do
    let number ← reading (Decimal.fraction digits)
    wholeNumber number
  else do
    let number ← reading (Decimal.integer 32 digits)
    .ok (.integer (Int32.ofInt number))

/-- A fraction. -/
def float (digits : List Char) : Except LiteralProblem Value := do
  let number ← reading (Decimal.fraction digits)
  .ok (.float number)

/-- A text without the letters `j` at its end. -/
def dropImaginaryUnit (digits : List Char) : List Char :=
  (digits.reverse.dropWhile fun char => char = 'j' || char = 'J').reverse

/-- An imaginary number. -/
def imaginary (digits : List Char) : Except LiteralProblem Value :=
  let part := dropImaginaryUnit digits
  if part.isEmpty then
    .error .missingImaginary
  else do
    let number ← reading (Decimal.fraction part)
    .ok (.complex { re := 0, im := number })

/-- The value of a literal. -/
def decode (kind : TokenKind) (text : List Char) : Except LiteralProblem Value :=
  let digits := text.filter (· ≠ '_')
  if digits.isEmpty then
    .error .empty
  else
    match kind with
    | .integer => integer digits
    | .float => float digits
    | .complex => imaginary digits
    | kind => .error (.notNumber kind)

end Literal

namespace Token

/-- The value of a number token with the given text. -/
def number (token : Token) (text : List Char) : Except LexicalError Value :=
  match Literal.decode token.kind text with
  | .ok value => .ok value
  | .error problem =>
      .error
        { line := token.line
          offset := token.start
          problem := .malformed text problem }

end Token

end Reckon
