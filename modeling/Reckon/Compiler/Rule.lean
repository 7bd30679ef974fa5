import Reckon.Bytecode.Opcode
import Reckon.Token.Basic

namespace Reckon

/-!
# Precedence and parse rules

Every kind of token has a rule: what it does at the start of an expression, whether it joins two
operands, and how tightly it then binds.
-/

/-- How tightly an operator binds, the loosest first. -/
structure Precedence where
  rank : Int
  deriving Repr, DecidableEq

namespace Precedence

/-- Binds nothing. -/
def none : Precedence := { rank := 0 }

/-- The loosest level, at which whole expressions are read. -/
def assignment : Precedence := { rank := 1 }

/-- Equality and inequality. -/
def equality : Precedence := { rank := 4 }

/-- The order comparisons. -/
def comparison : Precedence := { rank := 5 }

/-- Sums and differences. -/
def term : Precedence := { rank := 6 }

/-- Products and quotients. -/
def factor : Precedence := { rank := 7 }

/-- Powers. -/
def exponent : Precedence := { rank := 8 }

/-- The tightest level. -/
def primary : Precedence := { rank := 11 }

/-- The names of the levels in their order. -/
def names : List String :=
  ["None", "Assignment", "Or", "And", "Equality", "Comparison", "Term", "Factor", "Exponent",
    "Unary", "Call", "Primary"]

/-- The name of a level. -/
def name (precedence : Precedence) : String :=
  let fallback := "Precedence(" ++ Text.integer precedence.rank ++ ")"
  match precedence.rank with
  | .ofNat rank => names[rank]?.getD fallback
  | .negSucc _ => fallback

/-- The level one step tighter; operands on the right are read at it. -/
def next (precedence : Precedence) : Precedence :=
  if primary.rank ≤ precedence.rank then primary else { rank := precedence.rank + 1 }

end Precedence

/-- What a token does at the start of an expression. -/
inductive Opening where
  | grouping
  | number
  deriving Repr, DecidableEq

/-- The part that a kind of token plays in expressions. -/
structure Rule where
  opening? : Option Opening
  joinsOperands : Bool
  precedence : Precedence
  deriving Repr, DecidableEq

namespace Rule

/-- The rule of tokens that play no part. -/
def idle : Rule :=
  { opening? := none, joinsOperands := false, precedence := .none }

/-- The rule of a token that starts an expression. -/
def opening (opening : Opening) : Rule :=
  { opening? := some opening, joinsOperands := false, precedence := .none }

/-- The rule of a binary operator. -/
def binary (precedence : Precedence) : Rule :=
  { opening? := none, joinsOperands := true, precedence := precedence }

end Rule

namespace TokenKind

/-- The rule of a kind of token. -/
def rule : TokenKind → Rule
  | .leftParenthesis => .opening .grouping
  | .integer | .float | .complex => .opening .number
  | .plus | .minus => .binary .term
  | .star | .slash | .slashSlash => .binary .factor
  | .starStar => .binary .exponent
  | .less | .lessEqual | .greater | .greaterEqual => .binary .comparison
  | .equal | .notEqual => .binary .equality
  | _ => .idle

/-- The instruction that a binary operator compiles to. -/
def instruction? : TokenKind → Option Opcode
  | .plus => some .add
  | .minus => some .subtract
  | .star => some .multiply
  | .slash => some .divide
  | .slashSlash => some .quotient
  | .starStar => some .power
  | .greater => some .greater
  | .greaterEqual => some .greaterEqual
  | .less => some .less
  | .lessEqual => some .lessEqual
  | .equal => some .equal
  | .notEqual => some .notEqual
  | _ => none

end TokenKind

/-- The kinds of functions that code can be compiled for, by number. -/
structure FunctionKind where
  code : Int
  deriving Repr, DecidableEq

namespace FunctionKind

/-- A whole program. -/
def script : FunctionKind := { code := 0 }

/-- The name of a kind of function. -/
def name (kind : FunctionKind) : String :=
  match kind.code with
  | 0 => "script"
  | 1 => "function"
  | 2 => "method"
  | 3 => "initializer"
  | code => "FunctionType(" ++ Text.integer code ++ ")"

end FunctionKind

end Reckon
