import Reckon.Text.Columns

namespace Reckon

/-!
# Tokens

A token is a kind and a span of the source.  The length of a number also counts the character
after it, by which the number was seen to end.
-/

/-- The kinds of tokens; a name out of use is a kind of its own. -/
inductive TokenKind where
  | endOfInput
  | identifier
  | integer
  | float
  | complex
  | leftParenthesis
  | rightParenthesis
  | pound
  | plus
  | minus
  | star
  | starStar
  | slash
  | slashSlash
  | assign
  | equal
  | notEqual
  | less
  | lessEqual
  | greater
  | greaterEqual
  | assertWord
  | classWord
  | elifWord
  | elseWord
  | forWord
  | ifWord
  | inWord
  | notWord
  | whileWord
  | other (name : String)
  deriving Repr, DecidableEq

namespace TokenKind

/-- The name of a kind. -/
def name : TokenKind → String
  | .endOfInput => "EOF"
  | .identifier => "IDENT"
  | .integer => "INT"
  | .float => "FLOAT"
  | .complex => "COMPLEX"
  | .leftParenthesis => "("
  | .rightParenthesis => ")"
  | .pound => "#"
  | .plus => "+"
  | .minus => "-"
  | .star => "*"
  | .starStar => "**"
  | .slash => "/"
  | .slashSlash => "//"
  | .assign => "="
  | .equal => "=="
  | .notEqual => "!="
  | .less => "<"
  | .lessEqual => "<="
  | .greater => ">"
  | .greaterEqual => ">="
  | .assertWord => "ASSERT"
  | .classWord => "CLASS"
  | .elifWord => "ELIF"
  | .elseWord => "ELSE"
  | .forWord => "FOR"
  | .ifWord => "IF"
  | .inWord => "IN"
  | .notWord => "NOT"
  | .whileWord => "WHILE"
  | .other name => name

/-- Reserved words with their kinds, in the order of their spelling. -/
def keywords : List (String × TokenKind) :=
  [("assert", .assertWord), ("class", .classWord), ("elif", .elifWord), ("else", .elseWord),
    ("for", .forWord), ("if", .ifWord), ("in", .inWord), ("not", .notWord),
    ("while", .whileWord)]

/-- Operator lexemes with their kinds, in the order of their spelling. -/
def operators : List (String × TokenKind) :=
  [("!=", .notEqual), ("#", .pound), ("(", .leftParenthesis), (")", .rightParenthesis),
    ("*", .star), ("**", .starStar), ("+", .plus), ("-", .minus), ("/", .slash),
    ("//", .slashSlash), ("<", .less), ("<=", .lessEqual), ("=", .assign), ("==", .equal),
    (">", .greater), (">=", .greaterEqual)]

/-- Kinds that are neither reserved words nor operators. -/
def classes : List TokenKind :=
  [.endOfInput, .identifier, .integer, .float, .complex]

/-- The kind that a name stands for. -/
def ofName (name : String) : TokenKind :=
  let known := classes ++ operators.map (·.2) ++ keywords.map (·.2)
  (known.find? (·.name = name)).getD (.other name)

/-- Tokens of this kind are numbers. -/
def isNumber : TokenKind → Bool
  | .integer | .float | .complex => true
  | _ => false

/-- Tokens of this kind are reserved words. -/
def isKeyword (kind : TokenKind) : Bool :=
  keywords.any (·.2 = kind)

/-- Tokens of this kind are operators. -/
def isOperator (kind : TokenKind) : Bool :=
  operators.any (·.2 = kind)

end TokenKind

/-- A kind, a span of the source counted in characters, and the line on which it starts. -/
structure Token where
  kind : TokenKind
  start : Int
  length : Int
  line : Int64
  deriving Repr, DecidableEq

namespace Token

/-- The end of the lexeme: the span without the character that ended a number. -/
def stop (token : Token) : Int :=
  if token.kind.isNumber then
    token.start + token.length - 1
  else
    token.start + token.length

/--
The lexeme of a token.  A span is cut at the end of the source, and is empty when it ends before
it starts; a span that starts before the source has no lexeme.  Ends are machine words: one past
the greatest comes before every start, and one below the least lies past every source.
-/
def text? (source : List Char) (token : Token) : Option (List Char) :=
  let stop := token.stop
  if 0x8000000000000000 ≤ stop ∧ (source.length : Int) < stop then
    some []
  else
    let finish : Int :=
      if stop < -0x8000000000000000 then source.length else min stop source.length
    if finish ≤ token.start then
      some []
    else
      match token.start with
      | .ofNat start => some ((source.drop start).take (finish.toNat - start))
      | .negSucc _ => none

/-- A token as it is shown. -/
def describe (token : Token) : String :=
  "Token(" ++ token.kind.name ++ ", " ++ Text.integer token.start ++ "+" ++
    Text.integer token.length ++ ", line " ++ Text.integer token.line.toInt ++ ")"

end Token

end Reckon
