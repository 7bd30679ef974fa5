import Reckon.Token.Literal
import Reckon.Trie

namespace Reckon

/-!
# Scanning

The scanner skips blanks and takes the longest lexeme at the front: a number, a word or an
operator.  It stays where it is at the end of the source and at a character that starts no lexeme.
-/

/-- A lexeme at the front of a text: its kind, its length, and the length its token reports. -/
structure Lexeme where
  kind : TokenKind
  length : Nat
  reported : Nat
  deriving Repr, DecidableEq

namespace Lexeme

/-- Characters between tokens. -/
def isBlank (char : Char) : Bool :=
  char = ' ' || char = '\t' || char = '\r' || char = '\n'

/-- Decimal digits. -/
def isDigit (char : Char) : Bool :=
  '0' ≤ char && char ≤ '9'

/-- Characters that start a word. -/
def isLetter (char : Char) : Bool :=
  ('a' ≤ char && char ≤ 'z') || ('A' ≤ char && char ≤ 'Z') || char = '_'

/-- Characters within the digits of a number. -/
def isNumberPart (char : Char) : Bool :=
  isDigit char || char = '_'

/-- Characters within a word. -/
def isWordPart (char : Char) : Bool :=
  isLetter char || isDigit char

/-- How many characters at the front satisfy a condition. -/
def runLength (condition : Char → Bool) (text : List Char) : Nat :=
  (text.takeWhile condition).length

/-- The length of a point and the digits behind it. -/
def fractionLength : List Char → Nat
  | '.' :: rest => 1 + runLength isNumberPart rest
  | _ => 0

/-- The length of a sign. -/
def signLength : List Char → Nat
  | '+' :: _ | '-' :: _ => 1
  | _ => 0

/-- The length of an exponent: its mark, a sign and digits, of which none need be there. -/
def exponentLength : List Char → Nat
  | 'e' :: rest | 'E' :: rest =>
      let sign := signLength rest
      1 + sign + runLength isNumberPart (rest.drop sign)
  | _ => 0

/-- The length of the imaginary unit. -/
def unitLength : List Char → Nat
  | 'j' :: _ | 'J' :: _ => 1
  | _ => 0

/-- The number at the front of a text that starts with a digit. -/
def number (text : List Char) : Lexeme :=
  let whole := runLength isNumberPart text
  let fraction := fractionLength (text.drop whole)
  let exponent := exponentLength (text.drop (whole + fraction))
  let unit := unitLength (text.drop (whole + fraction + exponent))
  let length := whole + fraction + exponent + unit
  let kind :=
    if 0 < unit then .complex else if 0 < fraction then .float else .integer
  { kind := kind, length := length, reported := length + 1 }

/-- The trie of reserved words. -/
def keywords : Trie TokenKind :=
  Trie.ofList TokenKind.keywords

/-- The trie of operators. -/
def operators : Trie TokenKind :=
  Trie.ofList TokenKind.operators

/-- The word at the front of a text; it is reserved only if the reserved word spans it all. -/
def word (text : List Char) : Lexeme :=
  let length := runLength isWordPart text
  match keywords.longestMatch text with
  | some (kind, spanned) =>
      if length ≤ spanned then
        { kind := kind, length := spanned, reported := spanned }
      else
        { kind := .identifier, length := length, reported := length }
  | none => { kind := .identifier, length := length, reported := length }

/-- The operator at the front of a text. -/
def operator? (text : List Char) : Option Lexeme :=
  (operators.longestMatch text).map fun found =>
    { kind := found.1, length := found.2, reported := found.2 }

/-- The lexeme at the front of a text that does not start with a blank. -/
def front? : List Char → Option Lexeme
  | [] => none
  | char :: rest =>
      if isDigit char then
        some (number (char :: rest))
      else if isLetter char then
        some (word (char :: rest))
      else
        operator? (char :: rest)

end Lexeme

/-- What is left of the source, and where that starts. -/
structure Scanner where
  rest : List Char
  position : Nat
  line : Int64
  deriving Repr, DecidableEq

namespace Scanner

/-- The start of a source. -/
def ofSource (source : List Char) : Scanner :=
  { rest := source, position := 0, line := 1 }

/-- Skip the blanks at the front, counting lines. -/
def skipBlanks (rest : List Char) (position : Nat) (line : Int64) : Scanner :=
  match rest with
  | [] => { rest := [], position := position, line := line }
  | char :: after =>
      if Lexeme.isBlank char then
        skipBlanks after (position + 1) (if char = '\n' then line + 1 else line)
      else
        { rest := char :: after, position := position, line := line }

/-- The next token, or the error at the first character that starts none. -/
def next (scanner : Scanner) : Except LexicalError Token × Scanner :=
  let front := skipBlanks scanner.rest scanner.position scanner.line
  match front.rest with
  | [] =>
      (.ok { kind := .endOfInput, start := front.position, length := 0, line := front.line },
        front)
  | char :: _ =>
      match Lexeme.front? front.rest with
      | some lexeme =>
          (.ok
            { kind := lexeme.kind
              start := front.position
              length := lexeme.reported
              line := front.line },
            { rest := front.rest.drop lexeme.length
              position := front.position + lexeme.length
              line := front.line })
      | none =>
          (.error { line := front.line, offset := front.position, problem := .unexpected char },
            front)

/-- The tokens up to the end of the source, of which there are at most as many as stated. -/
def tokensWithin : Nat → Scanner → Except LexicalError (List Token)
  | 0, _ => .ok []
  | count + 1, scanner =>
      match scanner.next with
      | (.error error, _) => .error error
      | (.ok token, after) =>
          if token.kind = .endOfInput then
            .ok [token]
          else
            match tokensWithin count after with
            | .ok tokens => .ok (token :: tokens)
            | .error error => .error error

end Scanner

/-- The tokens of a source, the end of input last. -/
def tokenize (source : List Char) : Except LexicalError (List Token) :=
  (Scanner.ofSource source).tokensWithin (source.length + 1)

end Reckon
