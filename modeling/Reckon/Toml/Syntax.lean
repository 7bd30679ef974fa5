namespace Reckon.Toml

/-!
# The syntax of settings files

A file is a list of statements, which open a table or give a key a value.  Of values that no
setting can have, only their sort is kept.
-/

/-- One part of a key. -/
abbrev Key := List Char

/-- What a key is given. -/
inductive Expression where
  | text (chars : List Char)
  | integer (number : Int)
  | float
  | boolean (truth : Bool)
  | moment
  | array (items : List Expression)
  | table (fields : List (List Key × Expression))

/-- A line of a file, by what it is for. -/
inductive Statement where
  | header (path : List Key)
  | arrayHeader (path : List Key)
  | assignment (path : List Key) (value : Expression)

/-- Blanks within a line. -/
def isBlank (char : Char) : Bool :=
  char = ' ' || char = '\t'

/-- Characters of line breaks. -/
def isBreak (char : Char) : Bool :=
  char = '\n' || char = '\r'

/-- Decimal digits. -/
def isDigit (char : Char) : Bool :=
  '0' ≤ char && char ≤ '9'

/-- Hexadecimal digits. -/
def isHexDigit (char : Char) : Bool :=
  isDigit char || ('a' ≤ char && char ≤ 'f') || ('A' ≤ char && char ≤ 'F')

/-- Characters of keys without quotes. -/
def isBareKey (char : Char) : Bool :=
  isDigit char || ('a' ≤ char && char ≤ 'z') || ('A' ≤ char && char ≤ 'Z') ||
    char = '_' || char = '-'

/-- Control characters that no file may hold. -/
def isControl (char : Char) : Bool :=
  (char < ' ' && char ≠ '\t' && char ≠ '\n' && char ≠ '\r') || char = '\x7f'

/-- No control characters, and every carriage return is part of a line break. -/
def isClean : List Char → Bool
  | [] => true
  | '\r' :: rest =>
      match rest with
      | '\n' :: _ => isClean rest
      | _ => false
  | char :: rest => !isControl char && isClean rest

/-- Skip blanks, line breaks and comments; the flag says that a comment has begun. -/
def skipLayout : Bool → List Char → List Char
  | _, [] => []
  | true, char :: rest => skipLayout (char ≠ '\n') rest
  | false, char :: rest =>
      if isBlank char || isBreak char then
        skipLayout false rest
      else if char = '#' then
        skipLayout true rest
      else
        char :: rest

/-- The end of a line, with a comment or without one. -/
def lineEnd? (text : List Char) : Option (List Char) :=
  match text.dropWhile isBlank with
  | [] => some []
  | '#' :: rest => some (rest.dropWhile (· ≠ '\n'))
  | char :: rest => if isBreak char then some rest else none

end Reckon.Toml
