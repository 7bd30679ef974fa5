import Reckon.Text.Utf8

namespace Reckon.Dotenv

/-!
# Files of variables

Every statement gives a variable a value, as `NAME=value` or `NAME: value`.  Unquoted values and
values in double quotes may refer to variables that were given before.
-/

/-- Blanks that do not end a line. -/
def isBlank (char : Char) : Bool :=
  [0x09, 0x0B, 0x0C, 0x0D, 0x20, 0x85, 0xA0].contains char.toNat

/-- Blanks and all that separates lines. -/
def isSpace (char : Char) : Bool :=
  isBlank char || (0x2000 ≤ char.toNat && char.toNat ≤ 0x200A) ||
    [0x0A, 0x1680, 0x2028, 0x2029, 0x202F, 0x205F, 0x3000].contains char.toNat

/-- Drop what satisfies a condition at both ends. -/
def trim (condition : Char → Bool) (text : List Char) : List Char :=
  ((text.dropWhile condition).reverse.dropWhile condition).reverse

/-- Line breaks of two characters become one. -/
def joinBreaks : List Char → List Char
  | [] => []
  | '\r' :: rest =>
      match rest with
      | '\n' :: _ => joinBreaks rest
      | _ => '\r' :: joinBreaks rest
  | char :: rest => char :: joinBreaks rest

/-- Skip spaces and comments; the flag says that a comment has begun. -/
def skipComments : Bool → List Char → List Char
  | _, [] => []
  | true, char :: rest => skipComments (char ≠ '\n') rest
  | false, char :: rest =>
      if isSpace char then
        skipComments false rest
      else if char = '#' then
        skipComments true rest
      else
        char :: rest

/-- Letters, numbers and blanks among the first 256 characters, and what else a name may hold. -/
def isNameByte (byte : UInt8) : Bool :=
  let code := byte.toNat
  (0x30 ≤ code && code ≤ 0x39) || (0x41 ≤ code && code ≤ 0x5A) ||
    (0x61 ≤ code && code ≤ 0x7A) ||
    (0xC0 ≤ code && code ≠ 0xD7 && code ≠ 0xF7) ||
    [0x09, 0x0B, 0x0C, 0x0D, 0x20, 0x2E, 0x5F, 0x85, 0xA0, 0xAA, 0xB2, 0xB3, 0xB5, 0xB9, 0xBA,
      0xBC, 0xBD, 0xBE].contains code

/-- A character that may stand in a name or around it; each of its bytes has to be one. -/
def isNamePart (char : Char) : Bool :=
  (Text.encodeChar char).all isNameByte

/-- The word that may stand before a name. -/
def exportWord : List Char := "export".toList

/-- Drop the word that may stand before a name. -/
def dropExport (text : List Char) : List Char :=
  match exportWord.isPrefixOf text, text.drop exportWord.length with
  | true, char :: rest => if isBlank char then (char :: rest).dropWhile isBlank else text
  | _, _ => text

/--
The name at the front and the text of its value.  Text that ends before a name is told from a
value is the value of the empty name.
-/
def name? (text : List Char) : Option (List Char × List Char) :=
  let front := dropExport (text.dropWhile isBlank)
  let name := front.takeWhile isNamePart
  match front.drop name.length with
  | [] => if front.isEmpty then none else some ([], front)
  | char :: rest =>
      if char = '=' || char = ':' then
        some ((name.reverse.dropWhile isSpace).reverse, rest.dropWhile isBlank)
      else
        none

/-- Characters of the names of variables that values refer to. -/
def isReferencePart (char : Char) : Bool :=
  ('A' ≤ char && char ≤ 'Z') || ('0' ≤ char && char ≤ '9') || char = '_'

/-- Drop a character at the front, if it is there. -/
def dropMark (mark : Char) : List Char → List Char
  | char :: rest => if char = mark then rest else char :: rest
  | [] => []

/-- The extent of a reference behind its dollar sign: the name, and the text after all of it. -/
def reference (text : List Char) : List Char × List Char :=
  let opened := dropMark '\x7b' (dropMark '(' text)
  let name := opened.takeWhile isReferencePart
  (name, dropMark '\x7d' (opened.drop name.length))

/-- The part of a text before the rest of it. -/
def before (text rest : List Char) : List Char :=
  text.take (text.length - rest.length)

/-- Put the values of variables in place of references; a backslash keeps one as it is. -/
def expandWithin
    (bindings : List (String × String)) :
    Nat → List Char → List Char
  | 0, text => text
  | fuel + 1, text =>
      match text with
      | [] => []
      | '\\' :: '$' :: rest =>
          let after := (reference rest).2
          '$' :: before rest after ++ expandWithin bindings fuel after
      | '$' :: rest =>
          let (name, after) := reference rest
          if name.isEmpty then
            '$' :: before rest after ++ expandWithin bindings fuel after
          else
            let value := (bindings.lookup (String.ofList name)).getD ""
            value.toList ++ expandWithin bindings fuel after
      | char :: rest => char :: expandWithin bindings fuel rest

/-- Put the values of variables in place of references. -/
def expand (bindings : List (String × String)) (text : List Char) : List Char :=
  expandWithin bindings text.length text

/-- Put line breaks in place of their escapes. -/
def breakEscapes : List Char → List Char
  | [] => []
  | '\\' :: 'n' :: rest => '\n' :: breakEscapes rest
  | '\\' :: 'r' :: rest => '\r' :: breakEscapes rest
  | '\\' :: '\n' :: rest => '\\' :: '\n' :: breakEscapes rest
  | '\\' :: char :: rest => '\\' :: char :: breakEscapes rest
  | char :: rest => char :: breakEscapes rest

/-- Drop the backslash of every other escape, except before a dollar sign. -/
def otherEscapes : List Char → List Char
  | [] => []
  | '\\' :: '$' :: rest => '\\' :: '$' :: otherEscapes rest
  | '\\' :: char :: rest => char :: otherEscapes rest
  | char :: rest => char :: otherEscapes rest

/-- The length of a value that a comment ends: up to the last number sign behind a blank. -/
def commentStart? (text : List Char) : Option Nat :=
  (List.range text.length).reverse.find? fun index =>
    text[index]? = some '#' &&
      match index with
      | 0 => false
      | earlier + 1 => text[earlier]?.any isBlank

/-- The value of an unquoted text. -/
def plainValue (bindings : List (String × String)) (line : List Char) : List Char :=
  let length := (commentStart? line).getD line.length
  expand bindings (trim isBlank (line.take length))

/-- The position of a quote that no backslash stands before, in text behind the opening quote. -/
def closingQuote? (quote : Char) : Char → Nat → List Char → Option Nat
  | _, _, [] => none
  | last, position, char :: rest =>
      if char = quote ∧ last ≠ '\\' then
        some position
      else
        closingQuote? quote char (position + 1) rest

/-- The value of a quoted text. -/
def quotedValue
    (bindings : List (String × String))
    (quote : Char)
    (text : List Char) :
    List Char :=
  let content := trim (· = quote) text
  if quote = '"' then
    expand bindings (otherEscapes (breakEscapes content))
  else
    content

/-- The value at the front, and the text after it. -/
def value?
    (bindings : List (String × String))
    (text : List Char) :
    Option (List Char × List Char) :=
  match text with
  | [] => some ([], [])
  | quote :: rest =>
      if quote = '"' || quote = '\'' then
        match closingQuote? quote quote 0 rest with
        | none => none
        | some length =>
            some
              (quotedValue bindings quote (rest.take length), rest.drop (length + 1))
      else
        let line := text.takeWhile fun char => char ≠ '\n' && char ≠ '\r'
        some (plainValue bindings line, text.drop line.length)

/-- Give a variable a value, in place of the one it had. -/
def give
    (bindings : List (String × String))
    (name value : List Char) :
    List (String × String) :=
  let name := String.ofList name
  (name, String.ofList value) :: bindings.filter fun other => other.1 ≠ name

/-- Read statements up to the end. -/
def readWithin :
    Nat → List (String × String) → List Char → Option (List (String × String))
  | 0, _, _ => none
  | fuel + 1, bindings, text =>
      match skipComments false text with
      | [] => some bindings
      | front => do
          let (name, rest) ← name? front
          let (value, rest) ← value? bindings rest
          readWithin fuel (give bindings name value) rest

/-- The variables of a file. -/
def read? (text : List Char) : Option (List (String × String)) :=
  readWithin (text.length + 1) [] (joinBreaks text)

end Reckon.Dotenv
