import Reckon.Toml.Scalar

namespace Reckon.Toml

/-!
# Reading statements

Arrays and tables in braces may spread over lines, with comments in between and a comma behind
their last item.
-/

/-- One part of a key at the front. -/
def keyPart? (text : List Char) : Option (Key × List Char) :=
  match text with
  | '"' :: _ | '\'' :: _ => quotedLine? text
  | _ =>
      let key := text.takeWhile isBareKey
      if key.isEmpty then none else some (key, text.drop key.length)

/-- A key of parts with points between them, and the text behind the blanks that follow. -/
def pathWithin : Nat → List Char → Option (List Key × List Char)
  | 0, _ => none
  | fuel + 1, text => do
      let (key, rest) ← keyPart? (text.dropWhile isBlank)
      match rest.dropWhile isBlank with
      | '.' :: rest => do
          let (path, rest) ← pathWithin fuel rest
          some (key :: path, rest)
      | rest => some ([key], rest)

/-- A key at the front. -/
def path? (text : List Char) : Option (List Key × List Char) :=
  pathWithin (text.length + 1) text

mutual

/-- A value at the front, after blanks. -/
def valueWithin (fuel : Nat) (text : List Char) : Option (Expression × List Char) :=
  match fuel with
  | 0 => none
  | fuel + 1 =>
      match text.dropWhile isBlank with
      | '[' :: rest => do
          let (items, rest) ← itemsWithin fuel rest
          some (.array items, rest)
      | '\x7b' :: rest => do
          let (fields, rest) ← fieldsWithin fuel rest
          some (.table fields, rest)
      | rest => scalar? rest

/-- The items of an array up to its end. -/
def itemsWithin (fuel : Nat) (text : List Char) : Option (List Expression × List Char) :=
  match fuel with
  | 0 => none
  | fuel + 1 =>
      match skipLayout false text with
      | ']' :: rest => some ([], rest)
      | rest => do
          let (item, rest) ← valueWithin fuel rest
          match skipLayout false rest with
          | ']' :: rest => some ([item], rest)
          | ',' :: rest => do
              let (items, rest) ← itemsWithin fuel rest
              some (item :: items, rest)
          | _ => none

/-- The fields of a table in braces up to its end. -/
def fieldsWithin
    (fuel : Nat)
    (text : List Char) :
    Option (List (List Key × Expression) × List Char) :=
  match fuel with
  | 0 => none
  | fuel + 1 =>
      match skipLayout false text with
      | '\x7d' :: rest => some ([], rest)
      | rest => do
          let (path, rest) ← path? rest
          let rest ← mark? '=' rest
          let (value, rest) ← valueWithin fuel rest
          match skipLayout false rest with
          | '\x7d' :: rest => some ([(path, value)], rest)
          | ',' :: rest => do
              let (fields, rest) ← fieldsWithin fuel rest
              some ((path, value) :: fields, rest)
          | _ => none

end

/-- A statement at the front, up to the end of its last line. -/
def statement? (text : List Char) : Option (Statement × List Char) :=
  match text with
  | '[' :: '[' :: rest => do
      let (path, rest) ← path? rest
      let rest ← mark? ']' rest
      let rest ← mark? ']' rest
      let rest ← lineEnd? rest
      some (.arrayHeader path, rest)
  | '[' :: rest => do
      let (path, rest) ← path? rest
      let rest ← mark? ']' rest
      let rest ← lineEnd? rest
      some (.header path, rest)
  | _ => do
      let (path, rest) ← path? text
      let rest ← mark? '=' rest
      let (value, rest) ← valueWithin (2 * rest.length + 2) rest
      let rest ← lineEnd? rest
      some (.assignment path value, rest)

/-- The statements of a text. -/
def statementsWithin : Nat → List Char → Option (List Statement)
  | 0, _ => none
  | fuel + 1, text =>
      match skipLayout false text with
      | [] => some []
      | front => do
          let (statement, rest) ← statement? front
          let statements ← statementsWithin fuel rest
          some (statement :: statements)

/-- The statements of a file, behind the byte order mark if there is one. -/
def statements? (text : List Char) : Option (List Statement) :=
  let text :=
    match text with
    | '\ufeff' :: rest => rest
    | _ => text
  if isClean text then statementsWithin (text.length + 1) text else none

end Reckon.Toml
