import Reckon.Toml.Syntax

namespace Reckon.Toml

/-!
# Quoted text

Text in double quotes has escapes, text in single quotes has none.  Three quotes at either end
make a text of several lines, of which an empty first line does not count.
-/

/-- The number that some hexadecimal digits stand for. -/
def hexValue (digits : List Char) : Nat :=
  digits.foldl
    (fun value char =>
      let digit :=
        if isDigit char then char.toNat - '0'.toNat
        else if 'a' ≤ char then char.toNat - 'a'.toNat + 10
        else char.toNat - 'A'.toNat + 10
      16 * value + digit)
    0

/-- The character whose number is written in so many hexadecimal digits. -/
def numbered? (count : Nat) (text : List Char) : Option (Char × List Char) :=
  let digits := text.take count
  let value := hexValue digits
  if digits.length = count ∧ digits.all isHexDigit ∧ value.isValidChar then
    some (Char.ofNat value, text.drop count)
  else
    none

/-- The character that an escape stands for, given what follows the backslash. -/
def escape? : List Char → Option (Char × List Char)
  | 'b' :: rest => some ('\x08', rest)
  | 't' :: rest => some ('\t', rest)
  | 'n' :: rest => some ('\n', rest)
  | 'f' :: rest => some ('\x0c', rest)
  | 'r' :: rest => some ('\r', rest)
  | 'e' :: rest => some ('\x1b', rest)
  | '"' :: rest => some ('"', rest)
  | '\\' :: rest => some ('\\', rest)
  | 'x' :: rest => numbered? 2 rest
  | 'u' :: rest => numbered? 4 rest
  | 'U' :: rest => numbered? 8 rest
  | _ => none

/-- Text up to a double quote, on one line. -/
def basicWithin : Nat → List Char → Option (List Char × List Char)
  | 0, _ => none
  | fuel + 1, text =>
      match text with
      | [] => none
      | '"' :: rest => some ([], rest)
      | '\\' :: rest => do
          let (char, rest) ← escape? rest
          let (chars, rest) ← basicWithin fuel rest
          some (char :: chars, rest)
      | char :: rest =>
          if isBreak char then
            none
          else do
            let (chars, rest) ← basicWithin fuel rest
            some (char :: chars, rest)

/-- Text up to a single quote, on one line. -/
def literal? (text : List Char) : Option (List Char × List Char) :=
  let chars := text.takeWhile (· ≠ '\'')
  match text.drop chars.length with
  | _ :: rest => if chars.any isBreak then none else some (chars, rest)
  | [] => none

/-- Drop a line break at the front. -/
def dropBreak : List Char → List Char
  | '\n' :: rest => rest
  | '\r' :: '\n' :: rest => rest
  | text => text

/--
A run of quotes within a text of several lines.  Three of them end it; up to two more in front of
those belong to the text, and up to three directly behind a backslash.
-/
inductive QuoteRun where
  | inside (count : Nat)
  | closing (count : Nat)
  | tooLong

/-- What a run of so many quotes means, behind a backslash or not. -/
def QuoteRun.ofCount (behindBackslash : Bool) (count : Nat) : QuoteRun :=
  if count < 3 then .inside count
  else if count < 6 ∨ (behindBackslash ∧ count = 6) then .closing (count - 3)
  else .tooLong

/-- A line break that a backslash takes out, with all blanks and breaks after it. -/
def splice? (text : List Char) : Option (List Char) :=
  let gap := text.takeWhile fun char => isBlank char || isBreak char
  if gap.contains '\n' then some (text.drop gap.length) else none

/--
Text of several lines up to its closing quotes; only double quotes have escapes.  The flag says
that an escaped backslash comes directly before.
-/
def linesWithin
    (quote : Char) :
    Nat → Bool → List Char → Option (List Char × List Char)
  | 0, _, _ => none
  | fuel + 1, behindBackslash, text =>
      match text with
      | [] => none
      | char :: rest =>
          if char = quote then
            let run := (text.takeWhile (· = quote)).length
            let after := text.drop run
            match QuoteRun.ofCount behindBackslash run with
            | .tooLong => none
            | .closing count => some (List.replicate count quote, after)
            | .inside count => do
                let (chars, rest) ← linesWithin quote fuel false after
                some (List.replicate count quote ++ chars, rest)
          else if quote = '"' ∧ char = '\\' then
            match splice? rest with
            | some after => linesWithin quote fuel false after
            | none => do
                let (escaped, after) ← escape? rest
                let (chars, rest) ← linesWithin quote fuel (rest.head? = some '\\') after
                some (escaped :: chars, rest)
          else do
            let (chars, rest) ← linesWithin quote fuel false rest
            some (char :: chars, rest)

/-- A quoted text on one line, opening quote included. -/
def quotedLine? : List Char → Option (List Char × List Char)
  | '"' :: rest => basicWithin (rest.length + 1) rest
  | '\'' :: rest => literal? rest
  | _ => none

/-- A quoted text, opening quotes included. -/
def quoted? (text : List Char) : Option (List Char × List Char) :=
  match text with
  | '"' :: '"' :: '"' :: rest => linesWithin '"' (rest.length + 1) false (dropBreak rest)
  | '\'' :: '\'' :: '\'' :: rest => linesWithin '\'' (rest.length + 1) false (dropBreak rest)
  | _ => quotedLine? text

end Reckon.Toml
