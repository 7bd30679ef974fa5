import Reckon.Text.Printable

namespace Reckon.Text

/-!
# Quoted text

Messages show characters between single quotes and strings between double quotes.  A printable
character stands for itself; the quote in use and the backslash are escaped, the usual controls
have a letter each, and everything else is written by its code point in lower-case hexadecimal.
-/

/-- One hexadecimal digit, in lower case. -/
def hexDigit (value : Nat) : Char :=
  if value < 10 then
    Char.ofNat ('0'.toNat + value)
  else
    Char.ofNat ('a'.toNat + (value - 10))

/-- The lowest `width` hexadecimal digits of a number, highest first. -/
def hexDigits : Nat → Nat → List Char
  | 0, _ => []
  | width + 1, value => hexDigit (value / Nat.pow 16 width % 16) :: hexDigits width value

/-- The letter that follows the backslash for a control character that has one. -/
def controlLetter? (char : Char) : Option Char :=
  match char.toNat with
  | 0x07 => some 'a'
  | 0x08 => some 'b'
  | 0x09 => some 't'
  | 0x0A => some 'n'
  | 0x0B => some 'v'
  | 0x0C => some 'f'
  | 0x0D => some 'r'
  | _ => none

/-- A character as it stands between quotes of the given kind. -/
def escape (quoteMark char : Char) : List Char :=
  if char = quoteMark ∨ char = '\\' then
    ['\\', char]
  else if isPrintable char then
    [char]
  else
    match controlLetter? char with
    | some letter => ['\\', letter]
    | none =>
        let code := char.toNat
        if code < 0x80 then
          '\\' :: 'x' :: hexDigits 2 code
        else if code < 0x10000 then
          '\\' :: 'u' :: hexDigits 4 code
        else
          '\\' :: 'U' :: hexDigits 8 code

/-- A character between single quotes. -/
def quoteChar (char : Char) : String :=
  String.ofList ('\'' :: escape '\'' char ++ ['\''])

/-- A text between double quotes. -/
def quote (chars : List Char) : String :=
  String.ofList ('"' :: chars.flatMap (escape '"') ++ ['"'])

end Reckon.Text
