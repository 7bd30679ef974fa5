import Reckon.Decimal.Reading
import Reckon.Toml.Quoted

namespace Reckon.Toml

/-!
# Numbers, dates and times
-/

/-- Digits, with single underscores between them. -/
def isGrouped (digit : Char → Bool) : List Char → Bool
  | [] => false
  | [char] => digit char
  | char :: '_' :: rest => digit char && isGrouped digit rest
  | char :: rest => digit char && isGrouped digit rest

/-- Digits of a decimal number, which begin with a zero only if there is no other. -/
def isWhole (text : List Char) : Bool :=
  isGrouped isDigit text && (text.head? ≠ some '0' || text.length = 1)

/-- A text without its sign. -/
def dropSign : List Char → List Char
  | '+' :: rest => rest
  | '-' :: rest => rest
  | text => text

/-- A number in the range of 64 bits with a sign. -/
def inRange? (number : Int) : Option Int :=
  if -0x8000000000000000 ≤ number ∧ number < 0x8000000000000000 then some number else none

/-- The number that digits of a base stand for, underscores apart. -/
def digitsValue (base : Nat) (text : List Char) : Nat :=
  (text.filter (· ≠ '_')).foldl (fun value char => base * value + hexValue [char]) 0

/-- A whole number. -/
def integer? (text : List Char) : Option Int :=
  match text with
  | '0' :: 'x' :: digits =>
      if isGrouped isHexDigit digits then inRange? (digitsValue 16 digits) else none
  | '0' :: 'o' :: digits =>
      if isGrouped (fun char => '0' ≤ char && char ≤ '7') digits then
        inRange? (digitsValue 8 digits)
      else
        none
  | '0' :: 'b' :: digits =>
      if isGrouped (fun char => char = '0' || char = '1') digits then
        inRange? (digitsValue 2 digits)
      else
        none
  | _ =>
      let digits := dropSign text
      if isWhole digits then
        let value : Int := digitsValue 10 digits
        inRange? (if text.head? = some '-' then -value else value)
      else
        none

/-- An exponent, or nothing. -/
def isExponent : List Char → Bool
  | [] => true
  | char :: rest => (char = 'e' || char = 'E') && isGrouped isDigit (dropSign rest)

/-- A fraction with or without an exponent, or an exponent alone. -/
def isFraction : List Char → Bool
  | '.' :: rest =>
      let digits := rest.takeWhile fun char => isDigit char || char = '_'
      isGrouped isDigit digits && isExponent (rest.drop digits.length)
  | text => !text.isEmpty && isExponent text

/-- A number with a fraction or an exponent that is not too large for a double. -/
def isFloat (text : List Char) : Bool :=
  let body := dropSign text
  if body = "inf".toList ∨ body = "nan".toList then
    true
  else
    let whole := body.takeWhile fun char => isDigit char || char = '_'
    isWhole whole && isFraction (body.drop whole.length) &&
      match Decimal.fraction (text.filter (· ≠ '_')) with
      | .ok _ => true
      | .error _ => false

/-- Two digits as a number. -/
def twoDigits? : List Char → Option (Nat × List Char)
  | tens :: ones :: rest =>
      if isDigit tens && isDigit ones then some (hexValue [tens] * 10 + hexValue [ones], rest)
      else none
  | _ => none

/-- The given character at the front. -/
def mark? (mark : Char) : List Char → Option (List Char)
  | char :: rest => if char = mark then some rest else none
  | [] => none

/-- The number of days of a month. -/
def daysIn (year month : Nat) : Nat :=
  if month = 2 then
    if year % 4 = 0 ∧ (year % 100 ≠ 0 ∨ year % 400 = 0) then 29 else 28
  else if month = 4 ∨ month = 6 ∨ month = 9 ∨ month = 11 then
    30
  else
    31

/-- A date of the calendar at the front. -/
def date? (text : List Char) : Option (List Char) := do
  let (century, rest) ← twoDigits? text
  let (years, rest) ← twoDigits? rest
  let rest ← mark? '-' rest
  let (month, rest) ← twoDigits? rest
  let rest ← mark? '-' rest
  let (day, rest) ← twoDigits? rest
  let known := 1 ≤ month ∧ month ≤ 12 ∧ 1 ≤ day ∧ day ≤ daysIn (100 * century + years) month
  if known then some rest else none

/-- Seconds at the front with a fraction, or nothing. -/
def seconds? (text : List Char) : Option (List Char) :=
  match text with
  | ':' :: rest => do
      let (second, rest) ← twoDigits? rest
      let rest :=
        match rest with
        | '.' :: fraction =>
            match fraction.takeWhile isDigit with
            | [] => rest
            | digits => fraction.drop digits.length
        | _ => rest
      if second < 60 then some rest else none
  | _ => some text

/-- A time of the day at the front. -/
def time? (text : List Char) : Option (List Char) := do
  let (hour, rest) ← twoDigits? text
  let rest ← mark? ':' rest
  let (minute, rest) ← twoDigits? rest
  if hour < 24 ∧ minute < 60 then seconds? rest else none

/-- An offset from universal time, or nothing. -/
def isOffset (text : List Char) : Bool :=
  match text with
  | [] => true
  | 'Z' :: rest => rest.isEmpty
  | sign :: rest =>
      let ends :=
        do
          let (hours, rest) ← twoDigits? rest
          let rest ← mark? ':' rest
          let (minutes, rest) ← twoDigits? rest
          if hours ≤ 24 ∧ minutes ≤ 60 then some rest else none
      (sign = '+' || sign = '-') && ends = some []

/-- A date, a time, or both with an offset or without one. -/
def isMoment (text : List Char) : Bool :=
  let text :=
    text.map fun char =>
      if char = 't' || char = ' ' then 'T' else if char = 'z' then 'Z' else char
  match date? text with
  | some [] => true
  | some ('T' :: rest) =>
      match time? rest with
      | some rest => isOffset rest
      | none => false
  | some _ => false
  | none => time? text = some []

/-- Characters of dates and times. -/
def isMomentPart (char : Char) : Bool :=
  isDigit char || "-:Tt .Zz+".toList.contains char

/-- Characters of numbers and words. -/
def isWordPart (char : Char) : Bool :=
  isBareKey char || char = '.' || char = '+'

/-- A date or a time at the front; blanks behind it are not part of it. -/
def moment? (text : List Char) : Option (Expression × List Char) :=
  let span := text.takeWhile isMomentPart
  let trimmed := (span.reverse.dropWhile (· = ' ')).reverse
  if isMoment trimmed then some (.moment, text.drop trimmed.length) else none

/-- A number or a truth value at the front. -/
def word? (text : List Char) : Option (Expression × List Char) :=
  let word := text.takeWhile isWordPart
  let rest := text.drop word.length
  if word = "true".toList then
    some (.boolean true, rest)
  else if word = "false".toList then
    some (.boolean false, rest)
  else
    match integer? word with
    | some number => some (.integer number, rest)
    | none => if isFloat word then some (.float, rest) else none

/-- A value that is one piece of text, at the front. -/
def scalar? (text : List Char) : Option (Expression × List Char) :=
  match text with
  | '"' :: _ | '\'' :: _ => do
      let (chars, rest) ← quoted? text
      some (.text chars, rest)
  | _ =>
      let digits := text.takeWhile isDigit
      match digits, text.drop digits.length with
      | _ :: _, '-' :: _ | _ :: _, ':' :: _ => moment? text
      | _, _ => word? text

end Reckon.Toml
