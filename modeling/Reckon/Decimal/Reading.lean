import Reckon.Binary64

namespace Reckon.Decimal

/-!
# Reading numbers

Whole numbers are read from left to right, and a number leaves its range at the digit that takes
it out, before any later character is looked at.  Fractions are read exactly and rounded once to
the nearest double; they may also be written in hexadecimal with a binary exponent, or by name.
-/

/-- Why a text is not a number. -/
inductive Problem where
  | invalid
  | outOfRange
  deriving Repr, DecidableEq

namespace Problem

/-- The wording of a problem. -/
def message : Problem → String
  | .invalid => "invalid syntax"
  | .outOfRange => "value out of range"

end Problem

/-- The value of a decimal digit. -/
def decimalDigit? (char : Char) : Option Nat :=
  if '0' ≤ char ∧ char ≤ '9' then
    some (char.toNat - '0'.toNat)
  else
    none

/-- The value of a hexadecimal digit. -/
def hexadecimalDigit? (char : Char) : Option Nat :=
  if '0' ≤ char ∧ char ≤ '9' then
    some (char.toNat - '0'.toNat)
  else if 'a' ≤ char ∧ char ≤ 'f' then
    some (char.toNat - 'a'.toNat + 10)
  else if 'A' ≤ char ∧ char ≤ 'F' then
    some (char.toNat - 'A'.toNat + 10)
  else
    none

/-- Digits after those already read, none of whose partial values may reach the limit. -/
def naturalBelow
    (limit : Nat) :
    Nat → List Char → Except Problem Nat
  | read, [] => .ok read
  | read, char :: rest =>
      match decimalDigit? char with
      | none => .error .invalid
      | some digit =>
          let next := read * 10 + digit
          if next < limit then
            naturalBelow limit next rest
          else
            .error .outOfRange

/-- A sign in front, and what follows it. -/
def splitSign : List Char → Bool × List Char
  | '+' :: rest => (false, rest)
  | '-' :: rest => (true, rest)
  | chars => (false, chars)

/-- A whole number in base ten that fits in a signed word of the given width. -/
def integer (width : Nat) (chars : List Char) : Except Problem Int :=
  let (negative, digits) := splitSign chars
  if digits.isEmpty then
    .error .invalid
  else
    match naturalBelow (Nat.pow 2 width) 0 digits with
    | .error problem => .error problem
    | .ok magnitude =>
        if negative then
          if magnitude ≤ Nat.pow 2 (width - 1) then
            .ok (-(magnitude : Int))
          else
            .error .outOfRange
        else if magnitude < Nat.pow 2 (width - 1) then
          .ok magnitude
        else
          .error .outOfRange

/-- Digits with an optional point, read as far as they go. -/
structure Mantissa where
  value : Nat
  /-- How many digits stand behind the point. -/
  fraction : Nat
  anyDigit : Bool
  anyPoint : Bool
  rest : List Char

/-- Read digits of a base and at most one point. -/
def mantissa
    (base : Nat)
    (digit? : Char → Option Nat) :
    Mantissa → List Char → Mantissa
  | read, [] => { read with rest := [] }
  | read, char :: rest =>
      if char = '.' then
        if read.anyPoint then
          { read with rest := char :: rest }
        else
          mantissa base digit? { read with anyPoint := true } rest
      else
        match digit? char with
        | none => { read with rest := char :: rest }
        | some digit =>
            mantissa base digit?
              { read with
                value := read.value * base + digit
                fraction := if read.anyPoint then read.fraction + 1 else read.fraction
                anyDigit := true }
              rest

/-- Nothing read yet. -/
def Mantissa.start : Mantissa :=
  { value := 0, fraction := 0, anyDigit := false, anyPoint := false, rest := [] }

/--
Digits of an exponent.  From ten thousand on, further digits no longer count: the exponent is then
beyond every number in reach, whatever they are.
-/
def exponentDigits : Nat → List Char → Option Nat
  | read, [] => some read
  | read, char :: rest => do
      let digit ← decimalDigit? char
      exponentDigits (if read < 10000 then read * 10 + digit else read) rest

/-- A signed exponent that takes all the text, with at least one digit. -/
def exponent? (chars : List Char) : Option Int :=
  let (negative, digits) := splitSign chars
  if digits.isEmpty then
    none
  else
    (exponentDigits 0 digits).map fun magnitude =>
      if negative then -(magnitude : Int) else magnitude

/-- The exponent behind a mantissa: none at all, or its mark and its digits. -/
def markedExponent?
    (lower upper : Char)
    (chars : List Char) :
    Option Int :=
  match chars with
  | mark :: rest => if mark = lower ∨ mark = upper then exponent? rest else none
  | [] => none

/-- The double nearest to `value * base ^ exponent`. -/
def powerRatio?
    (negative : Bool)
    (value base : Nat)
    (exponent : Int) :
    Except Problem Float :=
  let number? :=
    match exponent with
    | .ofNat up => Binary64.ofRatio? negative (value * Nat.pow base up) 1
    | .negSucc down => Binary64.ofRatio? negative value (Nat.pow base (down + 1))
  match number? with
  | some number => .ok number
  | none => .error .outOfRange

/-- A decimal fraction with an optional exponent. -/
def decimalFraction
    (negative : Bool)
    (chars : List Char) :
    Except Problem Float :=
  let read := mantissa 10 decimalDigit? Mantissa.start chars
  if read.anyDigit then
    if read.rest.isEmpty then
      powerRatio? negative read.value 10 (-(read.fraction : Int))
    else
      match markedExponent? 'e' 'E' read.rest with
      | some exponent => powerRatio? negative read.value 10 (exponent - read.fraction)
      | none => .error .invalid
  else
    .error .invalid

/-- A hexadecimal fraction, which must have a binary exponent. -/
def hexadecimalFraction
    (negative : Bool)
    (chars : List Char) :
    Except Problem Float :=
  let read := mantissa 16 hexadecimalDigit? Mantissa.start chars
  if read.anyDigit then
    match markedExponent? 'p' 'P' read.rest with
    | some exponent => powerRatio? negative read.value 2 (exponent - 4 * read.fraction)
    | none => .error .invalid
  else
    .error .invalid

/-- A letter in lower case; other characters as they are. -/
def lowerCase (char : Char) : Char :=
  if 'A' ≤ char ∧ char ≤ 'Z' then Char.ofNat (char.toNat + 32) else char

/-- A fraction in decimal, in hexadecimal or by name, rounded to the nearest double. -/
def fraction (chars : List Char) : Except Problem Float :=
  let (negative, magnitude) := splitSign chars
  let name := String.ofList (magnitude.map lowerCase)
  if name = "inf" ∨ name = "infinity" then
    .ok (Binary64.infinity negative)
  else if name = "nan" ∧ magnitude = chars then
    .ok Binary64.nan
  else
    match magnitude with
    | '0' :: mark :: first :: rest =>
        if mark = 'x' ∨ mark = 'X' then
          hexadecimalFraction negative (first :: rest)
        else
          decimalFraction negative magnitude
    | _ => decimalFraction negative magnitude

end Reckon.Decimal
