import Reckon.Binary64

namespace Reckon.Decimal

/-!
# The fewest digits that read back

A finite double stands for every real number that rounds to it: an interval around its exact value
that holds its ends exactly when the significand is even.  Its decimal form is the point of that
interval with the fewest digits, and the one nearest to the exact value among those.
-/

/-- A decimal `d.ddd… * 10 ^ exponent`, with no zero at either end of the digits. -/
structure Digits where
  digits : List Nat
  exponent : Int
  deriving Repr, DecidableEq

/-- How many decimal digits a number has. -/
def digitCount (number : Nat) : Nat :=
  (Nat.toDigits 10 number).length

/-- The exponent of the first digit of a positive ratio. -/
def leadingExponent (numerator denominator : Nat) : Int :=
  if denominator ≤ numerator then
    (digitCount (numerator / denominator) : Int) - 1
  else
    -(digitCount ((denominator + numerator - 1) / numerator - 1) : Int)

/-- An exact magnitude with the ends of the interval of numbers that round to it. -/
structure Interval where
  low : Nat
  value : Nat
  high : Nat
  denominator : Nat
  closed : Bool
  deriving Repr, DecidableEq

namespace Interval

/--
The interval of a finite magnitude, in quarters of its last place.  Below a power of two the
neighbour is only half as far away, unless it has the same exponent.
-/
def ofFinite (significand : Nat) (exponent : Int) : Interval :=
  let below :=
    if significand = 0x10000000000000 ∧ Binary64.leastExponent < exponent then 1 else 2
  let closed := significand % 2 == 0
  match exponent - 2 with
  | .ofNat up =>
      { low := (4 * significand - below) * Nat.pow 2 up
        value := 4 * significand * Nat.pow 2 up
        high := (4 * significand + 2) * Nat.pow 2 up
        denominator := 1
        closed := closed }
  | .negSucc down =>
      { low := 4 * significand - below
        value := 4 * significand
        high := 4 * significand + 2
        denominator := Nat.pow 2 (down + 1)
        closed := closed }

/-- The interval in units of a power of ten. -/
def inUnits (interval : Interval) (unit : Int) : Interval :=
  match unit with
  | .ofNat up =>
      { interval with denominator := interval.denominator * Nat.pow 10 up }
  | .negSucc down =>
      { interval with
        low := interval.low * Nat.pow 10 (down + 1)
        value := interval.value * Nat.pow 10 (down + 1)
        high := interval.high * Nat.pow 10 (down + 1) }

/-- A whole number of units lies in the interval. -/
def holds (interval : Interval) (units : Nat) : Bool :=
  let point := units * interval.denominator
  if interval.closed then
    interval.low ≤ point && point ≤ interval.high
  else
    interval.low < point && point < interval.high

/-- The whole number of units in the interval that is nearest to the exact value. -/
def nearest? (interval : Interval) : Option Nat :=
  let floor := interval.value / interval.denominator
  let twice := 2 * (interval.value % interval.denominator)
  match interval.holds floor, interval.holds (floor + 1) with
  | true, true =>
      some <|
        if twice < interval.denominator then
          floor
        else if interval.denominator < twice then
          floor + 1
        else
          floor + floor % 2
  | true, false => some floor
  | false, true => some (floor + 1)
  | false, false => none

end Interval

/-- Digits of a number without the zeros at its end, and how many of these there were. -/
def stripZeros (digits : List Nat) : List Nat :=
  (digits.reverse.dropWhile (· == 0)).reverse

/-- Decimal digits of a number, highest first. -/
def digitsOf (number : Nat) : List Nat :=
  (Nat.toDigits 10 number).map fun digit => digit.toNat - '0'.toNat

/-- Try one digit more until a point of the grid lies in the interval. -/
def searchDigits
    (interval : Interval)
    (leading : Int) :
    Nat → Nat → Digits
  | 0, count =>
      let unit := leading - count + 1
      let scaled := interval.inUnits unit
      let units := scaled.value / scaled.denominator
      { digits := stripZeros (digitsOf units)
        exponent := unit + digitCount units - 1 }
  | more + 1, count =>
      let unit := leading - count + 1
      match (interval.inUnits unit).nearest? with
      | some units =>
          { digits := stripZeros (digitsOf units)
            exponent := unit + digitCount units - 1 }
      | none => searchDigits interval leading more (count + 1)

/-- The shortest digits of a finite magnitude; none for zero. -/
def shortest (significand : Nat) (exponent : Int) : Digits :=
  if significand = 0 then
    { digits := [], exponent := 0 }
  else
    let interval := Interval.ofFinite significand exponent
    let leading := leadingExponent interval.value interval.denominator
    searchDigits interval leading 17 1

end Reckon.Decimal
