namespace Reckon

/-!
# Double-precision numbers, taken apart

The reading and writing of decimals, truncation and powers all work on the exact value of a
double: a whole significand times a power of two.  `shape` takes a double apart and `ofRatio?`
puts the double nearest to a ratio together, ties going to the even significand.
-/

namespace Binary64

/-- What a double stands for. -/
inductive Shape where
  | nan
  | infinite (negative : Bool)
  | finite (negative : Bool) (significand : Nat) (exponent : Int)
  deriving Repr, DecidableEq

/-- The exponent that every subnormal number has, and no finite number goes below. -/
def leastExponent : Int := -1074

/-- Bits of the positive infinity. -/
def infinityBits : Nat := 0x7FF0000000000000

/-- The number behind a bit pattern. -/
def shapeOfBits (bits : Nat) : Shape :=
  let negative := bits / 0x8000000000000000 % 2 == 1
  let field : Nat := bits / 0x10000000000000 % 2048
  let fraction := bits % 0x10000000000000
  if field = 2047 then
    if fraction = 0 then .infinite negative else .nan
  else if field = 0 then
    .finite negative fraction leastExponent
  else
    .finite negative (0x10000000000000 + fraction) ((field : Int) - 1075)

/-- Take a double apart. -/
def shape (number : Float) : Shape :=
  shapeOfBits number.toBits.toNat

/-- The sign bit is set. -/
def isNegative (number : Float) : Bool :=
  number.toBits.toNat / 0x8000000000000000 % 2 == 1

/-- A double from its sign and the bits of its magnitude. -/
def ofMagnitude (negative : Bool) (magnitude : Nat) : Float :=
  Float.ofBits ((if negative then 0x8000000000000000 else 0) + magnitude).toUInt64

/-- Zero with a sign. -/
def zero (negative : Bool) : Float :=
  ofMagnitude negative 0

/-- Infinity with a sign. -/
def infinity (negative : Bool) : Float :=
  ofMagnitude negative infinityBits

/-- The number that is no number. -/
def nan : Float :=
  Float.ofBits 0x7FF8000000000000

/-- The magnitude of one number with the sign of another. -/
def withSignOf (magnitude sign : Float) : Float :=
  if isNegative magnitude = isNegative sign then magnitude else -magnitude

/-- The whole number nearest to a ratio, the even one of two. -/
def roundRatio (numerator denominator : Nat) : Nat :=
  let quotient := numerator / denominator
  let twice := 2 * (numerator % denominator)
  if twice < denominator then
    quotient
  else if denominator < twice then
    quotient + 1
  else
    quotient + quotient % 2

/-- The ratio divided by a power of two, as a ratio. -/
def scaleDown
    (numerator denominator : Nat)
    (exponent : Int) :
    Nat × Nat :=
  match exponent with
  | .ofNat up => (numerator, denominator * Nat.pow 2 up)
  | .negSucc down => (numerator * Nat.pow 2 (down + 1), denominator)

/-- The exponent at which a ratio has a significand of 53 bits, or the least one. -/
def exponentOfRatio (numerator denominator : Nat) : Int :=
  let estimate : Int := (numerator.log2 : Int) - denominator.log2 - 53
  let scaled := scaleDown numerator denominator estimate
  let exponent :=
    if 0x20000000000000 * scaled.2 ≤ scaled.1 then estimate + 1 else estimate
  max exponent leastExponent

/--
Bits of the magnitude nearest to a ratio.  A significand that rounds up to the next power of two
carries into the exponent by itself.
-/
def magnitudeOfRatio (numerator denominator : Nat) : Nat :=
  if numerator = 0 then
    0
  else
    let exponent := exponentOfRatio numerator denominator
    let scaled := scaleDown numerator denominator exponent
    (exponent - leastExponent).toNat * 0x10000000000000 + roundRatio scaled.1 scaled.2

/-- The double nearest to a signed ratio, or nothing when it is too large for one. -/
def ofRatio?
    (negative : Bool)
    (numerator denominator : Nat) :
    Option Float :=
  let magnitude := magnitudeOfRatio numerator denominator
  if magnitude < infinityBits then
    some (ofMagnitude negative magnitude)
  else
    none

/-- The double nearest to a signed ratio, infinite when it is too large for a finite one. -/
def ofRatio
    (negative : Bool)
    (numerator denominator : Nat) :
    Float :=
  (ofRatio? negative numerator denominator).getD (infinity negative)

/-- The double nearest to `significand * 2 ^ exponent`. -/
def ofScaled
    (negative : Bool)
    (significand : Nat)
    (exponent : Int) :
    Float :=
  match exponent with
  | .ofNat up => ofRatio negative (significand * Nat.pow 2 up) 1
  | .negSucc down => ofRatio negative significand (Nat.pow 2 (down + 1))

/-- The whole part of a finite magnitude. -/
def wholePart (significand : Nat) (exponent : Int) : Nat :=
  match exponent with
  | .ofNat up => significand * Nat.pow 2 up
  | .negSucc down => significand / Nat.pow 2 (down + 1)

/-- A finite magnitude is a whole number. -/
def isWhole (significand : Nat) (exponent : Int) : Bool :=
  match exponent with
  | .ofNat _ => true
  | .negSucc down => significand % Nat.pow 2 (down + 1) == 0

/-- The exact value of a double that is a whole number. -/
def toInt? (number : Float) : Option Int :=
  match shape number with
  | .finite negative significand exponent =>
      if isWhole significand exponent then
        let whole := wholePart significand exponent
        some (if negative then -(whole : Int) else whole)
      else
        none
  | _ => none

/-- The fraction cut off, the sign kept. -/
def truncate (number : Float) : Float :=
  match shape number with
  | .finite negative significand exponent =>
      ofRatio negative (wholePart significand exponent) 1
  | _ => number

/-- The double nearest to a whole number. -/
def ofInt (number : Int) : Float :=
  ofRatio (number < 0) number.natAbs 1

/-- A double multiplied by a power of two, rounded once. -/
def scaleBy (number : Float) (power : Int) : Float :=
  match shape number with
  | .finite negative significand exponent =>
      ofScaled negative significand (exponent + power)
  | _ => number

/-- A finite double as a number of magnitude at least a half and below one, and a power of two. -/
def normalize (number : Float) : Float × Int :=
  match shape number with
  | .finite negative significand exponent =>
      if significand = 0 then
        (number, 0)
      else
        let width := significand.log2 + 1
        (ofRatio negative significand (Nat.pow 2 width), exponent + width)
  | _ => (number, 0)

end Binary64

end Reckon
