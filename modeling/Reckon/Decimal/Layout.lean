import Reckon.Decimal.Shortest

namespace Reckon.Decimal

/-!
# Writing decimals

Digits are laid out positionally while the exponent of the first digit is moderate, and with an
explicit exponent otherwise.
-/

/-- Where positional layout ends, and how an exponent is written. -/
structure Layout where
  leastPositional : Int
  firstExponential : Int
  exponentWidth : Nat
  deriving Repr, DecidableEq

/-- Positional from `0.0001` up to six digits before the point; exponents have two digits. -/
def general : Layout :=
  { leastPositional := -4, firstExponential := 6, exponentWidth := 2 }

/-- Digits as characters. -/
def digitText (digits : List Nat) : List Char :=
  digits.map fun digit => Char.ofNat ('0'.toNat + digit)

/-- An exponent with its sign and at least the given number of digits. -/
def exponentText (width : Nat) (exponent : Int) : List Char :=
  let sign := if exponent < 0 then '-' else '+'
  let digits := exponent.natAbs.repr.toList
  'e' :: sign :: (List.replicate (width - digits.length) '0' ++ digits)

/-- Digits with a point behind the first and an explicit exponent. -/
def exponential (layout : Layout) (number : Digits) : List Char :=
  let mantissa :=
    match digitText number.digits with
    | [] => ['0']
    | [only] => [only]
    | first :: rest => first :: '.' :: rest
  mantissa ++ exponentText layout.exponentWidth number.exponent

/-- Digits around the decimal point, with zeros where the digits do not reach it. -/
def positional (number : Digits) : List Char :=
  match number.exponent with
  | .ofNat before =>
      let whole := digitText (number.digits.take (before + 1))
      let missing := before + 1 - whole.length
      let fraction := digitText (number.digits.drop (before + 1))
      whole ++ List.replicate missing '0' ++
        (if fraction.isEmpty then [] else '.' :: fraction)
  | .negSucc after =>
      '0' :: '.' :: (List.replicate after '0' ++ digitText number.digits)

/-- A magnitude in the given layout. -/
def magnitudeText (layout : Layout) (number : Digits) : List Char :=
  if number.exponent < layout.leastPositional ∨ layout.firstExponential ≤ number.exponent then
    exponential layout number
  else
    positional number

/-- A double in the general layout. -/
def text (number : Float) : String :=
  match Binary64.shape number with
  | .nan => "nan"
  | .infinite negative => if negative then "-inf" else "inf"
  | .finite negative significand exponent =>
      let magnitude := magnitudeText general (shortest significand exponent)
      String.ofList (if negative then '-' :: magnitude else magnitude)

end Reckon.Decimal
