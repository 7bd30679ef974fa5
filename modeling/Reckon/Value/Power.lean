import Reckon.Value.Basic

namespace Reckon

/-!
# Powers

A real power multiplies out the whole part of the exponent by repeated squaring and takes the
fraction that is left, never more than a half, through the logarithm.  The special cases come
first, so that infinities, zeros and square roots are exact.  A complex power goes through polar
coordinates.
-/

namespace Power

/-- The number is whole and odd. -/
def isOddWhole (number : Float) : Bool :=
  match Binary64.toInt? number with
  | some whole => number.abs < Binary64.ofInt 0x20000000000000 && whole % 2 == 1
  | none => false

/-- A product in progress: a factor, the power of two beside it, and the square to come. -/
structure Product where
  factor : Float
  power : Int
  square : Float
  squarePower : Int

/--
Multiply by the base as often as the exponent says.  Once the power of two alone has left every
range, one more square decides the result and the rest of the exponent no longer counts.
-/
def multiplyOut : Nat → Nat → Product → Product
  | 0, _, product => product
  | bits + 1, exponent, product =>
      if exponent = 0 then
        product
      else if product.squarePower < -4096 ∨ 4096 < product.squarePower then
        { product with power := product.power + product.squarePower }
      else
        let odd := exponent % 2 == 1
        let squared := product.square * product.square
        let doubled := 2 * product.squarePower
        multiplyOut bits (exponent / 2)
          { factor := if odd then product.factor * product.square else product.factor
            power := if odd then product.power + product.squarePower else product.power
            square := if squared < 0.5 then squared + squared else squared
            squarePower := if squared < 0.5 then doubled - 1 else doubled }

/-- A power of a finite base other than zero with a finite exponent. -/
def finitePower (base exponent : Float) : Float :=
  let whole := Binary64.truncate exponent.abs
  let fraction := exponent.abs - whole
  if fraction != 0 && base < 0 then
    Binary64.nan
  else if Binary64.ofInt 0x8000000000000000 ≤ whole then
    if base == -1 then
      1
    else if (base.abs < 1) == (0 < exponent) then
      0
    else
      Binary64.infinity false
  else
    let roundUp := 0.5 < fraction
    let fraction := if roundUp then fraction - 1 else fraction
    let whole := if roundUp then whole + 1 else whole
    let start := if fraction != 0 then Float.exp (fraction * Float.log base) else 1
    let (significand, power) := Binary64.normalize base
    let count := ((Binary64.toInt? whole).getD 0).toNat
    let product :=
      multiplyOut 64 count
        { factor := start, power := 0, square := significand, squarePower := power }
    if exponent < 0 then
      Binary64.scaleBy (1 / product.factor) (-product.power)
    else
      Binary64.scaleBy product.factor product.power

/-- A power of zero. -/
def zeroPower (base exponent : Float) : Float :=
  let keepsSign := Binary64.isNegative base && isOddWhole exponent
  if exponent < 0 then
    Binary64.infinity keepsSign
  else
    Binary64.zero keepsSign

/-- A real power. -/
def real (base exponent : Float) : Float :=
  if exponent == 0 || base == 1 then
    1
  else if exponent == 1 then
    base
  else if base.isNaN || exponent.isNaN then
    Binary64.nan
  else if base == 0 then
    zeroPower base exponent
  else if exponent.isInf then
    if base == -1 then
      1
    else if (base.abs < 1) == (0 < exponent) then
      0
    else
      Binary64.infinity false
  else if base.isInf then
    if base < 0 then
      zeroPower (1 / base) (-exponent)
    else if exponent < 0 then
      0
    else
      Binary64.infinity false
  else if exponent == 0.5 then
    base.sqrt
  else if exponent == -0.5 then
    1 / base.sqrt
  else
    finitePower base exponent

/-- The distance of a point from the origin. -/
def distance (number : Complex) : Float :=
  if number.re.isInf || number.im.isInf then
    Binary64.infinity false
  else if number.re.isNaN || number.im.isNaN then
    Binary64.nan
  else
    let left := number.re.abs
    let right := number.im.abs
    let large := if left < right then right else left
    let small := if left < right then left else right
    if large == 0 then
      0
    else
      let ratio := small / large
      large * (1 + ratio * ratio).sqrt

/-- A power of the complex zero; there is none when only an infinity hides that it is undefined. -/
def complexZero? (exponent : Complex) : Option Complex :=
  let infinite := exponent.re.isInf || exponent.im.isInf
  if !infinite && (exponent.re.isNaN || exponent.im.isNaN) then
    some { re := Binary64.nan, im := Binary64.nan }
  else if exponent.re == 0 then
    some { re := 1, im := 0 }
  else if exponent.re < 0 then
    if exponent.im == 0 then
      some { re := Binary64.infinity false, im := 0 }
    else
      some { re := Binary64.infinity false, im := Binary64.infinity false }
  else if 0 < exponent.re then
    some { re := 0, im := 0 }
  else
    none

/-- A complex power. -/
def complex? (base exponent : Complex) : Option Complex :=
  if base.equals { re := 0, im := 0 } then
    complexZero? exponent
  else
    let modulus := distance base
    let argument := Float.atan2 base.im base.re
    let radius := real modulus exponent.re
    let angle := exponent.re * argument
    let turned := exponent.im != 0
    let radius := if turned then radius * Float.exp (-exponent.im * argument) else radius
    let angle := if turned then angle + exponent.im * Float.log modulus else angle
    some { re := radius * Float.cos angle, im := radius * Float.sin angle }

end Power

end Reckon
