import Reckon.Binary64

namespace Reckon.Cbor

/-!
# Data items

The items of the concise binary object representation, as they are read: definite and indefinite
lengths are no longer told apart, except that a text keeps its chunks, because each chunk must be
well-formed by itself.
-/

/-- One data item. -/
inductive Item where
  /-- A number from zero on. -/
  | unsigned (value : Nat)
  /-- The number `-1 - value`. -/
  | negative (value : Nat)
  | bytes (content : List UInt8)
  | text (chunks : List (List UInt8))
  | array (items : List Item)
  | map (entries : List (Item × Item))
  | tag (number : Nat) (content : Item)
  | simple (code : Nat)
  | float (value : Float)
  deriving Repr

/-- The lowest bytes of a number, highest first. -/
def bigEndian : Nat → Nat → List UInt8
  | 0, _ => []
  | count + 1, value => (value / Nat.pow 256 count % 256).toUInt8 :: bigEndian count value

/-- A number from its bytes, the highest first. -/
def ofBigEndian (bytes : List UInt8) : Nat :=
  bytes.foldl (fun value byte => value * 256 + byte.toNat) 0

/-- The width of the fields of a floating-point format narrower than a double. -/
structure FloatFormat where
  exponentBits : Nat
  fractionBits : Nat
  deriving Repr, DecidableEq

namespace FloatFormat

/-- Sixteen bits. -/
def half : FloatFormat := { exponentBits := 5, fractionBits := 10 }

/-- Thirty-two bits. -/
def single : FloatFormat := { exponentBits := 8, fractionBits := 23 }

/-- The greatest number in the exponent field, for infinities and what is no number. -/
def topField (format : FloatFormat) : Nat :=
  Nat.pow 2 format.exponentBits - 1

/-- The exponent of the last place of a subnormal number. -/
def leastExponent (format : FloatFormat) : Int :=
  2 - (Nat.pow 2 (format.exponentBits - 1) : Int) - (format.fractionBits : Int)

/-- The place of the sign. -/
def signWeight (format : FloatFormat) : Nat :=
  Nat.pow 2 (format.exponentBits + format.fractionBits)

/-- The double that a bit pattern of the format stands for. -/
def widen (format : FloatFormat) (bits : Nat) : Float :=
  let negative := bits / format.signWeight % 2 == 1
  let field := bits / Nat.pow 2 format.fractionBits % Nat.pow 2 format.exponentBits
  let fraction := bits % Nat.pow 2 format.fractionBits
  if field = format.topField then
    if fraction = 0 then Binary64.infinity negative else Binary64.nan
  else if field = 0 then
    Binary64.ofScaled negative fraction format.leastExponent
  else
    Binary64.ofScaled negative (Nat.pow 2 format.fractionBits + fraction)
      (format.leastExponent + field - 1)

/-- A significand at another exponent, if it stays whole. -/
def rescale? (significand : Nat) (exponent target : Int) : Option Nat :=
  match exponent - target with
  | .ofNat up => some (significand * Nat.pow 2 up)
  | .negSucc down =>
      if significand % Nat.pow 2 (down + 1) = 0 then
        some (significand / Nat.pow 2 (down + 1))
      else
        none

/-- The bits of a finite number in the format, if it has exactly that value there. -/
def narrow?
    (format : FloatFormat)
    (negative : Bool)
    (significand : Nat)
    (exponent : Int) :
    Option Nat := do
  let place := max (exponent + significand.log2 - format.fractionBits) format.leastExponent
  let scaled ← rescale? significand exponent place
  let magnitude := (place - format.leastExponent).toNat * Nat.pow 2 format.fractionBits + scaled
  if magnitude < format.topField * Nat.pow 2 format.fractionBits then
    some (magnitude + if negative then format.signWeight else 0)
  else
    none

end FloatFormat

end Reckon.Cbor
