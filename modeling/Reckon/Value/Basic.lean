import Reckon.Decimal.Layout
import Reckon.Text.Columns

namespace Reckon

/-!
# Values

A value is a truth value, a whole number of 32 bits, a double, a complex number, or a handle of a
heap object.  The invalid value stands where no value was ever put.
-/

/-- The kinds of values. -/
inductive Kind where
  | invalid
  | bool
  | integer
  | float
  | complex
  | object
  deriving Repr, DecidableEq

namespace Kind

/-- The name of a kind in messages and listings. -/
def name : Kind → String
  | .invalid => "INVALID"
  | .bool => "BOOL"
  | .integer => "INTEGER"
  | .float => "FLOAT"
  | .complex => "COMPLEX"
  | .object => "OBJECT"

/-- The number that stands for a kind in an image. -/
def code : Kind → UInt8
  | .invalid => 0
  | .bool => 1
  | .integer => 2
  | .float => 3
  | .complex => 4
  | .object => 5

/-- The kind that a number stands for; every number out of use stands for the invalid kind. -/
def ofCode (code : UInt8) : Kind :=
  match code.toNat with
  | 1 => .bool
  | 2 => .integer
  | 3 => .float
  | 4 => .complex
  | 5 => .object
  | _ => .invalid

/-- Values of this kind take part in arithmetic. -/
def isNumber : Kind → Bool
  | .integer | .float | .complex => true
  | .invalid | .bool | .object => false

end Kind

/-- A heap object, named by its slot and by how often that slot was vacated before. -/
structure Handle where
  index : UInt32
  generation : UInt32
  deriving Repr, DecidableEq

/-- A complex number by its real and imaginary parts. -/
structure Complex where
  re : Float
  im : Float
  deriving Repr

/-- What the machine computes with. -/
inductive Value where
  | invalid
  | bool (truth : Bool)
  | integer (number : Int32)
  | float (number : Float)
  | complex (number : Complex)
  | object (handle : Handle)
  deriving Repr

namespace Complex

/-- Parts that compare equal as doubles. -/
def equals (left right : Complex) : Bool :=
  left.re == right.re && left.im == right.im

/--
The imaginary part alone when the real part is zero, and both parts in parentheses otherwise.
A negative zero in the real part counts as a part that is there.
-/
def text (number : Complex) : String :=
  if number.re == 0 && !Binary64.isNegative number.re then
    Decimal.text number.im ++ "j"
  else if number.im < 0 || (number.im == 0 && Binary64.isNegative number.im) then
    "(" ++ Decimal.text number.re ++ "-" ++ Decimal.text (-number.im) ++ "j)"
  else
    "(" ++ Decimal.text number.re ++ "+" ++ Decimal.text number.im ++ "j)"

end Complex

namespace Handle

/-- A handle in listings. -/
def text (handle : Handle) : String :=
  "<object " ++ Text.integer handle.index.toNat ++ "." ++
    Text.integer handle.generation.toNat ++ ">"

end Handle

/-- A double with a sign that it is one: a point or an exponent, unless it is not finite. -/
def floatText (number : Float) : String :=
  let written := Decimal.text number
  if number.isFinite && !written.toList.any (fun char => char = '.' || char = 'e') then
    written ++ ".0"
  else
    written

namespace Value

/-- The kind of a value. -/
def kind : Value → Kind
  | .invalid => .invalid
  | .bool _ => .bool
  | .integer _ => .integer
  | .float _ => .float
  | .complex _ => .complex
  | .object _ => .object

/-- The value takes part in arithmetic. -/
def isNumber (value : Value) : Bool :=
  value.kind.isNumber

/-- The same kind and the same content; doubles are compared as numbers. -/
def equals : Value → Value → Bool
  | .invalid, .invalid => true
  | .bool left, .bool right => left == right
  | .integer left, .integer right => left == right
  | .float left, .float right => left == right
  | .complex left, .complex right => left.equals right
  | .object left, .object right => left == right
  | _, _ => false

/-- A value as it is shown. -/
def text : Value → String
  | .invalid => "<invalid>"
  | .bool truth => if truth then "True" else "False"
  | .integer number => Text.integer number.toInt
  | .float number => floatText number
  | .complex number => number.text
  | .object handle => handle.text

end Value

end Reckon
