import Reckon.Outcome
import Reckon.Value.Power

namespace Reckon

/-!
# Arithmetic

Operators work on two numbers of one kind: no number is widened to another kind, except that a
power is always a double, or complex when either side is.  Whole numbers wrap at 32 bits.
-/

/-- The binary operators; a number out of use stands for an operator that does nothing. -/
inductive Operator where
  | add
  | subtract
  | multiply
  | divide
  | quotient
  | power
  | equal
  | notEqual
  | less
  | lessEqual
  | greater
  | greaterEqual
  | undefined (code : UInt8)
  deriving Repr, DecidableEq

namespace Operator

/-- The sign of an operator in source text and messages. -/
def sign : Operator → String
  | .add => "+"
  | .subtract => "-"
  | .multiply => "*"
  | .divide => "/"
  | .quotient => "//"
  | .power => "**"
  | .equal => "=="
  | .notEqual => "!="
  | .less => "<"
  | .lessEqual => "<="
  | .greater => ">"
  | .greaterEqual => ">="
  | .undefined code => "Operator(" ++ Text.integer code.toNat ++ ")"

/-- The operator that a number stands for. -/
def ofCode (code : UInt8) : Operator :=
  match code.toNat with
  | 0 => .add
  | 1 => .subtract
  | 2 => .multiply
  | 3 => .divide
  | 4 => .quotient
  | 5 => .power
  | 6 => .equal
  | 7 => .notEqual
  | 8 => .less
  | 9 => .lessEqual
  | 10 => .greater
  | 11 => .greaterEqual
  | _ => .undefined code

end Operator

/-- Why an operation on values fails. -/
inductive ArithmeticFault where
  | notNumbers (operator : Operator) (left right : Kind)
  | kindsDiffer (operator : Operator) (left right : Kind)
  | divisionByZero (operator : Operator) (left : Int32)
  | unsupported (operator : Operator) (kind : Kind)
  | notNumber (kind : Kind)
  | notBoolean (kind : Kind)
  deriving Repr, DecidableEq

namespace ArithmeticFault

/-- The wording of a failure. -/
def message : ArithmeticFault → String
  | .notNumbers operator left right =>
      "type mismatch: both operands must be numbers, got " ++ left.name ++ " " ++
        operator.sign ++ " " ++ right.name
  | .kindsDiffer operator left right =>
      "type mismatch: unsupported operand kinds for " ++ operator.sign ++ ": " ++
        left.name ++ " and " ++ right.name
  | .divisionByZero operator left =>
      "division by zero: " ++ Text.integer left.toInt ++ " " ++ operator.sign ++ " 0"
  | .unsupported operator kind =>
      "unsupported operand: " ++ operator.sign ++ " on " ++ kind.name
  | .notNumber kind =>
      "type mismatch: operand must be a number, got " ++ kind.name
  | .notBoolean kind =>
      "type mismatch: operand must be a boolean, got " ++ kind.name

end ArithmeticFault

namespace Complex

/-- The sum, part by part. -/
def add (left right : Complex) : Complex :=
  { re := left.re + right.re, im := left.im + right.im }

/-- The difference, part by part. -/
def subtract (left right : Complex) : Complex :=
  { re := left.re - right.re, im := left.im - right.im }

/-- The product, with no care for infinities. -/
def multiply (left right : Complex) : Complex :=
  { re := left.re * right.re - left.im * right.im
    im := left.re * right.im + left.im * right.re }

/-- Both signs turned. -/
def negate (number : Complex) : Complex :=
  { re := -number.re, im := -number.im }

/-- The quotient by way of the ratio of the divisor's smaller part to its larger. -/
def scaledQuotient (left right : Complex) : Complex :=
  if right.im.abs ≤ right.re.abs then
    let ratio := right.im / right.re
    let divisor := right.re + ratio * right.im
    { re := (left.re + left.im * ratio) / divisor
      im := (left.im - left.re * ratio) / divisor }
  else
    let ratio := right.re / right.im
    let divisor := right.im + ratio * right.re
    { re := (left.re * ratio + left.im) / divisor
      im := (left.im * ratio - left.re) / divisor }

/-- One with the sign of an infinity, and zero with the sign of any other number. -/
def unitOfInfinity (number : Float) : Float :=
  Binary64.withSignOf (if number.isInf then 1 else 0) number

/-- The parts of a product with the conjugate, all scaled alike. -/
def scaledConjugateProduct (scale : Float) (left right : Complex) : Complex :=
  { re := scale * (left.re * right.re + left.im * right.im)
    im := scale * (left.im * right.re - left.re * right.im) }

/--
The quotient.  Where both parts would be no number, a zero divisor and infinite operands are
given the direction that they still have.
-/
def divide (left right : Complex) : Complex :=
  let quotient := scaledQuotient left right
  if quotient.re.isNaN && quotient.im.isNaN then
    let leftInfinite := left.re.isInf || left.im.isInf
    let leftFinite := left.re.isFinite && left.im.isFinite
    let rightInfinite := right.re.isInf || right.im.isInf
    let rightFinite := right.re.isFinite && right.im.isFinite
    if right.equals { re := 0, im := 0 } && !(left.re.isNaN && left.im.isNaN) then
      let scale := Binary64.withSignOf (Binary64.infinity false) right.re
      { re := scale * left.re, im := scale * left.im }
    else if leftInfinite && rightFinite then
      let unit := { re := unitOfInfinity left.re, im := unitOfInfinity left.im }
      scaledConjugateProduct (Binary64.infinity false) unit right
    else if rightInfinite && leftFinite then
      let unit := { re := unitOfInfinity right.re, im := unitOfInfinity right.im }
      scaledConjugateProduct 0 left unit
    else
      quotient
  else
    quotient

end Complex

namespace Operator

/-- An operator on whole numbers. -/
def applyInteger
    (operator : Operator)
    (left right : Int32) :
    Outcome ArithmeticFault Value :=
  match operator with
  | .add => .done (.integer (left + right))
  | .subtract => .done (.integer (left - right))
  | .multiply => .done (.integer (left * right))
  | .divide =>
      if right = 0 then
        .failed (.divisionByZero .divide left)
      else
        .done (.float (Binary64.ofInt left.toInt / Binary64.ofInt right.toInt))
  | .quotient =>
      if right = 0 then
        .failed (.divisionByZero .quotient left)
      else
        .done (.integer (left / right))
  | .equal => .done (.bool (left == right))
  | .notEqual => .done (.bool (left != right))
  | .less => .done (.bool (left < right))
  | .lessEqual => .done (.bool (left ≤ right))
  | .greater => .done (.bool (right < left))
  | .greaterEqual => .done (.bool (right ≤ left))
  | .power | .undefined _ => .failed (.unsupported operator .integer)

/-- An operator on doubles; the whole quotient stays a double. -/
def applyFloat
    (operator : Operator)
    (left right : Float) :
    Outcome ArithmeticFault Value :=
  match operator with
  | .add => .done (.float (left + right))
  | .subtract => .done (.float (left - right))
  | .multiply => .done (.float (left * right))
  | .divide => .done (.float (left / right))
  | .quotient => .done (.float (Binary64.truncate (left / right)))
  | .equal => .done (.bool (left == right))
  | .notEqual => .done (.bool (left != right))
  | .less => .done (.bool (left < right))
  | .lessEqual => .done (.bool (left ≤ right))
  | .greater => .done (.bool (right < left))
  | .greaterEqual => .done (.bool (right ≤ left))
  | .power | .undefined _ => .failed (.unsupported operator .float)

/-- An operator on complex numbers, which have no order and no whole quotient. -/
def applyComplex
    (operator : Operator)
    (left right : Complex) :
    Outcome ArithmeticFault Value :=
  match operator with
  | .add => .done (.complex (left.add right))
  | .subtract => .done (.complex (left.subtract right))
  | .multiply => .done (.complex (left.multiply right))
  | .divide => .done (.complex (left.divide right))
  | .equal => .done (.bool (left.equals right))
  | .notEqual => .done (.bool (!left.equals right))
  | _ => .failed (.unsupported operator .complex)

/-- A number as a double, when it is real. -/
def realPart? : Value → Option Float
  | .integer number => some (Binary64.ofInt number.toInt)
  | .float number => some number
  | _ => none

/-- A number as a complex one. -/
def complexPart? : Value → Option Complex
  | .complex number => some number
  | value => (realPart? value).map fun re => { re := re, im := 0 }

/-- The power of two numbers of any kinds. -/
def applyPower (left right : Value) : Outcome ArithmeticFault Value :=
  match realPart? left, realPart? right with
  | some base, some exponent => .done (.float (Power.real base exponent))
  | _, _ =>
      match complexPart? left, complexPart? right with
      | some base, some exponent =>
          match Power.complex? base exponent with
          | some number => .done (.complex number)
          | none => .aborted
      | _, _ => .failed (.notNumbers .power left.kind right.kind)

/-- Apply an operator to its left and right operands. -/
def apply
    (operator : Operator)
    (left right : Value) :
    Outcome ArithmeticFault Value :=
  if left.isNumber && right.isNumber then
    if operator = .power then
      applyPower left right
    else
      match left, right with
      | .integer left, .integer right => operator.applyInteger left right
      | .float left, .float right => operator.applyFloat left right
      | .complex left, .complex right => operator.applyComplex left right
      | left, right => .failed (.kindsDiffer operator left.kind right.kind)
  else
    .failed (.notNumbers operator left.kind right.kind)

end Operator

namespace Value

/-- A number with its sign turned. -/
def negate : Value → Except ArithmeticFault Value
  | .integer number => .ok (.integer (-number))
  | .float number => .ok (.float (-number))
  | .complex number => .ok (.complex number.negate)
  | value => .error (.notNumber value.kind)

/-- The other truth value. -/
def not : Value → Except ArithmeticFault Value
  | .bool truth => .ok (.bool (!truth))
  | value => .error (.notBoolean value.kind)

end Value

end Reckon
