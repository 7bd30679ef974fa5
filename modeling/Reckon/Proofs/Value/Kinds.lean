import Reckon.Machine.Fault

namespace Reckon

/-!
# Kinds of results

The kinds of the operands determine whether an operation on values fails, with which fault, and of
which kind its result is.  `Operator.resultKind` says how.  Only a division by zero and an
undefined power depend on more than kinds, and have no outline.
-/

/-- What is told, if anything is, is this. -/
def Tells {α : Type} (outline? : Option α) (outline : α) : Prop :=
  ∀ told ∈ outline?, told = outline

/-- What is told of two things is the same if both are told of. -/
def Consistent {α : Type} (first second : Option α) : Prop :=
  ∀ told ∈ first, ∀ other ∈ second, told = other

section Told

variable
  {α : Type}
  {outline : α}

@[simp] theorem tells_none :
    Tells none outline := by
  intro told isTold
  cases isTold

@[simp] theorem tells_some_iff
    {told : α} :
    Tells (some told) outline ↔ told = outline := by
  simp [Tells]

/-- Two things of which the same is told are consistent. -/
theorem Tells.consistent
    {first second : Option α}
    (tells : Tells first outline)
    (otherTells : Tells second outline) :
    Consistent first second :=
  fun told isTold other otherTold =>
    (tells told isTold).trans (otherTells other otherTold).symm

end Told

/-- What can be told of an operation on values by the kinds of its operands. -/
def Outcome.outline? : Outcome ArithmeticFault Value → Option (Except ArithmeticFault Kind)
  | .done value => some (.ok value.kind)
  | .failed fault => if fault.cause = .divisionByZero then none else some (.error fault)
  | .aborted => none

@[simp] theorem Outcome.outline?_done
    (value : Value) :
    (Outcome.done value : Outcome ArithmeticFault Value).outline? = some (.ok value.kind) :=
  rfl

@[simp] theorem Outcome.outline?_aborted :
    (Outcome.aborted : Outcome ArithmeticFault Value).outline? = none :=
  rfl

namespace Operator

/-- The kind that an operator gives on two operands of one kind. -/
def resultKindOn (operator : Operator) (kind : Kind) : Except ArithmeticFault Kind :=
  match operator with
  | .add | .subtract | .multiply => .ok kind
  | .divide => .ok (if kind = .integer then .float else kind)
  | .quotient => if kind = .complex then .error (.unsupported operator kind) else .ok kind
  | .equal | .notEqual => .ok .bool
  | .less | .lessEqual | .greater | .greaterEqual =>
      if kind = .complex then .error (.unsupported operator kind) else .ok .bool
  | .power | .undefined _ => .error (.unsupported operator kind)

/-- The kind that an operator gives on operands of two kinds, or the fault that it ends with. -/
def resultKind (operator : Operator) (left right : Kind) : Except ArithmeticFault Kind :=
  if left.isNumber && right.isNumber then
    if operator = .power then
      .ok (if left = .complex ∨ right = .complex then .complex else .float)
    else if left = right then
      operator.resultKindOn left
    else
      .error (.kindsDiffer operator left right)
  else
    .error (.notNumbers operator left right)

section Applied

variable (operator : Operator)

theorem applyInteger_tells
    (left right : Int32) :
    Tells (operator.applyInteger left right).outline? (operator.resultKindOn .integer) := by
  cases operator with
  | divide | quotient =>
      simp only [applyInteger]
      by_cases zero : right = 0
      · simp [zero, Outcome.outline?, ArithmeticFault.cause]
      · simp [zero, resultKindOn, Value.kind]
  | _ =>
      simp [applyInteger, resultKindOn, Outcome.outline?, ArithmeticFault.cause, Value.kind]

theorem applyFloat_tells
    (left right : Float) :
    Tells (operator.applyFloat left right).outline? (operator.resultKindOn .float) := by
  cases operator <;>
    simp [applyFloat, resultKindOn, Outcome.outline?, ArithmeticFault.cause, Value.kind]

theorem applyComplex_tells
    (left right : Complex) :
    Tells (operator.applyComplex left right).outline? (operator.resultKindOn .complex) := by
  cases operator <;>
    simp [applyComplex, resultKindOn, Outcome.outline?, ArithmeticFault.cause, Value.kind]

/-- A power is a double, or complex if either operand is, unless it is undefined. -/
theorem applyPower_tells
    {left right : Value}
    (leftNumber : left.isNumber = true)
    (rightNumber : right.isNumber = true) :
    Tells (applyPower left right).outline?
      (.ok (if left.kind = .complex ∨ right.kind = .complex then .complex else .float)) := by
  cases left with
  | invalid | bool | object => cases leftNumber
  | integer | float =>
      cases right with
      | invalid | bool | object => cases rightNumber
      | integer | float => simp [applyPower, realPart?, Value.kind]
      | complex =>
          simp only [applyPower, realPart?, complexPart?, Option.map_some]
          split <;> simp [Value.kind]
  | complex =>
      cases right with
      | invalid | bool | object => cases rightNumber
      | integer | float | complex =>
          simp only [applyPower, realPart?, complexPart?, Option.map_some]
          split <;> simp [Value.kind]

/-- What can be told of an operation is what the kinds of its operands say. -/
theorem apply_tells
    (left right : Value) :
    Tells (operator.apply left right).outline? (operator.resultKind left.kind right.kind) := by
  unfold apply resultKind
  by_cases numbers : (left.isNumber && right.isNumber) = true
  · have kindNumbers : (left.kind.isNumber && right.kind.isNumber) = true := numbers
    rw [if_pos numbers, if_pos kindNumbers]
    obtain ⟨leftNumber, rightNumber⟩ := Bool.and_eq_true_iff.mp numbers
    by_cases isPower : operator = .power
    · rw [if_pos isPower, if_pos isPower]
      exact applyPower_tells leftNumber rightNumber
    · rw [if_neg isPower, if_neg isPower]
      split
      · exact operator.applyInteger_tells _ _
      · exact operator.applyFloat_tells _ _
      · exact operator.applyComplex_tells _ _
      next notIntegers notFloats notComplexes =>
        have kindsDiffer : left.kind ≠ right.kind := by
          intro same
          cases left <;> cases right <;> cases same
          · cases leftNumber
          · cases leftNumber
          · exact notIntegers _ _ rfl rfl
          · exact notFloats _ _ rfl rfl
          · exact notComplexes _ _ rfl rfl
          · cases leftNumber
        simp [kindsDiffer, Outcome.outline?, ArithmeticFault.cause]
  · have kindNumbers : ¬ (left.kind.isNumber && right.kind.isNumber) = true := numbers
    rw [if_neg numbers, if_neg kindNumbers]
    simp [Outcome.outline?, ArithmeticFault.cause]

end Applied

end Operator

namespace Value

/-- The kind of a number with its sign turned, or the fault of what is no number. -/
def negateKind (kind : Kind) : Except ArithmeticFault Kind :=
  if kind.isNumber then .ok kind else .error (.notNumber kind)

/-- The kind of the other truth value, or the fault of what is no truth value. -/
def notKind (kind : Kind) : Except ArithmeticFault Kind :=
  if kind = .bool then .ok .bool else .error (.notBoolean kind)

/-- The kind of an operand tells how its negation ends. -/
theorem negate_tells
    (operand : Value) :
    Tells (Outcome.ofExcept operand.negate).outline? (negateKind operand.kind) := by
  cases operand <;>
    simp [negate, negateKind, Outcome.ofExcept, Outcome.outline?, ArithmeticFault.cause, kind,
      Kind.isNumber]

/-- The kind of an operand tells how its inversion ends. -/
theorem not_tells
    (operand : Value) :
    Tells (Outcome.ofExcept operand.not).outline? (notKind operand.kind) := by
  cases operand <;>
    simp [not, notKind, Outcome.ofExcept, Outcome.outline?, ArithmeticFault.cause, kind]

end Value

end Reckon
