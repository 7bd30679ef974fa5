import Reckon.Value.Operator

namespace Reckon

/-!
# What operators give

The result of an operator is a truth value or a number, whatever the operands are.  No operator
makes a handle of a heap object.
-/

/-- The kinds of truth values and numbers. -/
def Kind.ofData : List Kind :=
  [.bool, .integer, .float, .complex]

/-- The value is a truth value or a number. -/
def Value.IsData (value : Value) : Prop :=
  value.kind ∈ Kind.ofData

instance (value : Value) : Decidable value.IsData :=
  inferInstanceAs (Decidable (_ ∈ _))

namespace Value.IsData

@[simp] theorem bool
    (truth : Bool) :
    (Value.bool truth).IsData := by
  simp [IsData, kind, Kind.ofData]

@[simp] theorem integer
    (number : Int32) :
    (Value.integer number).IsData := by
  simp [IsData, kind, Kind.ofData]

@[simp] theorem float
    (number : Float) :
    (Value.float number).IsData := by
  simp [IsData, kind, Kind.ofData]

@[simp] theorem complex
    (number : Complex) :
    (Value.complex number).IsData := by
  simp [IsData, kind, Kind.ofData]

/-- Data is no object. -/
theorem ne_object
    {value : Value}
    (isData : value.IsData)
    (handle : Handle) :
    value ≠ .object handle := by
  rintro rfl
  simp [IsData, kind, Kind.ofData] at isData

theorem negate
    {operand value : Value}
    (negated : operand.negate = .ok value) :
    value.IsData := by
  cases operand <;> cases negated <;> simp

theorem not
    {operand value : Value}
    (inverted : operand.not = .ok value) :
    value.IsData := by
  cases operand <;> cases inverted
  exact bool _

section Operators

variable
  {operator : Operator}
  {value : Value}

theorem applyInteger
    {left right : Int32}
    (applied : operator.applyInteger left right = .done value) :
    value.IsData := by
  unfold Operator.applyInteger at applied
  repeat' split at applied
  all_goals
    cases applied
    all_goals simp

theorem applyFloat
    {left right : Float}
    (applied : operator.applyFloat left right = .done value) :
    value.IsData := by
  unfold Operator.applyFloat at applied
  split at applied
  all_goals
    cases applied
    all_goals simp

theorem applyComplex
    {left right : Complex}
    (applied : operator.applyComplex left right = .done value) :
    value.IsData := by
  unfold Operator.applyComplex at applied
  split at applied
  all_goals
    cases applied
    all_goals simp

theorem applyPower
    {left right : Value}
    (applied : Operator.applyPower left right = .done value) :
    value.IsData := by
  unfold Operator.applyPower at applied
  repeat' split at applied
  all_goals
    cases applied
    all_goals simp

/-- Every operation gives data. -/
theorem apply
    {left right : Value}
    (applied : operator.apply left right = .done value) :
    value.IsData := by
  unfold Operator.apply at applied
  split at applied
  · split at applied
    · exact applyPower applied
    · split at applied
      · exact applyInteger applied
      · exact applyFloat applied
      · exact applyComplex applied
      · cases applied
  · cases applied

end Operators

end Value.IsData

end Reckon
