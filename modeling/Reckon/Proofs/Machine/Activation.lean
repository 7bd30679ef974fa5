import Reckon.Machine.Run
import Reckon.Proofs.Value.Powers

namespace Reckon

/-!
# Activations

A function that runs sees its own operands only.  `Routine.step` says what one instruction does to
them, and `Routine.run` what the whole run gives, without a machine around.  Every step reads a
unit, so a run comes to its end.
-/

/-- A function that runs: its chunk, the size of the stack, and how many operands lie below it. -/
structure Routine where
  function : Function
  chunk : Chunk
  defined : function.chunk? = some chunk
  limit : Int64
  base : Nat

/-- How far a function has come: the next unit, and its own operands, the top one first. -/
structure Activation where
  position : Nat
  operands : List Value

/-- How one step of a function ends. -/
inductive Turn where
  | next (after : Activation)
  | returned (value : Value)
  | failed (fault : Fault) (after : Activation)
  | aborted (after : Activation)

namespace Turn

/--
What is expected of a step: wherever it leaves the function, it leaves it with a property; its
fault is not that something cannot be called; and it is aborted under a condition only.
-/
def Regular (kept : Activation → Prop) (mayAbort : Prop) : Turn → Prop
  | .next after => kept after
  | .returned _ => True
  | .failed fault after => fault.cause ≠ .notCallable ∧ kept after
  | .aborted after => mayAbort ∧ kept after

/-- A turn is regular for any weaker condition and any more excuses. -/
theorem Regular.weaken
    {kept wanted : Activation → Prop}
    {mayAbort mayStop : Prop}
    {turn : Turn}
    (regular : turn.Regular kept mayAbort)
    (implied : ∀ after, kept after → wanted after)
    (excused : mayAbort → mayStop) :
    turn.Regular wanted mayStop := by
  cases turn with
  | next after =>
      exact implied after regular
  | returned value =>
      exact True.intro
  | failed fault after =>
      exact ⟨regular.1, implied after regular.2⟩
  | aborted after =>
      exact ⟨excused regular.1, implied after regular.2⟩

end Turn

namespace Activation

/-- Move on by one unit. -/
def skip (activation : Activation) : Activation :=
  { activation with position := activation.position + 1 }

/-- The activation with other operands. -/
def withOperands (activation : Activation) (operands : List Value) : Activation :=
  { activation with operands := operands }

/-- Apply a binary operator to the two top operands, the right one on top. -/
def binary (activation : Activation) (operator : Operator) : Turn :=
  match activation.operands with
  | right :: left :: rest =>
      match operator.apply left right with
      | .done value => .next (activation.withOperands (value :: rest))
      | .failed fault => .failed (.arithmetic fault) (activation.withOperands rest)
      | .aborted => .aborted (activation.withOperands rest)
  | _ => .failed .underflow activation

/-- Apply a function to the top operand. -/
def unary
    (activation : Activation)
    (function : Value → Except ArithmeticFault Value) :
    Turn :=
  match activation.operands with
  | operand :: rest =>
      match function operand with
      | .ok value => .next (activation.withOperands (value :: rest))
      | .error fault => .failed (.arithmetic fault) (activation.withOperands rest)
  | [] => .failed .underflow activation

/-- Drop the top operand. -/
def discard (activation : Activation) : Turn :=
  match activation.operands with
  | _ :: rest => .next (activation.withOperands rest)
  | [] => .failed .underflow activation

/-- Require the top operand to be true. -/
def assertTop (activation : Activation) : Turn :=
  match activation.operands with
  | .bool true :: rest => .next (activation.withOperands rest)
  | .bool false :: rest => .failed .assertion (activation.withOperands rest)
  | other :: rest => .failed (.assertedKind other.kind) (activation.withOperands rest)
  | [] => .failed .underflow activation

/-- Return the top operand. -/
def returnTop (activation : Activation) : Turn :=
  match activation.operands with
  | value :: _ => .returned value
  | [] => .failed .underflow activation

/-- The two top operands have no power. -/
def HasUndefinedPower (activation : Activation) : Prop :=
  ∃ right left rest,
    activation.operands = right :: left :: rest ∧ Power.Undefined left right

end Activation

namespace Opcode

/-- Only one opcode raises to a power. -/
theorem eq_power_of_operator?
    {opcode : Opcode}
    (shape : opcode.operator? = some .power) :
    opcode = .power := by
  cases opcode <;> simp [operator?] at shape ⊢

/-- An opcode is read off its own number only. -/
theorem byte_of_ofByte?
    {byte : UInt8}
    {opcode : Opcode}
    (shape : ofByte? byte = some opcode) :
    opcode.byte = byte := by
  unfold ofByte? at shape
  split at shape <;> cases shape
  all_goals exact UInt8.toNat_inj.mp (Eq.symm ‹_›)

end Opcode

namespace Routine

variable
  (routine : Routine)
  (activation : Activation)

/-- There is no room for one more operand. -/
def IsFull : Prop :=
  routine.limit.toInt ≤ routine.base + 1 + activation.operands.length

instance : Decidable (routine.IsFull activation) :=
  inferInstanceAs (Decidable (_ ≤ _))

/-- Push an operand. -/
def push (value : Value) : Turn :=
  if routine.IsFull activation then
    .failed (.stackFull routine.limit) activation
  else
    .next (activation.withOperands (value :: activation.operands))

/-- Read a constant index and push the constant. -/
def load : Turn :=
  match routine.chunk.code[activation.position]? with
  | none => .failed .missingIndex activation
  | some index =>
      if index.kind ≠ .constantIndex then
        .failed .missingIndex activation
      else
        match routine.chunk.constants[index.byte.toNat]? with
        | none => .failed (.constantRange index.byte) activation.skip
        | some value => routine.push activation.skip value

/-- Execute an instruction whose opcode was read. -/
def execute (opcode : Opcode) : Turn :=
  match opcode.operator? with
  | some operator => activation.binary operator
  | none =>
      match opcode with
      | .constant => routine.load activation
      | .true => routine.push activation (.bool true)
      | .false => routine.push activation (.bool false)
      | .not => activation.unary Value.not
      | .negate => activation.unary Value.negate
      | .pop => activation.discard
      | .return => activation.returnTop
      | .assert => activation.assertTop
      | _ => .next activation

/-- Read and execute an instruction. -/
def step : Turn :=
  match routine.chunk.code[activation.position]? with
  | none => .failed (.pastEnd routine.function.text) activation
  | some unit =>
      if unit.kind = .opcode then
        match Opcode.ofByte? unit.byte with
        | some opcode => routine.execute activation.skip opcode
        | none => .failed (.unknownOpcode unit.byte) activation.skip
      else
        .failed (.expectedOpcode unit) activation

/-- A fault of the instruction that an activation is at. -/
def errorAt (fault : Fault) : RuntimeError :=
  { line := routine.chunk.lineAt activation.position
    function := routine.function.text
    fault := fault }

/-- The operands fit on the stack. -/
def Fits : Prop :=
  (routine.base + 1 + activation.operands.length : Int) ≤ routine.limit.toInt

/-- What no step goes against: units are read onward, and operands that fit still do. -/
structure Follows (before after : Activation) : Prop where
  onward : before.position ≤ after.position
  fits : routine.Fits before → routine.Fits after

namespace Follows

variable
  {routine : Routine}

theorem refl
    (activation : Activation) :
    routine.Follows activation activation :=
  ⟨Nat.le_refl _, id⟩

theorem trans
    {first second third : Activation}
    (start : routine.Follows first second)
    (rest : routine.Follows second third) :
    routine.Follows first third :=
  ⟨Nat.le_trans start.onward rest.onward, rest.fits ∘ start.fits⟩

theorem skip
    (activation : Activation) :
    routine.Follows activation activation.skip :=
  ⟨Nat.le_succ _, id⟩

/-- Operands that are not more than before follow. -/
theorem withOperands
    {activation : Activation}
    {operands : List Value}
    (noMore : operands.length ≤ activation.operands.length) :
    routine.Follows activation (activation.withOperands operands) where
  onward :=
    Nat.le_refl _
  fits := by
    intro fits
    simp only [Fits, Activation.withOperands] at fits ⊢
    omega

end Follows

section Steps

variable
  {routine : Routine}
  {activation : Activation}

/-- No failed operation on values is about calling. -/
theorem cause_arithmetic_ne_notCallable
    (fault : ArithmeticFault) :
    (Fault.arithmetic fault).cause ≠ .notCallable := by
  cases fault <;> simp [Fault.cause, ArithmeticFault.cause]

theorem regular_push
    (value : Value) :
    (routine.push activation value).Regular (routine.Follows activation) False := by
  unfold push
  split
  next full =>
    exact ⟨by simp [Fault.cause], .refl activation⟩
  next room =>
    refine ⟨Nat.le_refl _, fun _ => ?_⟩
    simp only [IsFull, Int.not_le] at room
    simp only [Fits, Activation.withOperands, List.length_cons]
    omega

theorem regular_load :
    (routine.load activation).Regular (routine.Follows activation) False := by
  unfold load
  split
  · exact ⟨by simp [Fault.cause], .refl activation⟩
  · split
    · exact ⟨by simp [Fault.cause], .refl activation⟩
    · split
      · exact ⟨by simp [Fault.cause], .skip activation⟩
      · exact (regular_push _).weaken
          (fun _ follows => (Follows.skip activation).trans follows) id

/-- A binary operator takes two operands and gives one. -/
theorem regular_binary
    (operator : Operator) :
    (activation.binary operator).Regular (routine.Follows activation)
      (operator = .power ∧ activation.HasUndefinedPower) := by
  unfold Activation.binary
  split
  next right left rest shape =>
    have taken : routine.Follows activation (activation.withOperands rest) :=
      .withOperands (by simp only [shape, List.length_cons]; omega)
    split
    next =>
      exact .withOperands (by simp [shape])
    next =>
      exact ⟨cause_arithmetic_ne_notCallable _, taken⟩
    next aborted =>
      obtain ⟨isPower, undefined⟩ := (Operator.apply_eq_aborted_iff ..).mp aborted
      exact ⟨⟨isPower, right, left, rest, shape, undefined⟩, taken⟩
  next =>
    exact ⟨by simp [Fault.cause], .refl activation⟩

theorem regular_unary
    (function : Value → Except ArithmeticFault Value) :
    (activation.unary function).Regular (routine.Follows activation) False := by
  unfold Activation.unary
  split
  next operand rest shape =>
    split
    · exact .withOperands (by simp [shape])
    · exact ⟨cause_arithmetic_ne_notCallable _, .withOperands (by simp [shape])⟩
  next =>
    exact ⟨by simp [Fault.cause], .refl activation⟩

theorem regular_discard :
    activation.discard.Regular (routine.Follows activation) False := by
  unfold Activation.discard
  split
  next operand rest shape =>
    exact .withOperands (by simp [shape])
  next =>
    exact ⟨by simp [Fault.cause], .refl activation⟩

theorem regular_assertTop :
    activation.assertTop.Regular (routine.Follows activation) False := by
  unfold Activation.assertTop
  split
  next rest shape =>
    exact .withOperands (by simp [shape])
  next rest shape =>
    exact ⟨by simp [Fault.cause], .withOperands (by simp [shape])⟩
  next other rest _ _ shape =>
    exact ⟨by simp [Fault.cause], .withOperands (by simp [shape])⟩
  next =>
    exact ⟨by simp [Fault.cause], .refl activation⟩

theorem regular_returnTop :
    activation.returnTop.Regular (routine.Follows activation) False := by
  unfold Activation.returnTop
  split
  · exact True.intro
  · exact ⟨by simp [Fault.cause], .refl activation⟩

/-- Instructions are regular, and only an undefined power is aborted. -/
theorem regular_execute
    (opcode : Opcode) :
    (routine.execute activation opcode).Regular (routine.Follows activation)
      (opcode = .power ∧ activation.HasUndefinedPower) := by
  unfold execute
  split
  next operator shape =>
    refine (regular_binary operator).weaken (fun _ => id) ?_
    rintro ⟨rfl, undefined⟩
    exact ⟨Opcode.eq_power_of_operator? shape, undefined⟩
  next =>
    have never : ∀ {wanted : Prop}, False → wanted := False.elim
    split
    · exact regular_load.weaken (fun _ => id) never
    · exact (regular_push _).weaken (fun _ => id) never
    · exact (regular_push _).weaken (fun _ => id) never
    · exact (regular_unary _).weaken (fun _ => id) never
    · exact (regular_unary _).weaken (fun _ => id) never
    · exact regular_discard.weaken (fun _ => id) never
    · exact regular_returnTop.weaken (fun _ => id) never
    · exact regular_assertTop.weaken (fun _ => id) never
    · exact .refl activation

/-- The next instruction is a power that is undefined. -/
def AtUndefinedPower (routine : Routine) (activation : Activation) : Prop :=
  routine.chunk.code[activation.position]? =
      some { kind := .opcode, byte := Opcode.power.byte } ∧
    activation.HasUndefinedPower

/-- Steps are regular, and only an undefined power is aborted. -/
theorem regular_step :
    (routine.step activation).Regular (routine.Follows activation)
      (routine.AtUndefinedPower activation) := by
  unfold step
  split
  next =>
    exact ⟨by simp [Fault.cause], .refl activation⟩
  next unit present =>
    split
    next isOpcode =>
      split
      next opcode shape =>
        refine (regular_execute opcode).weaken
          (fun _ follows => (Follows.skip activation).trans follows) ?_
        rintro ⟨rfl, undefined⟩
        refine ⟨?_, undefined⟩
        rw [present, Opcode.byte_of_ofByte? shape, ← isOpcode]
      next =>
        exact ⟨by simp [Fault.cause], .skip activation⟩
    next =>
      exact ⟨by simp [Fault.cause], .refl activation⟩

/-- A step is aborted exactly when it is an undefined power. -/
theorem step_eq_aborted_iff :
    (∃ after, routine.step activation = .aborted after) ↔
      routine.AtUndefinedPower activation := by
  constructor
  · rintro ⟨after, aborted⟩
    have regular := @regular_step routine activation
    rw [aborted] at regular
    exact regular.1
  · rintro ⟨present, right, left, rest, shape, undefined⟩
    have aborted : Operator.power.apply left right = .aborted :=
      (Operator.apply_eq_aborted_iff ..).mpr ⟨rfl, undefined⟩
    refine ⟨activation.skip.withOperands rest, ?_⟩
    simp [step, present, execute, Activation.binary, Activation.skip, shape, aborted,
      Opcode.ofByte?, Opcode.byte, Opcode.operator?]

/-- A step that does not end the function reads a unit of the code. -/
theorem position_lt_of_step_eq_next
    {after : Activation}
    (stepped : routine.step activation = .next after) :
    activation.position < routine.chunk.code.length ∧
      activation.position < after.position := by
  unfold step at stepped
  split at stepped
  next =>
    simp at stepped
  next unit present =>
    obtain ⟨inside, _⟩ := List.getElem?_eq_some_iff.mp present
    split at stepped
    · split at stepped
      next opcode _ =>
        have regular := @regular_execute routine activation.skip opcode
        rw [stepped] at regular
        exact ⟨inside, regular.onward⟩
      next =>
        simp at stepped
    · simp at stepped

end Steps

/-- Run a function on from an activation. -/
def run (routine : Routine) (activation : Activation) : Outcome RuntimeError Value :=
  match _stepped : routine.step activation with
  | .next after => routine.run after
  | .returned value => .done value
  | .failed fault _ => .failed (routine.errorAt activation fault)
  | .aborted _ => .aborted
termination_by routine.chunk.code.length - activation.position
decreasing_by
  have := position_lt_of_step_eq_next ‹_›
  omega

/-- A run is its first step and the run after it. -/
theorem run_eq
    (routine : Routine)
    (activation : Activation) :
    routine.run activation =
      match routine.step activation with
      | .next after => routine.run after
      | .returned value => .done value
      | .failed fault _ => .failed (routine.errorAt activation fault)
      | .aborted _ => .aborted := by
  rw [run]
  split <;> simp_all

end Routine

end Reckon
