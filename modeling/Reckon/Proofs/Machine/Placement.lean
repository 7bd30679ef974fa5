import Reckon.Proofs.Machine.Activation

namespace Reckon

/-!
# Activations on a machine

A machine that runs a function keeps its operands on top of the function itself, above whatever
else lies on the stack.  Each action of the machine does to the operands what the activation alone
says, so a step of the machine is a step of the activation, and so is a whole run.
-/

/-- The frame of an activation. -/
def Routine.frame (routine : Routine) (activation : Activation) : Frame :=
  { function := routine.function
    position := activation.position
    slotBase := Int64.ofNat routine.base }

/-- What is around a function that runs: a machine, the callee, and what lies below. -/
structure Host where
  machine : Machine
  callee : Value
  below : List Value
  frames : List Frame

namespace Host

variable
  (host : Host)
  (routine : Routine)
  (activation : Activation)

/-- The host with other operands and frames, and all else as it was. -/
def withStack (stack : List Value) (frames : List Frame) : Machine :=
  { host.machine with stack := stack, frames := frames }

/-- The machine while it runs a function. -/
def place : Machine :=
  host.withStack (activation.operands ++ host.callee :: host.below)
    (routine.frame activation :: host.frames)

/-- The limits that a function is under are those of its host. -/
structure Carries : Prop where
  limited : routine.limit = host.machine.options.stackSize
  based : routine.base = host.below.length

/-- What an instruction of the machine gives, by the step of the activation alone. -/
def land : Turn → Outcome Fault (Option Value) × Machine
  | .next after => (.done none, host.place routine after)
  | .returned value =>
      match host.frames with
      | [] => (.done (some value), host.withStack host.below [])
      | _ :: _ => (.done none, host.withStack (value :: host.below) host.frames)
  | .failed fault after => (.failed fault, host.place routine after)
  | .aborted after => (.aborted, host.place routine after)

/-- A step of the machine, by the step of the activation alone. -/
def turn (turn : Turn) : Step :=
  match host.land routine turn with
  | (.done (some value), after) => .returned value after
  | (.done none, after) => .next after
  | (.failed fault, after) => .failed (routine.errorAt activation fault) after
  | (.aborted, after) => .aborted after

section Actions

variable
  {host : Host}
  {routine : Routine}

/-- The operands, the callee and what lies below make up the stack. -/
theorem depth_place :
    (host.place routine activation).depth =
      activation.operands.length + (host.below.length + 1) := by
  simp [place, withStack, Machine.depth]

/-- The innermost frame owns the operands of the activation. -/
theorem available_place
    (carries : host.Carries routine) :
    Action.available (host.place routine activation) =
      Int64.ofNat activation.operands.length := by
  have counted :
      Action.available (host.place routine activation) =
        Int64.ofNat (host.place routine activation).depth -
          Int64.ofNat (host.below.length + 1) := by
    rw [Int64.ofNat_add, ← carries.based]
    rfl
  rw [counted, depth_place, ← Int64.ofNat_sub _ _ (Nat.le_add_left ..), Nat.add_sub_cancel]

/-- Operands that fit are fewer than 64 bits can count. -/
theorem length_lt_of_fits
    {activation : Activation}
    (fits : routine.Fits activation) :
    activation.operands.length + (routine.base + 1) < 2 ^ 63 := by
  have bounded := routine.limit.toInt_lt
  unfold Routine.Fits at fits
  omega

/-- The machine counts the operands of the activation. -/
theorem require_place
    {activation : Activation}
    (carries : host.Carries routine)
    (fits : routine.Fits activation)
    {count : Nat}
    (small : count < 2 ^ 63) :
    Action.require (Int64.ofNat count) (host.place routine activation) =
      (if activation.operands.length < count then .failed .underflow else .done (),
        host.place routine activation) := by
  have bounded := length_lt_of_fits fits
  have less_iff :
      Int64.ofNat activation.operands.length < Int64.ofNat count ↔
        activation.operands.length < count :=
    Int64.ofNat_lt_iff_lt (by omega) small
  simp only [Action.require, available_place activation carries, less_iff]
  split <;> rfl

theorem requireOne_place
    {activation : Activation}
    (carries : host.Carries routine)
    (fits : routine.Fits activation) :
    Action.require 1 (host.place routine activation) =
      (if activation.operands.length < 1 then .failed .underflow else .done (),
        host.place routine activation) :=
  @require_place host routine activation carries fits 1 (by decide)

theorem requireTwo_place
    {activation : Activation}
    (carries : host.Carries routine)
    (fits : routine.Fits activation) :
    Action.require 2 (host.place routine activation) =
      (if activation.operands.length < 2 then .failed .underflow else .done (),
        host.place routine activation) :=
  @require_place host routine activation carries fits 2 (by decide)

/-- Pushing onto the machine pushes onto the activation. -/
theorem push_place
    (carries : host.Carries routine)
    (position : Nat)
    (operands : List Value)
    (value : Value) :
    Action.push value (host.place routine ⟨position, operands⟩) =
      if routine.IsFull ⟨position, operands⟩ then
        (.failed (.stackFull routine.limit), host.place routine ⟨position, operands⟩)
      else
        (.done (), host.place routine ⟨position, value :: operands⟩) := by
  have full_iff :
      (host.place routine ⟨position, operands⟩).options.stackSize.toInt ≤
          (host.place routine ⟨position, operands⟩).depth ↔
        routine.IsFull ⟨position, operands⟩ := by
    rw [depth_place, Routine.IsFull, carries.limited, carries.based]
    simp only [place, withStack]
    omega
  simp only [Action.push, full_iff]
  split
  · rw [carries.limited]
    rfl
  · rfl

/-- There is room for an operand in place of those that were taken. -/
theorem push_place_of_fits
    (carries : host.Carries routine)
    {position : Nat}
    {taken : Value}
    {operands : List Value}
    (fits : routine.Fits ⟨position, taken :: operands⟩)
    {rest : List Value}
    (noMore : rest.length ≤ operands.length)
    (value : Value) :
    Action.push value (host.place routine ⟨position, rest⟩) =
      (.done (), host.place routine ⟨position, value :: rest⟩) := by
  rw [push_place carries, if_neg]
  simp only [Routine.Fits, List.length_cons] at fits
  simp only [Routine.IsFull]
  omega

theorem pop_place
    (position : Nat)
    (value : Value)
    (rest : List Value) :
    Action.pop (host.place routine ⟨position, value :: rest⟩) =
      (.done value, host.place routine ⟨position, rest⟩) :=
  rfl

theorem skip_place
    (activation : Activation) :
    Action.skip 1 (host.place routine activation) =
      (.done (), host.place routine activation.skip) :=
  rfl

theorem innerPush_place
    (carries : host.Carries routine)
    (activation : Activation)
    (value : Value) :
    Action.inner (Action.push value) (host.place routine activation) =
      host.land routine (routine.push activation value) := by
  obtain ⟨position, operands⟩ := activation
  have pushed := push_place carries position operands value
  simp only [Action.inner, bind, Action.next, pushed, Routine.push]
  by_cases full : routine.IsFull ⟨position, operands⟩
  · simp only [full, ↓reduceIte]
    rfl
  · simp only [full, ↓reduceIte]
    rfl

theorem constant_place
    (carries : host.Carries routine)
    (activation : Activation) :
    Action.inner (Action.constant routine.chunk routine.chunk.code[activation.position]?)
        (host.place routine activation) =
      host.land routine (routine.load activation) := by
  unfold Action.constant Routine.load
  cases routine.chunk.code[activation.position]? with
  | none =>
      rfl
  | some index =>
      by_cases isIndex : index.kind = .constantIndex
      · simp only [isIndex, ne_eq, not_true_eq_false, ↓reduceIte]
        cases routine.chunk.constants[index.byte.toNat]? with
        | none =>
            rfl
        | some value =>
            exact innerPush_place carries activation.skip value
      · simp only [isIndex, ne_eq, not_false_eq_true, ↓reduceIte]
        rfl

/-- Binary operators work on the operands of the activation. -/
theorem binary_place
    (carries : host.Carries routine)
    {activation : Activation}
    (fits : routine.Fits activation)
    (operator : Operator) :
    Action.inner (Action.binary operator) (host.place routine activation) =
      host.land routine (activation.binary operator) := by
  have required := requireTwo_place carries fits
  obtain ⟨position, operands⟩ := activation
  match operands with
  | [] | [_] =>
      simp only [Action.inner, Action.binary, bind, Action.next, required]
      rfl
  | right :: left :: rest =>
      have pushed := @push_place_of_fits host routine carries position _ _ fits rest (by simp)
      rw [if_neg (by simp)] at required
      simp only [Action.inner, Action.binary, bind, Action.next, required, pop_place,
        Action.arithmetic, Activation.binary]
      cases operator.apply left right with
      | done value =>
          simp only [Outcome.mapFailure, pushed]
          rfl
      | failed fault =>
          rfl
      | aborted =>
          rfl

theorem unary_place
    (carries : host.Carries routine)
    {activation : Activation}
    (fits : routine.Fits activation)
    (function : Value → Except ArithmeticFault Value) :
    Action.inner (Action.unary function) (host.place routine activation) =
      host.land routine (activation.unary function) := by
  have required := requireOne_place carries fits
  obtain ⟨position, operands⟩ := activation
  match operands with
  | [] =>
      simp only [Action.inner, Action.unary, bind, Action.next, required]
      rfl
  | operand :: rest =>
      have pushed :=
        @push_place_of_fits host routine carries position _ _ fits rest (Nat.le_refl _)
      rw [if_neg (by simp)] at required
      simp only [Action.inner, Action.unary, bind, Action.next, required, pop_place,
        Action.arithmetic, Activation.unary]
      cases function operand with
      | ok value =>
          simp only [Outcome.mapFailure, Outcome.ofExcept, pushed]
          rfl
      | error fault =>
          rfl

theorem discard_place
    (carries : host.Carries routine)
    {activation : Activation}
    (fits : routine.Fits activation) :
    Action.inner Action.discard (host.place routine activation) =
      host.land routine activation.discard := by
  have required := requireOne_place carries fits
  obtain ⟨position, operands⟩ := activation
  cases operands with
  | nil =>
      simp only [Action.inner, Action.discard, bind, Action.next, required]
      rfl
  | cons operand rest =>
      rw [if_neg (by simp)] at required
      simp only [Action.inner, Action.discard, bind, Action.next, required]
      rfl

theorem assertTop_place
    (carries : host.Carries routine)
    {activation : Activation}
    (fits : routine.Fits activation) :
    Action.inner Action.assertTop (host.place routine activation) =
      host.land routine activation.assertTop := by
  have required := requireOne_place carries fits
  obtain ⟨position, operands⟩ := activation
  cases operands with
  | nil =>
      simp only [Action.inner, Action.assertTop, bind, Action.next, required]
      rfl
  | cons condition rest =>
      rw [if_neg (by simp)] at required
      simp only [Action.inner, Action.assertTop, bind, Action.next, required, pop_place]
      cases condition with
      | bool truth =>
          cases truth <;> rfl
      | _ =>
          rfl

/-- Ending the frame leaves what lay below the function. -/
theorem leave_place
    (carries : host.Carries routine)
    {activation : Activation}
    (fits : routine.Fits activation) :
    Action.leave (host.place routine activation) =
      (.done (), host.withStack host.below host.frames) := by
  have bounded := length_lt_of_fits fits
  have placed : ¬ Int64.ofNat routine.base < 0 :=
    Int64.not_lt.mpr (Int64.zero_le_ofNat_of_lt (by omega))
  have counted :
      (host.place routine activation).depth - (Int64.ofNat routine.base).toNatClampNeg =
        activation.operands.length + 1 := by
    rw [Int64.toNatClampNeg_ofNat_of_lt (by omega), depth_place, carries.based]
    omega
  have dropped :
      (host.place routine activation).stack.drop (activation.operands.length + 1) =
        host.below := by
    simp [place, withStack, List.drop_append]
  simp only [Action.leave, place, withStack, Routine.frame, placed, ↓reduceIte]
    at counted dropped ⊢
  rw [counted, dropped]

/-- There is room for a value where the function lay. -/
theorem push_withStack
    (carries : host.Carries routine)
    {activation : Activation}
    (fits : routine.Fits activation)
    (value : Value) :
    Action.push value (host.withStack host.below host.frames) =
      (.done (), host.withStack (value :: host.below) host.frames) := by
  have room : ¬ host.machine.options.stackSize.toInt ≤ host.below.length := by
    simp only [Routine.Fits, carries.limited, carries.based] at fits
    omega
  simp only [Action.push, withStack, Machine.depth, room, ↓reduceIte]

/-- A function that returns leaves its value in place of itself. -/
theorem returnTop_place
    (carries : host.Carries routine)
    {activation : Activation}
    (fits : routine.Fits activation) :
    Action.returnTop (host.place routine activation) =
      host.land routine activation.returnTop := by
  have required := requireOne_place carries fits
  obtain ⟨position, operands⟩ := activation
  cases operands with
  | nil =>
      simp only [Action.returnTop, bind, Action.next, required]
      rfl
  | cons value rest =>
      have restFits : routine.Fits ⟨position, rest⟩ :=
        (@Routine.Follows.withOperands routine ⟨position, value :: rest⟩ rest (by simp)).fits fits
      have left := leave_place carries restFits
      rw [if_neg (by simp)] at required
      simp only [Action.returnTop, bind, Action.next, required, pop_place, left]
      have pushed := push_withStack carries restFits value
      simp only [withStack] at pushed
      cases framesShape : host.frames with
      | nil =>
          simp [withStack, framesShape, land, Activation.returnTop]
      | cons frame frames =>
          rw [framesShape] at pushed
          simp [withStack, framesShape, land, Activation.returnTop, pushed, Action.result]

/-- Instructions of the machine work on the activation. -/
theorem execute_place
    (carries : host.Carries routine)
    {activation : Activation}
    (fits : routine.Fits activation)
    (opcode : Opcode) :
    Action.execute routine.chunk activation.position opcode
        (host.place routine activation.skip) =
      host.land routine (routine.execute activation.skip opcode) := by
  have skippedFits : routine.Fits activation.skip := fits
  have push := @innerPush_place host routine carries activation.skip
  have binary := @binary_place host routine carries activation.skip skippedFits
  have unary := @unary_place host routine carries activation.skip skippedFits
  cases opcode with
  | constant =>
      exact constant_place carries activation.skip
  | true | false =>
      exact push _
  | add | subtract | multiply | divide | quotient | power | equal | notEqual | greater
  | greaterEqual | less | lessEqual =>
      exact binary _
  | not | negate =>
      exact unary _
  | noop =>
      rfl
  | pop =>
      exact discard_place carries skippedFits
  | «return» =>
      exact returnTop_place carries skippedFits
  | assert =>
      exact assertTop_place carries skippedFits

/-- Dispatching a unit of code is the step of the activation past its byte. -/
theorem dispatch_place
    (carries : host.Carries routine)
    {activation : Activation}
    (fits : routine.Fits activation)
    (unit : CodeUnit) :
    (host.place routine activation).dispatch (routine.frame activation) routine.chunk unit =
      host.turn routine activation
        (match Opcode.ofByte? unit.byte with
          | some opcode => routine.execute activation.skip opcode
          | none => .failed (.unknownOpcode unit.byte) activation.skip) := by
  unfold Machine.dispatch
  cases Opcode.ofByte? unit.byte with
  | none =>
      rfl
  | some opcode =>
      have executed := execute_place carries fits opcode
      simp only [bind, Action.next, skip_place, Routine.frame, executed]
      rfl

/-- A step of the machine is a step of the activation. -/
theorem step_place
    (carries : host.Carries routine)
    {activation : Activation}
    (fits : routine.Fits activation) :
    (host.place routine activation).step =
      host.turn routine activation (routine.step activation) := by
  have defined : (routine.frame activation).function.chunk? = some routine.chunk :=
    routine.defined
  have here : (routine.frame activation).position = activation.position :=
    rfl
  simp only [Machine.step, place, withStack, defined, Frame.opcodeAt, here, Routine.step]
  cases routine.chunk.code[activation.position]? with
  | none =>
      rfl
  | some unit =>
      by_cases isOpcode : unit.kind = .opcode
      · simp only [isOpcode, ↓reduceIte]
        exact dispatch_place carries fits unit
      · simp only [isOpcode, ↓reduceIte]
        rfl

end Actions

end Host

end Reckon
