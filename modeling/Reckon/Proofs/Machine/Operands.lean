import Reckon.Proofs.Machine.Invocation
import Reckon.Proofs.Value.Results

namespace Reckon

/-!
# Operands of code

Code whose constants and arguments are truth values and numbers computes with nothing else.  The
one handle that lies on the stack while it runs is its own, below its operands.
-/

/-- The operands are truth values and numbers. -/
def Activation.OnData (activation : Activation) : Prop :=
  ∀ operand ∈ activation.operands, operand.IsData

/-- The step goes on with truth values and numbers, or returns one. -/
def Turn.OnData : Turn → Prop
  | .next after => after.OnData
  | .returned value => value.IsData
  | .failed _ _ | .aborted _ => True

/-- The constants are truth values and numbers. -/
def Routine.OnData (routine : Routine) : Prop :=
  ∀ constant ∈ routine.chunk.constants, constant.IsData

namespace Activation.OnData

variable {activation : Activation}

theorem skip
    (onData : activation.OnData) :
    activation.skip.OnData :=
  onData

theorem withOperands
    {operands : List Value}
    (onData : ∀ operand ∈ operands, operand.IsData) :
    (activation.withOperands operands).OnData :=
  onData

/-- An operation on two operands leaves data. -/
theorem binary
    (onData : activation.OnData)
    (operator : Operator) :
    (activation.binary operator).OnData := by
  unfold Activation.binary
  split
  next right left rest shape =>
    split
    next value applied =>
      refine withOperands ?_
      intro operand member
      rcases List.mem_cons.mp member with rfl | inRest
      · exact .apply applied
      · exact onData operand (by simp [shape, inRest])
    next => exact True.intro
    next => exact True.intro
  next => exact True.intro

/-- An operation on one operand leaves data, if its results are data. -/
theorem unary
    (onData : activation.OnData)
    {function : Value → Except ArithmeticFault Value}
    (results : ∀ operand value, function operand = .ok value → value.IsData) :
    (activation.unary function).OnData := by
  unfold Activation.unary
  split
  next operand rest shape =>
    split
    next value applied =>
      refine withOperands ?_
      intro other member
      rcases List.mem_cons.mp member with rfl | inRest
      · exact results operand other applied
      · exact onData other (by simp [shape, inRest])
    next => exact True.intro
  next => exact True.intro

theorem discard
    (onData : activation.OnData) :
    activation.discard.OnData := by
  unfold Activation.discard
  split
  next operand rest shape =>
    exact withOperands fun other inRest => onData other (by simp [shape, inRest])
  next => exact True.intro

theorem assertTop
    (onData : activation.OnData) :
    activation.assertTop.OnData := by
  unfold Activation.assertTop
  split
  next rest shape =>
    exact withOperands fun other inRest => onData other (by simp [shape, inRest])
  all_goals exact True.intro

theorem returnTop
    (onData : activation.OnData) :
    activation.returnTop.OnData := by
  unfold Activation.returnTop
  split
  next value rest shape => exact onData value (by simp [shape])
  next => exact True.intro

end Activation.OnData

namespace Routine.OnData

variable
  {routine : Routine}
  {activation : Activation}

theorem push
    (operands : activation.OnData)
    {value : Value}
    (isData : value.IsData) :
    (routine.push activation value).OnData := by
  unfold Routine.push
  split
  · exact True.intro
  · intro operand member
    rcases List.mem_cons.mp member with rfl | inRest
    · exact isData
    · exact operands operand inRest

/-- Loading a constant that is data leaves data. -/
theorem load
    (constants : routine.OnData)
    (operands : activation.OnData) :
    (routine.load activation).OnData := by
  unfold Routine.load
  split
  next => exact True.intro
  next =>
    split
    next => exact True.intro
    next =>
      split
      next => exact True.intro
      next value present =>
        exact push operands.skip (constants value (List.mem_of_getElem? present))

/-- Every instruction leaves data, if the constants are data. -/
theorem execute
    (constants : routine.OnData)
    (operands : activation.OnData)
    (opcode : Opcode) :
    (routine.execute activation opcode).OnData := by
  unfold Routine.execute
  split
  next operator _ => exact operands.binary operator
  next =>
    split
    · exact constants.load operands
    · exact push operands (.bool true)
    · exact push operands (.bool false)
    · exact operands.unary fun _ _ => .not
    · exact operands.unary fun _ _ => .negate
    · exact operands.discard
    · exact operands.returnTop
    · exact operands.assertTop
    · exact operands

/-- One step on truth values and numbers ends with such. -/
theorem step
    (constants : routine.OnData)
    (operands : activation.OnData) :
    (routine.step activation).OnData := by
  unfold Routine.step
  split
  next => exact True.intro
  next =>
    split
    next =>
      split
      next opcode _ => exact constants.execute operands.skip opcode
      next => exact True.intro
    next => exact True.intro

/-- What a run on truth values and numbers returns is one of them. -/
theorem run
    (constants : routine.OnData)
    {activation : Activation}
    (operands : activation.OnData)
    {value : Value}
    (returned : routine.run activation = .done value) :
    value.IsData := by
  have stepOnData := constants.step operands
  rw [Routine.run_eq] at returned
  cases stepped : routine.step activation with
  | next after =>
      have onward := Routine.position_lt_of_step_eq_next stepped
      rw [stepped] at returned stepOnData
      exact constants.run stepOnData returned
  | returned result =>
      rw [stepped] at returned stepOnData
      cases returned
      exact stepOnData
  | failed fault after =>
      simp [stepped] at returned
  | aborted after =>
      simp [stepped] at returned
termination_by routine.chunk.code.length - activation.position

end Routine.OnData

/-- The stack holds truth values and numbers above the handle of the function that runs. -/
def Machine.RunsOnData (machine : Machine) (callee : Handle) : Prop :=
  ∃ operands,
    machine.stack = operands ++ [.object callee] ∧ ∀ operand ∈ operands, operand.IsData

namespace Machine

/-- In every state of a run on truth values and numbers, the stack holds such and one handle. -/
theorem runsOnData_of_mem_statesFor
    {host : Host}
    {routine : Routine}
    {handle : Handle}
    (held : host.callee = .object handle)
    (alone : host.below = [])
    (outermost : host.frames = [])
    (carries : host.Carries routine)
    (constants : routine.OnData)
    {activation : Activation}
    (fits : routine.Fits activation)
    (operands : activation.OnData)
    (steps : Nat) :
    ∀ state ∈ (host.place routine activation).statesFor steps,
      state.RunsOnData handle := by
  induction steps generalizing activation with
  | zero => exact fun state member => absurd member List.not_mem_nil
  | succ steps inductionHypothesis =>
      have here : (host.place routine activation).RunsOnData handle :=
        ⟨activation.operands, by simp [Host.place, Host.withStack, alone, held], operands⟩
      have stepOnData := constants.step operands
      have regular := @Routine.regular_step routine activation
      rw [statesFor, Host.step_place carries fits]
      cases stepped : routine.step activation with
      | next after =>
          rw [stepped] at stepOnData regular
          intro state member
          rcases List.mem_cons.mp member with rfl | later
          · exact here
          · exact inductionHypothesis (regular.fits fits) stepOnData state later
      | returned value =>
          intro state member
          simp only [Host.turn, Host.land, outermost, List.mem_singleton] at member
          rwa [member]
      | failed fault after =>
          intro state member
          simp only [Host.turn, Host.land, List.mem_singleton] at member
          rwa [member]
      | aborted after =>
          intro state member
          simp only [Host.turn, Host.land, List.mem_singleton] at member
          rwa [member]

section Invocations

variable
  {machine : Machine}
  (atRest : machine.AtRest)
  {function : Function}
  {chunk : Chunk}
  (defined : function.chunk? = some chunk)
  (constants : ∀ constant ∈ chunk.constants, constant.IsData)
  {arguments : List Value}
  (operands : ∀ argument ∈ arguments, argument.IsData)

include atRest defined constants operands

/-- No state of an invocation has a handle on the stack but that of the function itself. -/
theorem AtRest.runsOnData_of_mem_invocationStates :
    ∀ state ∈ machine.invocationStates function arguments,
      state.RunsOnData (machine.hold function).1 := by
  unfold invocationStates
  cases entry : Routine.entryFault? machine.options function arguments.length with
  | some fault =>
      obtain ⟨stack, entered⟩ :=
        @enter_of_entryFault? (machine.hold function).2 _ _ arguments atRest.emptyStack
          atRest.noFrames (atRest.get?_hold function) fault entry
      simp [entered]
  | none =>
      have entered :=
        @enter_of_not_entryFault? (machine.hold function).2 _ _ _ arguments
          atRest.emptyStack atRest.noFrames (atRest.get?_hold function) defined entry
      simp only [entered, states]
      exact
        @runsOnData_of_mem_statesFor
          (.alone (machine.hold function).2 (machine.hold function).1)
          (.outermost machine.options defined) _ rfl rfl rfl ⟨rfl, rfl⟩ constants _
          (fits_of_entryFault? defined entry)
          (fun operand member => operands operand (List.mem_reverse.mp member))
          _

/-- What an invocation returns is data. -/
theorem AtRest.isData_of_invoke
    {value : Value}
    (returned : (machine.invoke (some function) arguments).1 = .done value) :
    value.IsData := by
  obtain ⟨stack, frames, invoked, _⟩ := atRest.invoke_eq defined arguments
  rw [invoked] at returned
  simp only [Routine.invoke] at returned
  split at returned
  next => cases returned
  next =>
    exact
      @Routine.OnData.run (.outermost machine.options defined) constants _
        (fun operand member => operands operand (List.mem_reverse.mp member)) value returned

end Invocations

end Machine

end Reckon
