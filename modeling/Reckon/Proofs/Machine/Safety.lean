import Reckon.Bytecode.Listing
import Reckon.Proofs.Machine.Invocation

namespace Reckon

/-!
# Safety of arbitrary code

Whatever its units, lines and constants are, code that is invoked on a machine at rest comes to a
value or to an error of a known cause, and leaves the machine as it was.  The one exception is a
power of the complex zero, where the real part of the exponent is not a number and the imaginary
part is infinite: it has neither a result nor an error, and the run is aborted.
-/

namespace Cause

/-- The causes for which code fails while it is entered or runs. -/
def ofRunning : List Cause :=
  [.typeMismatch, .divisionByZero, .unsupportedOperand, .assertion, .arity, .stackOverflow,
    .malformedBytecode]

/-- Running code fails for any cause but a value that cannot be called. -/
theorem mem_ofRunning_iff
    {cause : Cause} :
    cause ∈ ofRunning ↔ cause ≠ .notCallable := by
  cases cause <;> decide

end Cause

namespace Routine

/-- A run fails for the causes of running code. -/
theorem cause_of_run_eq_failed
    {routine : Routine}
    {activation : Activation}
    {error : RuntimeError}
    (failed : routine.run activation = .failed error) :
    error.fault.cause ∈ Cause.ofRunning := by
  have regular := @regular_step routine activation
  rw [run_eq] at failed
  cases stepped : routine.step activation with
  | next after =>
      have onward := position_lt_of_step_eq_next stepped
      rw [stepped] at failed
      exact cause_of_run_eq_failed failed
  | returned value =>
      simp [stepped] at failed
  | failed fault after =>
      rw [stepped] at failed regular
      cases failed
      exact Cause.mem_ofRunning_iff.mpr regular.1
  | aborted after =>
      simp [stepped] at failed
termination_by routine.chunk.code.length - activation.position

/-- Entering a function fails for the causes of running code. -/
theorem cause_of_entryFault?
    {options : MachineOptions}
    {function : Function}
    {count : Nat}
    {fault : Fault}
    (hasFault : entryFault? options function count = some fault) :
    fault.cause ∈ Cause.ofRunning := by
  rw [Cause.mem_ofRunning_iff]
  rcases eq_of_entryFault? hasFault with ⟨rfl, _⟩ | ⟨_, ⟨rfl, _⟩ | ⟨rfl, _⟩⟩ <;> nofun

/-- Invoking a function fails for the causes of running code. -/
theorem cause_of_invoke_eq_failed
    {options : MachineOptions}
    {function : Function}
    {chunk : Chunk}
    {defined : function.chunk? = some chunk}
    {arguments : List Value}
    {error : RuntimeError}
    (failed : invoke options defined arguments = .failed error) :
    error.fault.cause ∈ Cause.ofRunning := by
  unfold invoke at failed
  split at failed
  next fault hasFault =>
    cases failed
    exact cause_of_entryFault? hasFault
  next =>
    exact cause_of_run_eq_failed failed

end Routine

namespace Machine

/-- What an invocation leaves of a machine: all but the operands, the frames and vacant slots. -/
structure Keeps (before after : Machine) : Prop where
  options : after.options = before.options
  globals : after.globals = before.globals
  interned : after.interned = before.interned
  live : after.heap.liveCount = before.heap.liveCount
  size : after.heap.size = before.heap.size
  resolved : ∀ handle, after.heap.resolve? handle = before.heap.resolve? handle

/-- The instruction that a machine is about to execute can be listed. -/
def CanTrace (machine : Machine) : Prop :=
  ∀ frame ∈ machine.frames.head?,
    ∀ chunk ∈ frame.function.chunk?,
      ∀ unit, frame.opcodeAt chunk frame.position = .ok unit →
        chunk.instructionText frame.position ≠ .aborted

/-- An opcode that is there can be listed, even if its operands are not there. -/
theorem canTrace
    (machine : Machine) :
    machine.CanTrace := by
  intro frame _ chunk _ unit found
  unfold Frame.opcodeAt at found
  split at found
  next =>
    cases found
  next unit present =>
    simp only [Chunk.instructionText, Chunk.instructionAt, present]
    split
    · simp [Outcome.map]
    · split
      · simp [Outcome.map]
      · split <;> simp [Outcome.map]

/-- Holding a function and releasing it again keeps the machine. -/
theorem AtRest.keeps
    {machine : Machine}
    (atRest : machine.AtRest)
    (function : Function)
    (stack : List Value)
    (frames : List Frame) :
    machine.Keeps
      { machine with
        stack := stack
        frames := frames
        heap := (machine.hold function).2.heap.release (machine.hold function).1 } := by
  have wellFormed := atRest.reached.wellFormed (Nat.le_of_lt atRest.indexed)
  obtain ⟨resolved, live, size⟩ :=
    wellFormed.release_allocate (.function function) (atRest.indexed_allocate _)
  exact ⟨rfl, rfl, rfl, live, size, resolved⟩

/--
Any code is safe on a machine at rest but for undefined powers.  The invocation is aborted exactly
when it comes to one.  Otherwise it gives a value or an error of a known cause, and clears the
stack and the frames; and in every case the rest of the machine is kept, and every instruction
that is executed can be listed.
-/
theorem invoke_safe_unless_power_undefined
    {machine : Machine}
    (atRest : machine.AtRest)
    {function : Function}
    {chunk : Chunk}
    (defined : function.chunk? = some chunk)
    (arguments : List Value) :
    let ended := machine.invoke (some function) arguments
    (ended.1 = .aborted ↔
        ∃ state ∈ machine.invocationStates function arguments, state.AtUndefinedPower) ∧
      (ended.1 ≠ .aborted → ended.2.stack = [] ∧ ended.2.frames = []) ∧
        (∀ error, ended.1 = .failed error → error.fault.cause ∈ Cause.ofRunning) ∧
          machine.Keeps ended.2 ∧
            ∀ state ∈ machine.invocationStates function arguments, state.CanTrace := by
  obtain ⟨stack, frames, invoked, cleared⟩ := atRest.invoke_eq defined arguments
  simp only [invoked]
  refine ⟨atRest.invoke_eq_aborted_iff defined arguments, cleared, ?_, ?_, ?_⟩
  · exact fun error failed => Routine.cause_of_invoke_eq_failed failed
  · exact atRest.keeps function stack frames
  · exact fun state _ => state.canTrace

/-- Code that adds operands that it does not have. -/
def underflowing : Function :=
  { name := "f"
    arity := 0
    chunk? := some
      { code := [⟨.opcode, Opcode.add.byte⟩]
        lines := [7]
        constants := [] } }

/-- A machine at rest whose heap holds one object. -/
def holdingNative : Machine :=
  { new .standard with heap := (Heap.empty.allocate (.native "host")).2 }

theorem atRest_holdingNative : holdingNative.AtRest where
  emptyStack := rfl
  noFrames := rfl
  reached := .allocate .empty _
  indexed := by decide

/-- An operand that is not there is an error, and the function itself is no operand. -/
theorem invoke_safe_underflow :
    let ended := holdingNative.invoke (some underflowing) []
    holdingNative.AtRest ∧
      ended.1 =
          .failed { line := 7, function := "<fn f/0>", fault := .underflow } ∧
        ended.2.stack = [] ∧ ended.2.frames = [] ∧ holdingNative.Keeps ended.2 := by
  obtain ⟨aborts, cleared, _, keeps, _⟩ :=
    @invoke_safe_unless_power_undefined _ atRest_holdingNative underflowing _ rfl []
  have failed :
      (holdingNative.invoke (some underflowing) []).1 =
        .failed { line := 7, function := "<fn f/0>", fault := .underflow } :=
    rfl
  obtain ⟨emptyStack, noFrames⟩ := cleared (by simp [failed])
  exact ⟨atRest_holdingNative, failed, emptyStack, noFrames, keeps⟩

/-- Code that takes a power of the complex zero which is undefined. -/
def undefinedPower : Function :=
  { name := "f"
    arity := 0
    chunk? := some
      { code :=
          [⟨.opcode, Opcode.constant.byte⟩, ⟨.constantIndex, 0⟩,
            ⟨.opcode, Opcode.constant.byte⟩, ⟨.constantIndex, 1⟩,
            ⟨.opcode, Opcode.power.byte⟩, ⟨.opcode, Opcode.return.byte⟩]
        lines := []
        constants :=
          [.complex ⟨0, 0⟩, .complex ⟨Binary64.nan, Binary64.infinity false⟩] } }

/-- An undefined power aborts the run, and the function stays on the stack with its frame. -/
theorem invoke_undefinedPower :
    let ended := (new .standard).invoke (some undefinedPower) []
    ended.1 = .aborted ∧ ended.2.stack.length = 1 ∧ ended.2.frames.length = 1 :=
  ⟨rfl, rfl, rfl⟩

end Machine

end Reckon
