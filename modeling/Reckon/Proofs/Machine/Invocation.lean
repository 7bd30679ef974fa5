import Reckon.Machine.Call
import Reckon.Proofs.Heap.Reachability
import Reckon.Proofs.Machine.Placement

namespace Reckon

/-!
# Invocations

Invoking a function on a machine at rest gives what `Routine.invoke` says, which depends on the
limits, the function and the arguments alone.  The machine is left with its globals and its
names, and no handle resolves to anything else than before.
-/

namespace Machine

/-- The machine is about to take a power that is undefined. -/
def AtUndefinedPower (machine : Machine) : Prop :=
  ∃ frame frames chunk right left rest,
    machine.frames = frame :: frames ∧
      frame.function.chunk? = some chunk ∧
        chunk.code[frame.position]? =
            some { kind := .opcode, byte := Opcode.power.byte } ∧
          machine.stack = right :: left :: rest ∧ Power.Undefined left right

end Machine

namespace Host

variable
  {host : Host}
  {routine : Routine}

/--
A handle is no part of a power.  With fewer than two operands, that of the function would have to
be a number.
-/
theorem atUndefinedPower_place_iff
    {handle : Handle}
    (held : host.callee = .object handle)
    {activation : Activation} :
    (host.place routine activation).AtUndefinedPower ↔
      routine.AtUndefinedPower activation := by
  constructor
  · rintro ⟨frame, frames, chunk, right, left, rest, framesShape, defined, present,
      stackShape, undefined⟩
    obtain ⟨rfl, rfl⟩ := List.cons.inj framesShape
    obtain rfl := Option.some.inj (routine.defined.symm.trans defined)
    refine ⟨present, ?_⟩
    have onStack :
        activation.operands ++ .object handle :: host.below = right :: left :: rest := by
      rw [← held]
      exact stackShape
    match operandsShape : activation.operands with
    | [] =>
        obtain ⟨_, _, _, _, isComplex, _⟩ := undefined
        simp [operandsShape, isComplex] at onStack
    | [_] =>
        obtain ⟨_, _, isNumber, _⟩ := undefined
        simp only [operandsShape, List.cons_append, List.nil_append, List.cons.injEq]
          at onStack
        simp [← onStack.2.1, Operator.complexPart?, Operator.realPart?] at isNumber
    | top :: second :: more =>
        simp only [operandsShape, List.cons_append, List.cons.injEq] at onStack
        obtain ⟨rfl, rfl, _⟩ := onStack
        exact ⟨top, second, more, operandsShape, undefined⟩
  · rintro ⟨present, right, left, rest, shape, undefined⟩
    exact ⟨routine.frame activation, host.frames, routine.chunk, right, left,
      rest ++ host.callee :: host.below, rfl, routine.defined, present,
      by simp [place, withStack, shape], undefined⟩

/--
With enough steps, a run of the machine is the run of the activation.  Each step has read a unit,
so those that are left are enough for the rest.
-/
theorem runFor_place
    (outermost : host.frames = [])
    (carries : host.Carries routine)
    {activation : Activation}
    (fits : routine.Fits activation)
    {steps : Nat}
    (enough : routine.chunk.code.length - activation.position < steps) :
    ∃ stack frames,
      (host.place routine activation).runFor steps =
          (routine.run activation, host.withStack stack frames) ∧
        (∀ value, routine.run activation = .done value →
          stack = host.below ∧ frames = []) := by
  induction steps generalizing activation with
  | zero =>
      omega
  | succ steps inductionHypothesis =>
      rw [Machine.runFor, step_place carries fits, Routine.run_eq]
      have regular := @Routine.regular_step routine activation
      cases stepped : routine.step activation with
      | next after =>
          rw [stepped] at regular
          have onward := Routine.position_lt_of_step_eq_next stepped
          exact inductionHypothesis (regular.fits fits) (by omega)
      | returned value =>
          refine ⟨host.below, [], ?_, fun _ _ => ⟨rfl, rfl⟩⟩
          simp only [turn, land, outermost]
      | failed fault after =>
          exact ⟨_, _, rfl, by simp⟩
      | aborted after =>
          exact ⟨_, _, rfl, by simp⟩

/-- A run is aborted exactly when one of its states is at an undefined power. -/
theorem run_eq_aborted_iff
    {handle : Handle}
    (held : host.callee = .object handle)
    (outermost : host.frames = [])
    (carries : host.Carries routine)
    {activation : Activation}
    (fits : routine.Fits activation)
    {steps : Nat}
    (enough : routine.chunk.code.length - activation.position < steps) :
    routine.run activation = .aborted ↔
      ∃ state ∈ (host.place routine activation).statesFor steps,
        state.AtUndefinedPower := by
  induction steps generalizing activation with
  | zero =>
      omega
  | succ steps inductionHypothesis =>
      have aborts := @Routine.step_eq_aborted_iff routine activation
      have regular := @Routine.regular_step routine activation
      rw [Machine.statesFor, step_place carries fits, Routine.run_eq]
      rw [← atUndefinedPower_place_iff held] at aborts
      cases stepped : routine.step activation with
      | next after =>
          rw [stepped] at regular aborts
          have onward := Routine.position_lt_of_step_eq_next stepped
          have continued :=
            @inductionHypothesis after (regular.fits fits) (by omega)
          have goesOn : ¬ (host.place routine activation).AtUndefinedPower := by
            simpa using aborts
          simp [turn, land, continued, goesOn]
      | returned value =>
          rw [stepped] at aborts
          simpa [turn, land, outermost] using aborts
      | failed fault after =>
          rw [stepped] at aborts
          simpa [turn, land] using aborts
      | aborted after =>
          rw [stepped] at aborts
          simpa [turn, land] using aborts

end Host

namespace Routine

/-- Why a call of a function with so many arguments does not begin, if it does not. -/
def entryFault?
    (options : MachineOptions)
    (function : Function)
    (count : Nat) :
    Option Fault :=
  if options.stackSize.toInt ≤ count then
    some (.stackFull options.stackSize)
  else if Int64.ofNat count ≠ function.arity then
    some (.arity function.text function.arity (Int64.ofNat count))
  else if options.maxFrames.toInt ≤ 0 then
    some (.callDepth options.maxFrames)
  else
    none

/-- A call that does not begin lacks room, has the wrong arguments, or lacks a frame. -/
theorem eq_of_entryFault?
    {options : MachineOptions}
    {function : Function}
    {count : Nat}
    {fault : Fault}
    (hasFault : entryFault? options function count = some fault) :
    fault = .stackFull options.stackSize ∧ options.stackSize.toInt ≤ count ∨
      ¬ options.stackSize.toInt ≤ count ∧
        (fault = .arity function.text function.arity (Int64.ofNat count) ∧
            Int64.ofNat count ≠ function.arity ∨
          fault = .callDepth options.maxFrames ∧
            Int64.ofNat count = function.arity ∧ options.maxFrames.toInt ≤ 0) := by
  unfold entryFault? at hasFault
  split at hasFault
  next full =>
    exact Or.inl ⟨(Option.some.inj hasFault).symm, full⟩
  next room =>
    refine Or.inr ⟨room, ?_⟩
    split at hasFault
    next differ =>
      exact Or.inl ⟨(Option.some.inj hasFault).symm, differ⟩
    next same =>
      split at hasFault
      next deep =>
        exact Or.inr ⟨(Option.some.inj hasFault).symm, Decidable.of_not_not same, deep⟩
      next =>
        cases hasFault

/-- A call begins when there is room, the arguments are as many as expected, and a frame is left. -/
theorem entryFault?_eq_none_iff
    {options : MachineOptions}
    {function : Function}
    {count : Nat} :
    entryFault? options function count = none ↔
      count < options.stackSize.toInt ∧
        Int64.ofNat count = function.arity ∧ 0 < options.maxFrames.toInt := by
  unfold entryFault?
  split
  next full =>
    simp only [reduceCtorEq, false_iff]
    omega
  next room =>
    split
    next differ =>
      simp [differ]
    next same =>
      split
      next deep =>
        simp only [reduceCtorEq, false_iff]
        omega
      next shallow =>
        simp only [true_iff]
        exact ⟨by omega, Decidable.of_not_not same, by omega⟩

/-- A function that runs with nothing below it. -/
def outermost
    (options : MachineOptions)
    {function : Function}
    {chunk : Chunk}
    (defined : function.chunk? = some chunk) :
    Routine :=
  { function := function
    chunk := chunk
    defined := defined
    limit := options.stackSize
    base := 0 }

/-- What invoking a function gives, whatever the machine was used for before. -/
def invoke
    (options : MachineOptions)
    {function : Function}
    {chunk : Chunk}
    (defined : function.chunk? = some chunk)
    (arguments : List Value) :
    Outcome RuntimeError Value :=
  match entryFault? options function arguments.length with
  | some fault => .failed (.outside fault)
  | none => (outermost options defined).run { position := 0, operands := arguments.reverse }

end Routine

/-- A machine that runs one function and nothing else. -/
def Host.alone (machine : Machine) (handle : Handle) : Host :=
  { machine := machine, callee := .object handle, below := [], frames := [] }

namespace Machine

/-- Operands for which there is room are pushed one after the other. -/
theorem pushAll_of_le
    (values : List Value)
    (machine : Machine)
    (room : (machine.depth + values.length : Int) ≤ machine.options.stackSize.toInt) :
    Action.pushAll values machine =
      (.done (), { machine with stack := values.reverse ++ machine.stack }) := by
  induction values generalizing machine with
  | nil =>
      rfl
  | cons value rest inductionHypothesis =>
      simp only [List.length_cons] at room
      have notFull : ¬ machine.options.stackSize.toInt ≤ machine.depth := by
        omega
      have pushed := inductionHypothesis { machine with stack := value :: machine.stack }
        (by simp only [depth, List.length_cons] at room ⊢; omega)
      simp only [Action.pushAll, bind, Action.next, Action.push, notFull, ↓reduceIte, pushed,
        List.reverse_cons, List.append_assoc, List.singleton_append]

/-- Pushing operands without room for all of them fails, and changes the stack only. -/
theorem pushAll_of_gt
    (values : List Value)
    (machine : Machine)
    (some_value : values ≠ [])
    (full : machine.options.stackSize.toInt < machine.depth + values.length) :
    ∃ stack,
      Action.pushAll values machine =
        (.failed (.stackFull machine.options.stackSize), { machine with stack := stack }) := by
  induction values generalizing machine with
  | nil =>
      contradiction
  | cons value rest inductionHypothesis =>
      simp only [List.length_cons] at full
      by_cases isFull : machine.options.stackSize.toInt ≤ machine.depth
      · exact ⟨machine.stack, by
          simp only [Action.pushAll, bind, Action.next, Action.push, isFull, ↓reduceIte]⟩
      · have restLeft : rest ≠ [] := by
          rintro rfl
          simp only [List.length_nil] at full
          omega
        obtain ⟨stack, failed⟩ :=
          inductionHypothesis { machine with stack := value :: machine.stack } restLeft
            (by simp only [depth, List.length_cons] at full ⊢; omega)
        exact ⟨stack, by
          simp only [Action.pushAll, bind, Action.next, Action.push, isFull, ↓reduceIte,
            failed]⟩

section Entry

variable
  {machine : Machine}
  {handle : Handle}
  {function : Function}
  {chunk : Chunk}
  (arguments : List Value)

/-- Entering a call pushes the function with its arguments and begins the call. -/
theorem enter_eq_pushAll :
    Action.enter (.object handle) arguments machine =
      (Action.pushAll (.object handle :: arguments)).next
        (fun _ => Action.callValue (.object handle) (Int64.ofNat arguments.length))
        machine := by
  simp only [Action.enter, Action.pushAll, bind, Action.next]
  rcases Action.push (.object handle) machine with ⟨outcome, after⟩
  cases outcome <;> rfl

/-- With room on the stack, a call of a function that is held begins. -/
theorem enter_of_room
    (emptyStack : machine.stack = [])
    (held : machine.heap.get? handle = some (.function function))
    (room : ¬ machine.options.stackSize.toInt ≤ arguments.length) :
    Action.enter (.object handle) arguments machine =
      Action.call function (Int64.ofNat arguments.length)
        { machine with stack := arguments.reverse ++ [.object handle] } := by
  have pushed :=
    pushAll_of_le (.object handle :: arguments) machine
      (by simp only [depth, emptyStack, List.length_cons, List.length_nil]; omega)
  rw [enter_eq_pushAll]
  simp only [Action.next, pushed, Action.callValue, held, emptyStack, List.reverse_cons,
    List.append_nil]

/-- A call does not begin when there is a reason for it, and then changes the stack only. -/
theorem enter_of_entryFault?
    (emptyStack : machine.stack = [])
    (noFrames : machine.frames = [])
    (held : machine.heap.get? handle = some (.function function))
    {fault : Fault}
    (hasFault : Routine.entryFault? machine.options function arguments.length = some fault) :
    ∃ stack,
      Action.enter (.object handle) arguments machine =
        (.failed fault, { machine with stack := stack }) := by
  rcases Routine.eq_of_entryFault? hasFault with ⟨rfl, full⟩ | ⟨room, reason⟩
  · obtain ⟨stack, failed⟩ :=
      pushAll_of_gt (.object handle :: arguments) machine (by simp)
        (by simp only [depth, emptyStack, List.length_cons, List.length_nil]; omega)
    exact ⟨stack, by rw [enter_eq_pushAll]; simp only [Action.next, failed]⟩
  · refine ⟨arguments.reverse ++ [.object handle], ?_⟩
    rw [enter_of_room arguments emptyStack held room, Action.call]
    rcases reason with ⟨rfl, differ⟩ | ⟨rfl, same, deep⟩
    · rw [if_pos differ]
    · simp only [same, ne_eq, not_true_eq_false, ↓reduceIte, noFrames, List.length_nil,
        Int.cast_ofNat_Int, deep]

/-- A call that begins runs the function with nothing below it. -/
theorem enter_of_not_entryFault?
    (emptyStack : machine.stack = [])
    (noFrames : machine.frames = [])
    (held : machine.heap.get? handle = some (.function function))
    (defined : function.chunk? = some chunk)
    (noFault : Routine.entryFault? machine.options function arguments.length = none) :
    Action.enter (.object handle) arguments machine =
      (.done (),
        (Host.alone machine handle).place (.outermost machine.options defined)
          { position := 0, operands := arguments.reverse }) := by
  obtain ⟨room, counted, shallow⟩ := Routine.entryFault?_eq_none_iff.mp noFault
  have based :
      Int64.ofNat (arguments.reverse ++ [Value.object handle]).length -
          Int64.ofNat arguments.length - 1 =
        Int64.ofNat 0 := by
    rw [List.length_append, List.length_reverse, List.length_singleton,
      ← Int64.ofNat_sub _ _ (Nat.le_add_right ..), Nat.add_sub_cancel_left]
    rfl
  have notDeep : ¬ machine.options.maxFrames.toInt ≤ 0 := by
    omega
  rw [enter_of_room arguments emptyStack held (by omega), Action.call]
  simp only [← counted, ne_eq, not_true_eq_false, ↓reduceIte, noFrames, List.length_nil,
    Int.cast_ofNat_Int, notDeep, depth, based]
  rfl

end Entry

/-- A machine that runs nothing and whose heap was reached by operations. -/
structure AtRest (machine : Machine) : Prop where
  emptyStack : machine.stack = []
  noFrames : machine.frames = []
  reached : machine.heap.Reachable
  indexed : machine.heap.slots.length < Heap.maxSlots

/-- A new machine is at rest. -/
theorem atRest_new
    (options : MachineOptions) :
    (new options).AtRest where
  emptyStack := rfl
  noFrames := rfl
  reached := .empty
  indexed := by
    simp [new, Heap.empty, Heap.maxSlots]

/-- The states before each step of an invocation. -/
def invocationStates
    (machine : Machine)
    (function : Function)
    (arguments : List Value) :
    List Machine :=
  let (handle, holding) := machine.hold function
  match Action.enter (.object handle) arguments holding with
  | (.done (), entered) => entered.states
  | _ => []

section Calls

variable
  {machine : Machine}
  {handle : Handle}
  {function : Function}
  {chunk : Chunk}

/-- As many steps as a machine takes are enough for the function that it runs. -/
theorem stepBound_place
    (host : Host)
    (routine : Routine)
    (activation : Activation) :
    routine.chunk.code.length - activation.position <
      (host.place routine activation).stepBound := by
  have bounded :
      (routine.frame activation).stepBound =
        routine.chunk.code.length - activation.position + 1 := by
    simp only [Frame.stepBound, Routine.frame, routine.defined]
  simp only [stepBound, Host.place, Host.withStack, List.foldr_cons, bounded]
  omega

/-- The arguments fit where entering the function does not fail. -/
theorem fits_of_entryFault?
    {options : MachineOptions}
    (defined : function.chunk? = some chunk)
    {arguments : List Value}
    (noFault : Routine.entryFault? options function arguments.length = none) :
    (Routine.outermost options defined).Fits
      { position := 0, operands := arguments.reverse } := by
  obtain ⟨room, _, _⟩ := Routine.entryFault?_eq_none_iff.mp noFault
  simp only [Routine.Fits, Routine.outermost, List.length_reverse]
  omega

/-- Calling a function that is held gives its result, and clears the stack behind it. -/
theorem callHeld_eq
    (emptyStack : machine.stack = [])
    (noFrames : machine.frames = [])
    (held : machine.heap.get? handle = some (.function function))
    (defined : function.chunk? = some chunk)
    (arguments : List Value) :
    ∃ stack frames,
      machine.callHeld handle arguments =
          (Routine.invoke machine.options defined arguments,
            { machine with stack := stack, frames := frames }) ∧
        (Routine.invoke machine.options defined arguments ≠ .aborted →
          stack = [] ∧ frames = []) := by
  unfold callHeld Routine.invoke
  cases entry : Routine.entryFault? machine.options function arguments.length with
  | some fault =>
      obtain ⟨stack, entered⟩ :=
        enter_of_entryFault? arguments emptyStack noFrames held entry
      exact ⟨[], [], by simp only [entered, clearStack], fun _ => ⟨rfl, rfl⟩⟩
  | none =>
      have entered :=
        enter_of_not_entryFault? arguments emptyStack noFrames held defined entry
      obtain ⟨stack, frames, ran, returned⟩ :=
        @Host.runFor_place (.alone machine handle) _ rfl ⟨rfl, rfl⟩ _
          (fits_of_entryFault? defined entry) _ (stepBound_place _ _ _)
      simp only [entered, run]
      rw [ran]
      cases ended :
          (Routine.outermost machine.options defined).run
            { position := 0, operands := arguments.reverse } with
      | done value =>
          obtain ⟨rfl, rfl⟩ := returned value ended
          exact ⟨[], [], rfl, fun _ => ⟨rfl, rfl⟩⟩
      | failed error =>
          exact ⟨[], [], rfl, fun _ => ⟨rfl, rfl⟩⟩
      | aborted =>
          exact ⟨stack, frames, rfl, fun goesOn => (goesOn rfl).elim⟩

/-- Holding a function leaves its index in reach of handles. -/
theorem AtRest.indexed_allocate
    (atRest : machine.AtRest)
    (object : HeapObject) :
    (machine.heap.allocate object).2.slots.length ≤ Heap.maxSlots := by
  have grown := (Heap.length_allocate machine.heap object).2
  have indexed := atRest.indexed
  omega

/-- A function that is held is what its handle resolves to. -/
theorem AtRest.get?_hold
    (atRest : machine.AtRest)
    (function : Function) :
    (machine.hold function).2.heap.get? (machine.hold function).1 =
      some (.function function) := by
  have wellFormed := atRest.reached.wellFormed (Nat.le_of_lt atRest.indexed)
  have allocates :=
    wellFormed.allocates (.function function) (atRest.indexed_allocate (.function function))
  have resolves :=
    Heap.resolve?_eq_some_iff.mpr ⟨allocates.moved, rfl, rfl⟩
  simp only [hold, Heap.get?, resolves, Option.map_some]

/--
Invoking a function on a machine at rest gives what the function gives alone.  The function has
passed through the heap, and only a run that is aborted leaves anything on the stack.
-/
theorem AtRest.invoke_eq
    (atRest : machine.AtRest)
    (defined : function.chunk? = some chunk)
    (arguments : List Value) :
    ∃ stack frames,
      machine.invoke (some function) arguments =
          (Routine.invoke machine.options defined arguments,
            { machine with
              stack := stack
              frames := frames
              heap :=
                (machine.hold function).2.heap.release (machine.hold function).1 }) ∧
        (Routine.invoke machine.options defined arguments ≠ .aborted →
          stack = [] ∧ frames = []) := by
  obtain ⟨stack, frames, called, cleared⟩ :=
    @callHeld_eq (machine.hold function).2 _ _ _ atRest.emptyStack atRest.noFrames
      (atRest.get?_hold function) defined arguments
  refine ⟨stack, frames, ?_, cleared⟩
  obtain ⟨name, arity, chunk?⟩ := function
  cases defined
  simp only [invoke, called]
  rfl

/-- The states of an invocation that begins are those of the function's run. -/
theorem AtRest.invoke_eq_aborted_iff
    (atRest : machine.AtRest)
    (defined : function.chunk? = some chunk)
    (arguments : List Value) :
    Routine.invoke machine.options defined arguments = .aborted ↔
      ∃ state ∈ machine.invocationStates function arguments, state.AtUndefinedPower := by
  unfold Routine.invoke invocationStates
  cases entry : Routine.entryFault? machine.options function arguments.length with
  | some fault =>
      obtain ⟨stack, entered⟩ :=
        @enter_of_entryFault? (machine.hold function).2 _ _ arguments atRest.emptyStack
          atRest.noFrames (atRest.get?_hold function) fault entry
      simp [entered]
  | none =>
      have entered :=
        @enter_of_not_entryFault? (machine.hold function).2 _ _ _ arguments
          atRest.emptyStack atRest.noFrames (atRest.get?_hold function) defined entry
      simp only [entered, states]
      exact @Host.run_eq_aborted_iff
        (.alone (machine.hold function).2 (machine.hold function).1) _ _ rfl rfl ⟨rfl, rfl⟩ _
        (fits_of_entryFault? defined entry) _ (stepBound_place _ _ _)

end Calls

end Machine

end Reckon
