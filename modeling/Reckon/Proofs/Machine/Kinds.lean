import Reckon.Proofs.Machine.Safety
import Reckon.Proofs.Value.Kinds

namespace Reckon

/-!
# Running on kinds

Which instructions code executes, and how deep its stack is, can be told from the kinds of its
constants and arguments.  `Routine.Outline.step` runs code on kinds alone, and a step on values
does what the step on their kinds says.  The exceptions are steps that turn on the content of a
value: a division by zero, an assertion that does not hold, and an undefined power.
-/

/-! ### Outlines -/

/-- How far a function has come, with the kinds of its operands. -/
structure Activation.Outline where
  position : Nat
  operands : List Kind
  deriving Repr, DecidableEq

/-- How far a function has come, with the kinds of its operands in place of them. -/
def Activation.outline (activation : Activation) : Activation.Outline :=
  { position := activation.position, operands := activation.operands.map Value.kind }

/-- A function that runs, with the kinds of its constants. -/
structure Routine.Outline where
  function : String
  code : List CodeUnit
  lines : List Int64
  constants : List Kind
  limit : Int64
  base : Nat
  deriving Repr, DecidableEq

/-- A function that runs, with the kinds of its constants in place of them. -/
def Routine.outline (routine : Routine) : Routine.Outline :=
  { function := routine.function.text
    code := routine.chunk.code
    lines := routine.chunk.lines
    constants := routine.chunk.constants.map Value.kind
    limit := routine.limit
    base := routine.base }

/-- How one step ends, as far as kinds say. -/
inductive Turn.Outline where
  | next (after : Activation.Outline)
  | returned (kind : Kind)
  | failed (fault : Fault)
  deriving Repr, DecidableEq

/-- The causes of faults that turn on the content of a value. -/
def Cause.ofContent : List Cause :=
  [.divisionByZero, .assertion]

/-- What can be told of a step by kinds. -/
def Turn.outline? : Turn → Option Turn.Outline
  | .next after => some (.next after.outline)
  | .returned value => some (.returned value.kind)
  | .failed fault _ =>
      if fault.cause ∈ Cause.ofContent then none else some (.failed fault)
  | .aborted _ => none

/-! ### Steps on kinds -/

namespace Activation.Outline

variable (activation : Activation.Outline)

/-- Move on by one unit. -/
def skip : Activation.Outline :=
  { activation with position := activation.position + 1 }

/-- Go on with other operands, or fail. -/
def settle (rest : List Kind) : Except ArithmeticFault Kind → Turn.Outline
  | .ok kind => .next { activation with operands := kind :: rest }
  | .error fault => .failed (.arithmetic fault)

/-- A binary operator on the kinds of the two top operands. -/
def binary (operator : Operator) : Turn.Outline :=
  match activation.operands with
  | right :: left :: rest => activation.settle rest (operator.resultKind left right)
  | _ => .failed .underflow

/-- A function on the kind of the top operand. -/
def unary (resultKind : Kind → Except ArithmeticFault Kind) : Turn.Outline :=
  match activation.operands with
  | operand :: rest => activation.settle rest (resultKind operand)
  | [] => .failed .underflow

/-- Drop the top operand. -/
def discard : Turn.Outline :=
  match activation.operands with
  | _ :: rest => .next { activation with operands := rest }
  | [] => .failed .underflow

/-- Go on behind a truth value that is asserted. -/
def assertTop : Turn.Outline :=
  match activation.operands with
  | operand :: rest =>
      if operand = .bool then
        .next { activation with operands := rest }
      else
        .failed (.assertedKind operand)
  | [] => .failed .underflow

/-- Return the top operand. -/
def returnTop : Turn.Outline :=
  match activation.operands with
  | kind :: _ => .returned kind
  | [] => .failed .underflow

end Activation.Outline

namespace Routine.Outline

variable
  (routine : Routine.Outline)
  (activation : Activation.Outline)

/-- There is no room for one more operand. -/
def IsFull : Prop :=
  routine.limit.toInt ≤ routine.base + 1 + activation.operands.length

instance : Decidable (routine.IsFull activation) :=
  inferInstanceAs (Decidable (_ ≤ _))

/-- Push an operand of a kind. -/
def push (kind : Kind) : Turn.Outline :=
  if routine.IsFull activation then
    .failed (.stackFull routine.limit)
  else
    .next { activation with operands := kind :: activation.operands }

/-- Read a constant index and push the kind of the constant. -/
def load : Turn.Outline :=
  match routine.code[activation.position]? with
  | none => .failed .missingIndex
  | some index =>
      if index.kind ≠ .constantIndex then
        .failed .missingIndex
      else
        match routine.constants[index.byte.toNat]? with
        | none => .failed (.constantRange index.byte)
        | some kind => routine.push activation.skip kind

/-- Execute an instruction whose opcode was read. -/
def execute (opcode : Opcode) : Turn.Outline :=
  match opcode.operator? with
  | some operator => activation.binary operator
  | none =>
      match opcode with
      | .constant => routine.load activation
      | .true | .false => routine.push activation .bool
      | .not => activation.unary Value.notKind
      | .negate => activation.unary Value.negateKind
      | .pop => activation.discard
      | .return => activation.returnTop
      | .assert => activation.assertTop
      | _ => .next activation

/-- Read and execute an instruction. -/
def step : Turn.Outline :=
  match routine.code[activation.position]? with
  | none => .failed (.pastEnd routine.function)
  | some unit =>
      if unit.kind = .opcode then
        match Opcode.ofByte? unit.byte with
        | some opcode => routine.execute activation.skip opcode
        | none => .failed (.unknownOpcode unit.byte)
      else
        .failed (.expectedOpcode unit)

/-- A fault of the instruction that an activation is at. -/
def errorAt (fault : Fault) : RuntimeError :=
  { line := routine.lines[activation.position]?.getD 0
    function := routine.function
    fault := fault }

end Routine.Outline

/-! ### Steps on values do what steps on kinds say -/

/-- A fault that does not turn on content is told. -/
theorem Turn.outline?_failed
    {fault : Fault}
    (told : fault.cause ∉ Cause.ofContent)
    (after : Activation) :
    (Turn.failed fault after).outline? = some (.failed fault) :=
  if_neg told

namespace Activation

variable (activation : Activation)

/-- An operation on values settles as its kinds say. -/
theorem settle_tells
    {outcome : Outcome ArithmeticFault Value}
    {result : Except ArithmeticFault Kind}
    (tells : Tells outcome.outline? result)
    (rest : List Value) :
    Tells
      (match outcome with
        | .done value => Turn.next (activation.withOperands (value :: rest))
        | .failed fault => .failed (.arithmetic fault) (activation.withOperands rest)
        | .aborted => .aborted (activation.withOperands rest)).outline?
      (activation.outline.settle (rest.map Value.kind) result) := by
  cases outcome with
  | done value =>
      rw [Outcome.outline?_done, tells_some_iff] at tells
      subst tells
      exact tells_some_iff.mpr rfl
  | failed fault =>
      by_cases divides : fault.cause = .divisionByZero
      · have untold : (Fault.arithmetic fault).cause ∈ Cause.ofContent := by
          simp [Fault.cause, Cause.ofContent, divides]
        simp [Turn.outline?, untold]
      · have told : (Fault.arithmetic fault).cause ∉ Cause.ofContent := by
          cases fault <;> simp_all [Fault.cause, Cause.ofContent, ArithmeticFault.cause]
        simp only [Outcome.outline?, divides, ↓reduceIte, tells_some_iff] at tells
        subst tells
        rw [Turn.outline?_failed told]
        exact tells_some_iff.mpr rfl
  | aborted =>
      exact tells_none

/-- The kinds of two operands tell how their operation ends. -/
theorem binary_tells
    (operator : Operator) :
    Tells (activation.binary operator).outline? (activation.outline.binary operator) := by
  unfold binary Outline.binary
  match shape : activation.operands with
  | right :: left :: rest =>
      simp only [outline, shape, List.map_cons]
      exact activation.settle_tells (operator.apply_tells left right) rest
  | [_] | [] =>
      simp only [outline, shape, List.map_cons, List.map_nil]
      exact tells_some_iff.mpr rfl

/-- The kind of an operand tells how its operation ends, if it does so for its value. -/
theorem unary_tells
    {function : Value → Except ArithmeticFault Value}
    {resultKind : Kind → Except ArithmeticFault Kind}
    (tells : ∀ operand,
      Tells (Outcome.ofExcept (function operand)).outline? (resultKind operand.kind)) :
    Tells (activation.unary function).outline? (activation.outline.unary resultKind) := by
  unfold unary Outline.unary
  match shape : activation.operands with
  | operand :: rest =>
      have settled := activation.settle_tells (tells operand) rest
      simp only [outline, shape, List.map_cons] at settled ⊢
      cases applied : function operand with
      | ok value => simpa only [applied, Outcome.ofExcept] using settled
      | error fault => simpa only [applied, Outcome.ofExcept] using settled
  | [] =>
      simp only [outline, shape, List.map_nil]
      exact tells_some_iff.mpr rfl

theorem discard_tells :
    Tells activation.discard.outline? activation.outline.discard := by
  unfold discard Outline.discard
  match shape : activation.operands with
  | operand :: rest =>
      simp only [outline, shape, List.map_cons]
      exact tells_some_iff.mpr rfl
  | [] =>
      simp only [outline, shape, List.map_nil]
      exact tells_some_iff.mpr rfl

/--
The kinds of operands tell how an assertion ends, unless it is of a truth value, where the content
decides.
-/
theorem assertTop_tells :
    Tells activation.assertTop.outline? activation.outline.assertTop := by
  unfold assertTop Outline.assertTop
  match shape : activation.operands with
  | operand :: rest =>
      simp only [outline, shape, List.map_cons]
      cases operand with
      | bool truth =>
          cases truth with
          | true => exact tells_some_iff.mpr rfl
          | false => exact tells_none
      | _ => exact tells_some_iff.mpr rfl
  | [] =>
      simp only [outline, shape, List.map_nil]
      exact tells_some_iff.mpr rfl

theorem returnTop_tells :
    Tells activation.returnTop.outline? activation.outline.returnTop := by
  unfold returnTop Outline.returnTop
  match shape : activation.operands with
  | value :: rest =>
      simp only [outline, shape, List.map_cons]
      exact tells_some_iff.mpr rfl
  | [] =>
      simp only [outline, shape, List.map_nil]
      exact tells_some_iff.mpr rfl

end Activation

namespace Routine

variable
  (routine : Routine)
  (activation : Activation)

/-- The room that is left shows in the outline. -/
theorem isFull_outline_iff :
    routine.outline.IsFull activation.outline ↔ routine.IsFull activation := by
  simp only [Outline.IsFull, IsFull, outline, Activation.outline, List.length_map]

theorem push_tells
    (value : Value) :
    Tells (routine.push activation value).outline?
      (routine.outline.push activation.outline value.kind) := by
  have sameFull := routine.isFull_outline_iff activation
  unfold push Outline.push
  by_cases full : routine.IsFull activation
  · rw [if_pos full, if_pos (sameFull.mpr full)]
    exact tells_some_iff.mpr rfl
  · rw [if_neg full, if_neg (mt sameFull.mp full)]
    exact tells_some_iff.mpr rfl

theorem load_tells :
    Tells (routine.load activation).outline? (routine.outline.load activation.outline) := by
  have sameUnit :
      routine.outline.code[activation.outline.position]? =
        routine.chunk.code[activation.position]? :=
    rfl
  unfold load Outline.load
  rw [sameUnit]
  cases routine.chunk.code[activation.position]? with
  | none =>
      exact tells_some_iff.mpr rfl
  | some index =>
      by_cases isIndex : index.kind = .constantIndex
      · have sameConstant :
            routine.outline.constants[index.byte.toNat]? =
              routine.chunk.constants[index.byte.toNat]?.map Value.kind :=
          List.getElem?_map ..
        simp only [isIndex, ne_eq, not_true_eq_false, ↓reduceIte, sameConstant]
        cases routine.chunk.constants[index.byte.toNat]? with
        | none => exact tells_some_iff.mpr rfl
        | some value => exact routine.push_tells activation.skip value
      · simp only [isIndex, ne_eq, not_false_eq_true, ↓reduceIte]
        exact tells_some_iff.mpr rfl

/-- The kinds of operands and constants tell how an instruction ends, where they can. -/
theorem execute_tells
    (opcode : Opcode) :
    Tells (routine.execute activation opcode).outline?
      (routine.outline.execute activation.outline opcode) := by
  unfold execute Outline.execute
  cases opcode.operator? with
  | some operator =>
      exact activation.binary_tells operator
  | none =>
      cases opcode with
      | constant => exact routine.load_tells activation
      | true | false => exact routine.push_tells activation _
      | not => exact activation.unary_tells Value.not_tells
      | negate => exact activation.unary_tells Value.negate_tells
      | pop => exact activation.discard_tells
      | «return» => exact activation.returnTop_tells
      | assert => exact activation.assertTop_tells
      | _ => exact tells_some_iff.mpr rfl

/-- A step on values does what the step on their kinds says. -/
theorem step_tells :
    Tells (routine.step activation).outline? (routine.outline.step activation.outline) := by
  have sameUnit :
      routine.outline.code[activation.outline.position]? =
        routine.chunk.code[activation.position]? :=
    rfl
  unfold step Outline.step
  rw [sameUnit]
  cases routine.chunk.code[activation.position]? with
  | none =>
      exact tells_some_iff.mpr rfl
  | some unit =>
      by_cases isOpcode : unit.kind = .opcode
      · simp only [isOpcode, ↓reduceIte]
        cases Opcode.ofByte? unit.byte with
        | none => exact tells_some_iff.mpr rfl
        | some opcode => exact routine.execute_tells activation.skip opcode
      · simp only [isOpcode, ↓reduceIte]
        exact tells_some_iff.mpr rfl

/-- Steps of routines with the same outline are consistent. -/
theorem step_consistent
    {routine other : Routine}
    {activation otherActivation : Activation}
    (sameRoutine : routine.outline = other.outline)
    (same : activation.outline = otherActivation.outline) :
    Consistent (routine.step activation).outline? (other.step otherActivation).outline? := by
  have tells := routine.step_tells activation
  rw [sameRoutine, same] at tells
  exact tells.consistent (other.step_tells otherActivation)

/-- An error is worded by the outline alone. -/
theorem errorAt_outline
    (fault : Fault) :
    routine.errorAt activation fault = routine.outline.errorAt activation.outline fault :=
  rfl

end Routine

/-! ### Runs side by side -/

/-- A call in progress, with its code in place of its function. -/
structure Frame.Outline where
  function : String
  code? : Option (List CodeUnit)
  position : Nat
  slotBase : Int64
  deriving Repr, DecidableEq

/-- The kinds of the operands of a machine, and the calls in progress. -/
structure Machine.Outline where
  operands : List Kind
  frames : List Frame.Outline
  deriving Repr, DecidableEq

/-- What can be told of a call in progress by kinds. -/
def Frame.outline (frame : Frame) : Frame.Outline :=
  { function := frame.function.text
    code? := frame.function.chunk?.map Chunk.code
    position := frame.position
    slotBase := frame.slotBase }

/-- What can be told of a machine by kinds. -/
def Machine.outline (machine : Machine) : Machine.Outline :=
  { operands := machine.stack.map Value.kind, frames := machine.frames.map Frame.outline }

namespace Outcome

/-- The run turned on the content of a value: it is aborted, or fails for such a cause. -/
def TurnsOnContent : Outcome RuntimeError Value → Prop
  | .done _ => False
  | .failed error => error.fault.cause ∈ Cause.ofContent
  | .aborted => True

/-- Both runs give a value of one kind, or both fail with one error. -/
def SameInKind (ended other : Outcome RuntimeError Value) : Prop :=
  (∃ value otherValue,
      ended = .done value ∧ other = .done otherValue ∧ value.kind = otherValue.kind) ∨
    ∃ error, ended = .failed error ∧ other = .failed error

end Outcome

/--
Two runs go through the same states, told by kinds, up to where one of them turns on the content
of a value; and if neither does, they end alike.
-/
structure SideBySide
    (trace otherTrace : List Machine.Outline)
    (ended otherEnded : Outcome RuntimeError Value) :
    Prop where
  comparable : trace <+: otherTrace ∨ otherTrace <+: trace
  shorter : trace.length < otherTrace.length → ended.TurnsOnContent
  longer : otherTrace.length < trace.length → otherEnded.TurnsOnContent
  sameEnd : ¬ ended.TurnsOnContent → ¬ otherEnded.TurnsOnContent → ended.SameInKind otherEnded

namespace SideBySide

variable
  {trace otherTrace : List Machine.Outline}
  {ended otherEnded : Outcome RuntimeError Value}

/-- Running side by side goes both ways. -/
theorem symm
    (runs : SideBySide trace otherTrace ended otherEnded) :
    SideBySide otherTrace trace otherEnded ended where
  comparable := runs.comparable.symm
  shorter := runs.longer
  longer := runs.shorter
  sameEnd goesOn otherGoesOn := by
    rcases runs.sameEnd otherGoesOn goesOn with
      ⟨value, otherValue, done, otherDone, same⟩ | ⟨error, failed, otherFailed⟩
    · exact Or.inl ⟨otherValue, value, otherDone, done, same.symm⟩
    · exact Or.inr ⟨error, otherFailed, failed⟩

/-- One more state in which both are alike. -/
theorem cons
    (runs : SideBySide trace otherTrace ended otherEnded)
    (state : Machine.Outline) :
    SideBySide (state :: trace) (state :: otherTrace) ended otherEnded where
  comparable := by
    simpa only [List.cons_prefix_cons, true_and] using runs.comparable
  shorter less := runs.shorter (Nat.lt_of_succ_lt_succ less)
  longer less := runs.longer (Nat.lt_of_succ_lt_succ less)
  sameEnd := runs.sameEnd

/-- A run that turns on content here is over, however the other one goes on. -/
theorem of_turnsOnContent
    (turns : ended.TurnsOnContent)
    (state : Machine.Outline)
    (rest : List Machine.Outline)
    (otherEnded : Outcome RuntimeError Value) :
    SideBySide [state] (state :: rest) ended otherEnded where
  comparable := Or.inl ⟨rest, rfl⟩
  shorter _ := turns
  longer less := by
    simp at less
  sameEnd goesOn _ := (goesOn turns).elim

/-- Runs that are over in the same state end alike. -/
theorem of_sameInKind
    (same : ended.SameInKind otherEnded)
    (traced : List Machine.Outline) :
    SideBySide traced traced ended otherEnded where
  comparable := Or.inl (List.prefix_refl _)
  shorter less := (Nat.lt_irrefl _ less).elim
  longer less := (Nat.lt_irrefl _ less).elim
  sameEnd _ _ := same

/-- If neither run turns on content, both go through all of the states. -/
theorem trace_eq
    (runs : SideBySide trace otherTrace ended otherEnded)
    (goesOn : ¬ ended.TurnsOnContent)
    (otherGoesOn : ¬ otherEnded.TurnsOnContent) :
    trace = otherTrace := by
  have notShorter := Nat.le_of_not_lt (mt runs.shorter goesOn)
  have notLonger := Nat.le_of_not_lt (mt runs.longer otherGoesOn)
  rcases runs.comparable with isPrefix | isPrefix
  · exact isPrefix.eq_of_length_le notShorter
  · exact (isPrefix.eq_of_length_le notLonger).symm

end SideBySide

namespace Turn

/-- A step of which nothing is told fails for its content or is aborted. -/
theorem cases_of_untold
    {turn : Turn}
    (untold : turn.outline? = none) :
    (∃ fault after, turn = .failed fault after ∧ fault.cause ∈ Cause.ofContent) ∨
      ∃ after, turn = .aborted after := by
  cases turn with
  | next after =>
      cases untold
  | returned value =>
      cases untold
  | failed fault after =>
      by_cases ofContent : fault.cause ∈ Cause.ofContent
      · exact Or.inl ⟨fault, after, rfl, ofContent⟩
      · rw [outline?_failed ofContent] at untold
        cases untold
  | aborted after =>
      exact Or.inr ⟨after, rfl⟩

/-- What is told of a step tells the step but for the contents of values. -/
theorem cases_of_told
    {turn : Turn}
    {outline : Turn.Outline}
    (told : turn.outline? = some outline) :
    match outline with
    | .next outlined => ∃ after, turn = .next after ∧ after.outline = outlined
    | .returned kind => ∃ value, turn = .returned value ∧ value.kind = kind
    | .failed fault => ∃ after, turn = .failed fault after := by
  cases turn with
  | next after =>
      cases told
      exact ⟨after, rfl, rfl⟩
  | returned value =>
      cases told
      exact ⟨value, rfl, rfl⟩
  | failed fault after =>
      by_cases ofContent : fault.cause ∈ Cause.ofContent
      · simp [outline?, ofContent] at told
      · rw [outline?_failed ofContent] at told
        cases told
        exact ⟨after, rfl⟩
  | aborted after =>
      cases told

end Turn

namespace Host

variable
  {machine other : Machine}
  {handle otherHandle : Handle}
  {routine otherRoutine : Routine}
  {activation otherActivation : Activation}

/-- The states of a run are the first one and those behind the first step. -/
theorem statesFor_place
    (carries : (alone machine handle).Carries routine)
    (fits : routine.Fits activation)
    (steps : Nat) :
    ((alone machine handle).place routine activation).statesFor (steps + 1) =
      (alone machine handle).place routine activation ::
        match routine.step activation with
        | .next after => ((alone machine handle).place routine after).statesFor steps
        | _ => [] := by
  rw [Machine.statesFor, step_place carries fits]
  cases routine.step activation <;> rfl

/-- Where a function runs alone, its outline and that of its activation tell all. -/
theorem outline_place_congr
    (sameRoutine : routine.outline = otherRoutine.outline)
    (same : activation.outline = otherActivation.outline) :
    ((alone machine handle).place routine activation).outline =
      ((alone other otherHandle).place otherRoutine otherActivation).outline := by
  have sameText := congrArg Routine.Outline.function sameRoutine
  have sameCode := congrArg Routine.Outline.code sameRoutine
  have sameBase := congrArg Routine.Outline.base sameRoutine
  have samePosition := congrArg Activation.Outline.position same
  have sameKinds := congrArg Activation.Outline.operands same
  simp only [Routine.outline, Activation.outline]
    at sameText sameCode sameBase samePosition sameKinds
  simp [Machine.outline, place, withStack, alone, Frame.outline, Routine.frame,
    routine.defined, otherRoutine.defined, sameText, sameCode, sameBase, samePosition,
    sameKinds, Value.kind]

/-- A run that turns on content in its first step has one state. -/
theorem of_untold
    (carries : (alone machine handle).Carries routine)
    (fits : routine.Fits activation)
    (untold : (routine.step activation).outline? = none)
    (steps : Nat) :
    ((alone machine handle).place routine activation).statesFor (steps + 1) =
        [(alone machine handle).place routine activation] ∧
      (routine.run activation).TurnsOnContent := by
  rw [statesFor_place carries fits, Routine.run_eq]
  rcases Turn.cases_of_untold untold with
    ⟨fault, after, stepped, ofContent⟩ | ⟨after, stepped⟩
  · rw [stepped]
    exact ⟨rfl, ofContent⟩
  · rw [stepped]
    exact ⟨rfl, True.intro⟩

/--
Two functions with the same outline run side by side.  The induction is on the steps that are
left: a step that is told of both goes the same way in both.
-/
theorem sideBySide_place
    (sameRoutine : routine.outline = otherRoutine.outline)
    (same : activation.outline = otherActivation.outline)
    (carries : (alone machine handle).Carries routine)
    (otherCarries : (alone other otherHandle).Carries otherRoutine)
    (fits : routine.Fits activation)
    (otherFits : otherRoutine.Fits otherActivation)
    {steps : Nat}
    (enough : routine.chunk.code.length - activation.position < steps) :
    SideBySide
      ((((alone machine handle).place routine activation).statesFor steps).map Machine.outline)
      ((((alone other otherHandle).place otherRoutine otherActivation).statesFor steps).map
        Machine.outline)
      (routine.run activation)
      (otherRoutine.run otherActivation) := by
  induction steps generalizing activation otherActivation with
  | zero =>
      omega
  | succ steps inductionHypothesis =>
      have sameState :
          ((alone machine handle).place routine activation).outline =
            ((alone other otherHandle).place otherRoutine otherActivation).outline :=
        outline_place_congr sameRoutine same
      cases told : (routine.step activation).outline? with
      | none =>
          obtain ⟨isOver, turns⟩ := of_untold carries fits told steps
          rw [isOver, statesFor_place otherCarries otherFits, List.map_cons, List.map_cons,
            ← sameState]
          exact .of_turnsOnContent turns _ _ _
      | some outline =>
          cases otherTold : (otherRoutine.step otherActivation).outline? with
          | none =>
              obtain ⟨isOver, turns⟩ := of_untold otherCarries otherFits otherTold steps
              rw [isOver, statesFor_place carries fits, List.map_cons, List.map_cons,
                ← sameState]
              exact (SideBySide.of_turnsOnContent turns _ _ _).symm
          | some otherOutline =>
              obtain rfl :=
                Routine.step_consistent sameRoutine same outline told otherOutline otherTold
              have regular := @Routine.regular_step routine activation
              have otherRegular := @Routine.regular_step otherRoutine otherActivation
              have toldCases := Turn.cases_of_told told
              have otherCases := Turn.cases_of_told otherTold
              rw [statesFor_place carries fits, statesFor_place otherCarries otherFits,
                List.map_cons, List.map_cons, ← sameState, Routine.run_eq,
                Routine.run_eq otherRoutine]
              cases outline with
              | next outlined =>
                  obtain ⟨after, stepped, afterOutline⟩ := toldCases
                  obtain ⟨otherAfter, otherStepped, otherOutlined⟩ := otherCases
                  have onward := Routine.position_lt_of_step_eq_next stepped
                  rw [stepped] at regular ⊢
                  rw [otherStepped] at otherRegular ⊢
                  have continued :=
                    inductionHypothesis (afterOutline.trans otherOutlined.symm)
                      (regular.fits fits) (otherRegular.fits otherFits) (by omega)
                  exact continued.cons _
              | returned kind =>
                  obtain ⟨value, stepped, valueKind⟩ := toldCases
                  obtain ⟨otherValue, otherStepped, otherKind⟩ := otherCases
                  rw [stepped, otherStepped]
                  exact .of_sameInKind
                    (Or.inl ⟨value, otherValue, rfl, rfl, valueKind.trans otherKind.symm⟩) _
              | failed fault =>
                  obtain ⟨after, stepped⟩ := toldCases
                  obtain ⟨otherAfter, otherStepped⟩ := otherCases
                  have sameError :
                      routine.errorAt activation fault =
                        otherRoutine.errorAt otherActivation fault := by
                    rw [Routine.errorAt_outline, Routine.errorAt_outline, sameRoutine, same]
                  rw [stepped, otherStepped]
                  exact .of_sameInKind (Or.inr ⟨_, rfl, by rw [sameError]⟩) _

end Host

/-! ### Invocations side by side -/

/-- Two functions that differ in their constants only, and those are of the same kinds. -/
structure Function.AgreesInKinds
    (function other : Function)
    (chunk otherChunk : Chunk) :
    Prop where
  defined : function.chunk? = some chunk
  otherDefined : other.chunk? = some otherChunk
  name : function.name = other.name
  arity : function.arity = other.arity
  code : chunk.code = otherChunk.code
  lines : chunk.lines = otherChunk.lines
  kinds : chunk.constants.map Value.kind = otherChunk.constants.map Value.kind

namespace Function.AgreesInKinds

variable
  {function other : Function}
  {chunk otherChunk : Chunk}
  (agrees : function.AgreesInKinds other chunk otherChunk)

include agrees

/-- Functions that agree in kinds have the same text. -/
theorem text_eq :
    function.text = other.text := by
  rw [text, text, agrees.name, agrees.arity]

/-- Functions that agree in kinds are outlined alike under the same limits. -/
theorem outline_outermost_eq
    (options : MachineOptions) :
    (Routine.outermost options agrees.defined).outline =
      (Routine.outermost options agrees.otherDefined).outline := by
  simp only [Routine.outline, Routine.outermost, agrees.text_eq, agrees.code, agrees.lines,
    agrees.kinds]

/-- Calls of both begin alike. -/
theorem entryFault?_eq
    (options : MachineOptions)
    (count : Nat) :
    Routine.entryFault? options function count = Routine.entryFault? options other count := by
  rw [Routine.entryFault?, Routine.entryFault?, agrees.text_eq, agrees.arity]

end Function.AgreesInKinds

namespace Machine

/-- As many steps are allowed for functions with the same outline. -/
theorem stepBound_place_congr
    {machine other : Machine}
    {handle otherHandle : Handle}
    {routine otherRoutine : Routine}
    {activation otherActivation : Activation}
    (sameRoutine : routine.outline = otherRoutine.outline)
    (same : activation.outline = otherActivation.outline) :
    ((Host.alone machine handle).place routine activation).stepBound =
      ((Host.alone other otherHandle).place otherRoutine otherActivation).stepBound := by
  have sameCode : routine.chunk.code = otherRoutine.chunk.code :=
    congrArg Routine.Outline.code sameRoutine
  have samePosition : activation.position = otherActivation.position :=
    congrArg Activation.Outline.position same
  simp [stepBound, Host.place, Host.withStack, Host.alone, Routine.frame, Frame.stepBound,
    routine.defined, otherRoutine.defined, sameCode, samePosition]

/--
Invocations on machines at rest run side by side, from the call to the end.  Holding a function
leaves the options alone.
-/
theorem AtRest.sideBySide_invoke
    {machine other : Machine}
    (atRest : machine.AtRest)
    (otherAtRest : other.AtRest)
    (sameOptions : machine.options = other.options)
    {function otherFunction : Function}
    {chunk otherChunk : Chunk}
    (agrees : function.AgreesInKinds otherFunction chunk otherChunk)
    {arguments otherArguments : List Value}
    (sameKinds : arguments.map Value.kind = otherArguments.map Value.kind) :
    SideBySide
      ((machine.invocationStates function arguments).map outline)
      ((other.invocationStates otherFunction otherArguments).map outline)
      (Routine.invoke machine.options agrees.defined arguments)
      (Routine.invoke other.options agrees.otherDefined otherArguments) := by
  have sameCount : arguments.length = otherArguments.length := by
    simpa using congrArg List.length sameKinds
  have sameEntry :
      Routine.entryFault? machine.options function arguments.length =
        Routine.entryFault? other.options otherFunction otherArguments.length := by
    rw [agrees.entryFault?_eq, sameOptions, sameCount]
  unfold invocationStates Routine.invoke
  rw [← sameEntry]
  cases entry : Routine.entryFault? machine.options function arguments.length with
  | some fault =>
      obtain ⟨stack, entered⟩ :=
        @enter_of_entryFault? (machine.hold function).2 _ _ arguments atRest.emptyStack
          atRest.noFrames (atRest.get?_hold function) fault entry
      obtain ⟨otherStack, otherEntered⟩ :=
        @enter_of_entryFault? (other.hold otherFunction).2 _ _ otherArguments
          otherAtRest.emptyStack otherAtRest.noFrames (otherAtRest.get?_hold otherFunction) fault
          (sameEntry.symm.trans entry)
      simp only [entered, otherEntered]
      exact .of_sameInKind (Or.inr ⟨_, rfl, rfl⟩) _
  | none =>
      have otherEntry := sameEntry.symm.trans entry
      have entered :=
        @enter_of_not_entryFault? (machine.hold function).2 _ _ _ arguments
          atRest.emptyStack atRest.noFrames (atRest.get?_hold function) agrees.defined entry
      have otherEntered :=
        @enter_of_not_entryFault? (other.hold otherFunction).2 _ _ _ otherArguments
          otherAtRest.emptyStack otherAtRest.noFrames (otherAtRest.get?_hold otherFunction)
          agrees.otherDefined otherEntry
      have sameHeld : (machine.hold function).2.options = (other.hold otherFunction).2.options :=
        sameOptions
      have sameRoutine :
          (Routine.outermost (machine.hold function).2.options agrees.defined).outline =
            (Routine.outermost (other.hold otherFunction).2.options
              agrees.otherDefined).outline := by
        rw [agrees.outline_outermost_eq, sameHeld]
      have sameStart :
          (⟨0, arguments.reverse⟩ : Activation).outline =
            (⟨0, otherArguments.reverse⟩ : Activation).outline := by
        simp only [Activation.outline, List.map_reverse, sameKinds]
      simp only [entered, otherEntered, states]
      rw [← stepBound_place_congr sameRoutine sameStart]
      exact
        Host.sideBySide_place sameRoutine sameStart ⟨rfl, rfl⟩ ⟨rfl, rfl⟩
          (fits_of_entryFault? agrees.defined entry)
          (fits_of_entryFault? agrees.otherDefined otherEntry) (stepBound_place _ _ _)

/--
Functions that differ in the contents of constants and arguments only, invoked on machines at rest
with the same options, run side by side: they are in states alike, by the kinds of all operands and
the instruction that comes next, up to where one of them divides by zero, asserts what does not
hold or takes an undefined power.  If neither does, they go through all of the states together,
and give values of one kind or the same error.  An invocation is aborted exactly when it comes to
an undefined power.
-/
theorem invoke_depends_on_kinds
    {machine other : Machine}
    (atRest : machine.AtRest)
    (otherAtRest : other.AtRest)
    (sameOptions : machine.options = other.options)
    {function otherFunction : Function}
    {chunk otherChunk : Chunk}
    (agrees : function.AgreesInKinds otherFunction chunk otherChunk)
    {arguments otherArguments : List Value}
    (sameKinds : arguments.map Value.kind = otherArguments.map Value.kind) :
    let ended := (machine.invoke (some function) arguments).1
    let otherEnded := (other.invoke (some otherFunction) otherArguments).1
    let trace := (machine.invocationStates function arguments).map outline
    let otherTrace := (other.invocationStates otherFunction otherArguments).map outline
    SideBySide trace otherTrace ended otherEnded ∧
      (¬ ended.TurnsOnContent → ¬ otherEnded.TurnsOnContent → trace = otherTrace) ∧
        (ended = .aborted ↔
          ∃ state ∈ machine.invocationStates function arguments, state.AtUndefinedPower) ∧
        (otherEnded = .aborted ↔
          ∃ state ∈ other.invocationStates otherFunction otherArguments,
            state.AtUndefinedPower) := by
  intro ended otherEnded trace otherTrace
  obtain ⟨_, _, invoked, _⟩ := atRest.invoke_eq agrees.defined arguments
  obtain ⟨_, _, otherInvoked, _⟩ := otherAtRest.invoke_eq agrees.otherDefined otherArguments
  have endedShape : ended = Routine.invoke machine.options agrees.defined arguments :=
    congrArg Prod.fst invoked
  have otherEndedShape :
      otherEnded = Routine.invoke other.options agrees.otherDefined otherArguments :=
    congrArg Prod.fst otherInvoked
  have runs : SideBySide trace otherTrace ended otherEnded := by
    rw [endedShape, otherEndedShape]
    exact atRest.sideBySide_invoke otherAtRest sameOptions agrees sameKinds
  refine ⟨runs, runs.trace_eq, ?_, ?_⟩
  · rw [endedShape]
    exact atRest.invoke_eq_aborted_iff agrees.defined arguments
  · rw [otherEndedShape]
    exact otherAtRest.invoke_eq_aborted_iff agrees.otherDefined otherArguments

/-- Code that divides its argument by a constant and turns the sign of the quotient. -/
def negatedQuotient (divisor : Int32) : Function :=
  { name := "f"
    arity := 1
    chunk? := some
      { code :=
          [⟨.opcode, Opcode.constant.byte⟩, ⟨.constantIndex, 0⟩,
            ⟨.opcode, Opcode.quotient.byte⟩, ⟨.opcode, Opcode.negate.byte⟩,
            ⟨.opcode, Opcode.return.byte⟩]
        lines := [1, 1, 2, 3, 3]
        constants := [.integer divisor] } }

theorem agreesInKinds_negatedQuotient
    (divisor other : Int32) :
    ∃ chunk otherChunk,
      (negatedQuotient divisor).AgreesInKinds (negatedQuotient other) chunk otherChunk :=
  ⟨_, _, rfl, rfl, rfl, rfl, rfl, rfl, rfl⟩

/-- A divisor other than zero gives a whole number too, and zero is reported where it divides. -/
theorem invoke_negatedQuotient :
    let states (machine : Machine) (divisor argument : Int32) :=
      (machine.invocationStates (negatedQuotient divisor) [.integer argument]).map outline
    states (new .standard) 2 7 = states holdingNative 3 (-9) ∧
      states holdingNative 0 5 <+: states (new .standard) 2 7 ∧
        (holdingNative.invoke (some (negatedQuotient 0)) [.integer 5]).1 =
          .failed
            { line := 2
              function := "<fn f/1>"
              fault := .arithmetic (.divisionByZero .quotient 5) } := by
  intro states
  have first : ((new .standard).invoke (some (negatedQuotient 2)) [.integer 7]).1 =
      .done (.integer (-3)) :=
    rfl
  have second : (holdingNative.invoke (some (negatedQuotient 3)) [.integer (-9)]).1 =
      .done (.integer 3) :=
    rfl
  have third : (holdingNative.invoke (some (negatedQuotient 0)) [.integer 5]).1 =
      .failed
        { line := 2
          function := "<fn f/1>"
          fault := .arithmetic (.divisionByZero .quotient 5) } :=
    rfl
  obtain ⟨chunk, otherChunk, agrees⟩ := agreesInKinds_negatedQuotient 2 3
  obtain ⟨_, sameTrace, _, _⟩ :=
    @invoke_depends_on_kinds _ _ (atRest_new .standard) atRest_holdingNative rfl _ _ _ _ agrees
      [.integer 7] [.integer (-9)] rfl
  obtain ⟨zeroChunk, plainChunk, zeroAgrees⟩ := agreesInKinds_negatedQuotient 0 2
  obtain ⟨runs, _, _, _⟩ :=
    @invoke_depends_on_kinds _ _ atRest_holdingNative (atRest_new .standard) rfl _ _ _ _
      zeroAgrees [.integer 5] [.integer 7] rfl
  refine ⟨sameTrace ?_ ?_, ?_, third⟩
  · rw [first]
    exact id
  · rw [second]
    exact id
  · rcases runs.comparable with isPrefix | isPrefix
    · exact isPrefix
    · have notShorter := mt runs.longer (by rw [first]; exact id)
      have sameStates := isPrefix.eq_of_length_le (Nat.le_of_not_lt notShorter)
      exact ⟨[], (List.append_nil _).trans sameStates.symm⟩

/-- Code that takes a power of the complex zero which is defined. -/
def definedPower : Function :=
  { undefinedPower with
    chunk? := undefinedPower.chunk?.map fun chunk =>
      { chunk with constants := [.complex ⟨0, 0⟩, .complex ⟨1, 0⟩] } }

/-- Of two powers of the complex zero with exponents of one kind, one is given and one aborted. -/
theorem invoke_definedPower_not_undefinedPower :
    (∃ chunk otherChunk, definedPower.AgreesInKinds undefinedPower chunk otherChunk) ∧
      (∃ value, ((new .standard).invoke (some definedPower) []).1 = .done value) ∧
        ((new .standard).invoke (some undefinedPower) []).1 = .aborted :=
  ⟨⟨_, _, rfl, rfl, rfl, rfl, rfl, rfl, rfl⟩, ⟨_, rfl⟩, rfl⟩

end Machine

end Reckon
