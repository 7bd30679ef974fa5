import Reckon.Proofs.Machine.Termination

namespace Reckon

/-!
# Frames run alone

A frame runs on a machine as it would run alone: nothing that lies below it on the stack, and no
frame around it, has a part in what it does.  Alone it has the same room for operands above it, so
that it goes through the same activations to the same end.  The machine then goes on with the
value of the frame in the place of its function, for which there is always room.
-/

namespace Fault

/-- The fault as it is worded under another limit of the stack. -/
def under (limit : Int64) : Fault → Fault
  | .stackFull _ => .stackFull limit
  | fault => fault

/-- The limit is no part of the cause. -/
theorem cause_under
    (limit : Int64)
    (fault : Fault) :
    (fault.under limit).cause = fault.cause := by
  cases fault <;> rfl

end Fault

/-- The error as it is worded under another limit of the stack. -/
def RuntimeError.under (limit : Int64) (error : RuntimeError) : RuntimeError :=
  { error with fault := error.fault.under limit }

/-- The same turn under another limit of the stack. -/
def Turn.under (limit : Int64) : Turn → Turn
  | .failed fault after => .failed (fault.under limit) after
  | turn => turn

namespace Activation

variable
  (activation : Activation)
  (limit : Int64)

theorem under_binary
    (operator : Operator) :
    (activation.binary operator).under limit = activation.binary operator := by
  unfold binary
  split
  · split <;> rfl
  · rfl

theorem under_unary
    (function : Value → Except ArithmeticFault Value) :
    (activation.unary function).under limit = activation.unary function := by
  unfold unary
  split
  · split <;> rfl
  · rfl

theorem under_discard :
    activation.discard.under limit = activation.discard := by
  unfold discard
  split <;> rfl

theorem under_assertTop :
    activation.assertTop.under limit = activation.assertTop := by
  unfold assertTop
  split <;> rfl

theorem under_returnTop :
    activation.returnTop.under limit = activation.returnTop := by
  unfold returnTop
  split <;> rfl

end Activation

namespace Routine

/--
The course of a function that runs: the activations before each of its steps, the activation that
it is left at, and its outcome.
-/
inductive Course (routine : Routine) :
    Activation → List Activation → Activation → Outcome RuntimeError Value → Prop where
  | next
      {activation after last : Activation}
      {path : List Activation}
      {outcome : Outcome RuntimeError Value}
      (stepped : routine.step activation = .next after)
      (rest : routine.Course after path last outcome) :
      routine.Course activation (activation :: path) last outcome
  | returned
      {activation : Activation}
      {value : Value}
      (stepped : routine.step activation = .returned value) :
      routine.Course activation [activation] activation (.done value)
  | failed
      {activation after : Activation}
      {fault : Fault}
      (stepped : routine.step activation = .failed fault after) :
      routine.Course activation [activation] after
        (.failed (routine.errorAt activation fault))
  | aborted
      {activation after : Activation}
      (stepped : routine.step activation = .aborted after) :
      routine.Course activation [activation] after .aborted

/-- Every function that runs comes to the end of a course. -/
theorem exists_course
    (routine : Routine)
    (activation : Activation) :
    ∃ path last outcome, routine.Course activation path last outcome := by
  induction activation using run.induct routine with
  | case1 activation after stepped inductionHypothesis =>
      obtain ⟨path, last, outcome, course⟩ := inductionHypothesis
      exact ⟨_, _, _, .next stepped course⟩
  | case2 activation value stepped =>
      exact ⟨_, _, _, .returned stepped⟩
  | case3 activation fault after stepped =>
      exact ⟨_, _, _, .failed stepped⟩
  | case4 activation after stepped =>
      exact ⟨_, _, _, .aborted stepped⟩

/-- The function with nothing below it, and as much room above. -/
def isolated (routine : Routine) : Routine :=
  { routine with limit := routine.limit - Int64.ofNat routine.base, base := 0 }

section Isolated

variable
  {routine : Routine}
  (room : (routine.base : Int) ≤ routine.limit.toInt)

include room

/-- The limit is lowered by as many operands as lie below. -/
theorem toInt_limit_isolated :
    routine.isolated.limit.toInt = routine.limit.toInt - routine.base := by
  have bounded := routine.limit.toInt_lt
  have counted : (Int64.ofNat routine.base).toInt = routine.base :=
    Int64.toInt_ofNat_of_lt (by omega)
  simp only [isolated, Int64.toInt_sub, counted]
  exact Int.bmod_eq_of_le (by omega) (by omega)

/-- Without what is below it, a function has the same room left. -/
theorem isFull_isolated_iff
    (activation : Activation) :
    routine.isolated.IsFull activation ↔ routine.IsFull activation := by
  have lowered := toInt_limit_isolated room
  have noneBelow : routine.isolated.base = 0 :=
    rfl
  unfold IsFull
  rw [lowered, noneBelow]
  omega

/-- Operands fit with nothing below them as they do above others. -/
theorem fits_isolated_iff
    (activation : Activation) :
    routine.isolated.Fits activation ↔ routine.Fits activation := by
  have lowered := toInt_limit_isolated room
  have noneBelow : routine.isolated.base = 0 :=
    rfl
  unfold Fits
  rw [lowered, noneBelow]
  omega

/-- Pushing a value goes as in isolation, but for the limit that is worded. -/
theorem push_eq_isolated
    (activation : Activation)
    (value : Value) :
    routine.push activation value =
      (routine.isolated.push activation value).under routine.limit := by
  simp only [push, isFull_isolated_iff room]
  split <;> rfl

/-- Loading a constant goes as in isolation, but for the limit that is worded. -/
theorem load_eq_isolated
    (activation : Activation) :
    routine.load activation = (routine.isolated.load activation).under routine.limit := by
  have sameChunk : routine.isolated.chunk = routine.chunk :=
    rfl
  unfold load
  rw [sameChunk]
  split
  · rfl
  · split
    · rfl
    · split
      · rfl
      · exact push_eq_isolated room _ _

/-- Every instruction goes as in isolation, but for the limit that is worded. -/
theorem execute_eq_isolated
    (activation : Activation)
    (opcode : Opcode) :
    routine.execute activation opcode =
      (routine.isolated.execute activation opcode).under routine.limit := by
  unfold execute
  split
  · exact (activation.under_binary _ _).symm
  · split
    · exact load_eq_isolated room activation
    · exact push_eq_isolated room activation _
    · exact push_eq_isolated room activation _
    · exact (activation.under_unary _ _).symm
    · exact (activation.under_unary _ _).symm
    · exact (activation.under_discard _).symm
    · exact (activation.under_returnTop _).symm
    · exact (activation.under_assertTop _).symm
    · rfl

/-- A step is that of the function alone. -/
theorem step_eq_isolated
    (activation : Activation) :
    routine.step activation = (routine.isolated.step activation).under routine.limit := by
  have sameChunk : routine.isolated.chunk = routine.chunk :=
    rfl
  unfold step
  rw [sameChunk]
  split
  · rfl
  · split
    · split
      · exact execute_eq_isolated room _ _
      · rfl
    · rfl

/-- A course is that of the function alone. -/
theorem Course.of_isolated
    {activation last : Activation}
    {path : List Activation}
    {outcome : Outcome RuntimeError Value}
    (course : routine.isolated.Course activation path last outcome) :
    routine.Course activation path last
      (outcome.mapFailure (RuntimeError.under routine.limit)) := by
  induction course with
  | @next activation _ _ _ _ stepped _ inductionHypothesis =>
      refine .next ?_ inductionHypothesis
      rw [step_eq_isolated room, stepped]
      rfl
  | @returned activation _ stepped =>
      refine .returned ?_
      rw [step_eq_isolated room, stepped]
      rfl
  | @failed activation _ fault stepped =>
      refine @failed routine activation _ (fault.under routine.limit) ?_
      rw [step_eq_isolated room, stepped]
      rfl
  | @aborted activation _ stepped =>
      refine .aborted ?_
      rw [step_eq_isolated room, stepped]
      rfl

end Isolated

end Routine

namespace Machine

/-- The machine with its innermost frame at an activation, above other operands and frames. -/
def running
    (machine : Machine)
    (frame : Frame)
    (bottom : List Value)
    (outer : List Frame)
    (activation : Activation) :
    Machine :=
  { machine with
    stack := activation.operands ++ bottom
    frames := { frame with position := activation.position } :: outer }

/-- The machine with a frame and its operands alone, and as much room for more of them. -/
def alone
    (machine : Machine)
    (frame : Frame)
    (operands : List Value)
    (depth : Nat)
    (slot : Value) :
    Machine :=
  { machine with
    options :=
      { machine.options with
        stackSize := machine.options.stackSize - Int64.ofNat depth }
    stack := operands ++ [slot]
    frames := [{ frame with slotBase := 0 }] }

/--
The machine runs its innermost frame through some activations, and changes neither the slot of the
function nor what lies below.  It returns the value of the outermost frame and leaves what lay
below; it goes on in the frames around another one with its value on top, for which there is room;
and it stops with the frame otherwise.
-/
def RunsFrame
    (machine : Machine)
    (frame : Frame)
    (slot : Value)
    (below : List Value)
    (outer : List Frame)
    (path : List Activation)
    (last : Activation)
    (outcome : Outcome RuntimeError Value) :
    Prop :=
  let place : Activation → Machine := machine.running frame (slot :: below) outer
  match outcome, outer with
  | .done value, [] =>
      machine.states = path.map place ∧
        machine.run = (.done value, { machine with stack := below, frames := [] })
  | .done value, _ :: _ =>
      let resumed : Machine := { machine with stack := value :: below, frames := outer }
      machine.states = path.map place ++ resumed.states ∧
        machine.run = resumed.run ∧
          (resumed.depth : Int) ≤ resumed.options.stackSize.toInt
  | .failed error, _ =>
      machine.states = path.map place ∧ machine.run = (.failed error, place last)
  | .aborted, _ =>
      machine.states = path.map place ∧ machine.run = (.aborted, place last)

/-- The outcome of the outermost frame is that of the run. -/
theorem RunsFrame.outcome_eq
    {machine : Machine}
    {frame : Frame}
    {slot : Value}
    {below : List Value}
    {path : List Activation}
    {last : Activation}
    {outcome : Outcome RuntimeError Value}
    (runs : machine.RunsFrame frame slot below [] path last outcome) :
    outcome = machine.run.1 := by
  cases outcome with
  | done value | failed error | aborted =>
      rw [runs.2]

end Machine

namespace Host

variable
  {host : Host}
  {routine : Routine}

/-- A run begins with the step of the activation. -/
theorem run_place
    (carries : host.Carries routine)
    {activation : Activation}
    (fits : routine.Fits activation) :
    (host.place routine activation).states =
        host.place routine activation ::
          (host.turn routine activation (routine.step activation)).states ∧
      (host.place routine activation).run =
        (host.turn routine activation (routine.step activation)).run := by
  rw [Machine.states_eq, Machine.run_eq, step_place carries fits]
  exact ⟨rfl, rfl⟩

/--
A machine goes through the course of the function that it runs.  A step adds a state in front, and
the rest of the course ends in the same place.
-/
theorem runsFrame_place
    (carries : host.Carries routine)
    {activation last : Activation}
    {path : List Activation}
    {outcome : Outcome RuntimeError Value}
    (course : routine.Course activation path last outcome)
    (fits : routine.Fits activation) :
    (host.place routine activation).RunsFrame (routine.frame activation) host.callee host.below
      host.frames path last outcome := by
  obtain ⟨machine, callee, below, frames⟩ := host
  induction course with
  | @next activation after last path outcome turned _ inductionHypothesis =>
      obtain ⟨states, run⟩ := run_place carries fits
      have regular := @Routine.regular_step routine activation
      rw [turned] at regular states run
      have continued := inductionHypothesis (regular.fits fits)
      match outcome, frames with
      | .done value, [] =>
          obtain ⟨restStates, restRun⟩ := continued
          exact ⟨states.trans (congrArg _ restStates), run.trans restRun⟩
      | .done value, _ :: _ =>
          obtain ⟨restStates, restRun, room⟩ := continued
          exact ⟨states.trans (congrArg _ restStates), run.trans restRun, room⟩
      | .failed error, _ | .aborted, _ =>
          obtain ⟨restStates, restRun⟩ := continued
          exact ⟨states.trans (congrArg _ restStates), run.trans restRun⟩
  | returned turned =>
      obtain ⟨states, run⟩ := run_place carries fits
      rw [turned] at states run
      cases frames with
      | nil =>
          exact ⟨states, run⟩
      | cons frame frames =>
          refine ⟨states, run, ?_⟩
          simp only [Routine.Fits, carries.limited, carries.based] at fits
          simp only [Machine.depth, List.length_cons, place, withStack]
          omega
  | failed turned | aborted turned =>
      obtain ⟨states, run⟩ := run_place carries fits
      rw [turned] at states run
      exact ⟨states, run⟩

end Host

/-- The function that a frame runs, under a limit and above so many operands. -/
def Frame.routine
    (frame : Frame)
    {chunk : Chunk}
    (defined : frame.function.chunk? = some chunk)
    (limit : Int64)
    (base : Nat) :
    Routine :=
  { function := frame.function
    chunk := chunk
    defined := defined
    limit := limit
    base := base }

namespace Machine

/-- A machine runs its innermost frame through the course of the frame's function. -/
theorem runsFrame_of_course
    {machine : Machine}
    {frame : Frame}
    {outer : List Frame}
    {chunk : Chunk}
    {operands below : List Value}
    {callee : Value}
    (framesShape : machine.frames = frame :: outer)
    (stackShape : machine.stack = operands ++ callee :: below)
    (defined : frame.function.chunk? = some chunk)
    (based : frame.slotBase = Int64.ofNat below.length)
    {path : List Activation}
    {last : Activation}
    {outcome : Outcome RuntimeError Value}
    (course :
      (frame.routine defined machine.options.stackSize below.length).Course
        { position := frame.position, operands := operands } path last outcome)
    (fits :
      (frame.routine defined machine.options.stackSize below.length).Fits
        { position := frame.position, operands := operands }) :
    machine.RunsFrame frame callee below outer path last outcome := by
  obtain ⟨options, stack, frames, globals, interned, heap⟩ := machine
  obtain ⟨function, position, slotBase⟩ := frame
  cases framesShape
  cases stackShape
  cases based
  exact @Host.runsFrame_place ⟨_, callee, below, outer⟩ _ ⟨rfl, rfl⟩ _ _ _ _ course fits

/--
The innermost frame of a machine runs as it would alone, with one slot below its operands and as
much room above them, whatever lies in the slot.  An error is the same but for the limit that it
names.
-/
theorem innermost_frame_runs_as_alone
    {machine : Machine}
    {frame : Frame}
    {outer : List Frame}
    {chunk : Chunk}
    {operands below : List Value}
    {callee : Value}
    (framesShape : machine.frames = frame :: outer)
    (stackShape : machine.stack = operands ++ callee :: below)
    (defined : frame.function.chunk? = some chunk)
    (based : frame.slotBase.toInt = below.length)
    (room : (machine.depth : Int) ≤ machine.options.stackSize.toInt) :
    let limit := machine.options.stackSize
    let alone : Value → Machine := machine.alone frame operands below.length
    (alone callee).options.stackSize.toInt = limit.toInt - below.length ∧
      ∃ path last outcome,
        (∀ slot,
          (alone slot).RunsFrame { frame with slotBase := 0 } slot [] [] path last outcome) ∧
          machine.RunsFrame frame callee below outer path last
              (outcome.mapFailure (RuntimeError.under limit)) ∧
            ∀ error,
              outcome = .failed error →
              let nested := error.under limit
              nested.line = error.line ∧
                nested.function = error.function ∧
                  nested.fault.cause = error.fault.cause := by
  intro limit alone
  let routine := frame.routine defined limit below.length
  let start : Activation := { position := frame.position, operands := operands }
  have counted : machine.depth = operands.length + (below.length + 1) := by
    simp [depth, stackShape]
  have fits : routine.Fits start := by
    simp only [Routine.Fits, routine, start, limit, Frame.routine]
    omega
  have enough : (below.length : Int) ≤ limit.toInt := by
    simp only [limit]
    omega
  have slotBaseShape : frame.slotBase = Int64.ofNat below.length := by
    have bounded := limit.toInt_lt
    rw [← Int64.toInt_inj, based, Int64.toInt_ofNat_of_lt (by omega)]
  obtain ⟨path, last, outcome, course⟩ := routine.isolated.exists_course start
  refine ⟨@Routine.toInt_limit_isolated routine enough, path, last, outcome, fun slot => ?_, ?_,
    fun error _ => ⟨rfl, rfl, Fault.cause_under limit error.fault⟩⟩
  · exact
      @runsFrame_of_course (alone slot) { frame with slotBase := 0 } [] chunk operands [] slot
        rfl rfl defined rfl _ _ _ course
        ((@Routine.fits_isolated_iff routine enough start).mpr fits)
  · exact runsFrame_of_course framesShape stackShape defined slotBaseShape
      (@Routine.Course.of_isolated routine enough _ _ _ _ course) fits

/-- Code that loads a constant and returns it. -/
def returnsFive : Function :=
  { name := "f"
    arity := 0
    chunk? := some
      { code :=
          [⟨.opcode, Opcode.constant.byte⟩, ⟨.constantIndex, 0⟩,
            ⟨.opcode, Opcode.return.byte⟩]
        lines := [7, 7, 7]
        constants := [.integer 5] } }

/-- A frame of code that adds its two operands and returns the sum. -/
def addingFrame : Frame :=
  { function :=
      { name := "g"
        arity := 0
        chunk? := some
          { code := [⟨.opcode, Opcode.add.byte⟩, ⟨.opcode, Opcode.return.byte⟩]
            lines := [9, 9]
            constants := [] } }
    position := 0
    slotBase := 0 }

/-- A machine in the middle of an addition whose right operand is called for. -/
def nestedCall (stackSize : Int64) : Machine :=
  { new .standard with
    options := { MachineOptions.standard with stackSize := stackSize }
    stack := [.object ⟨1, 0⟩, .integer 1, .object ⟨0, 0⟩]
    frames := [{ function := returnsFive, position := 0, slotBase := 2 }, addingFrame] }

/-- The value of the inner frame is added, unless there is no room to load it. -/
theorem nestedCall_runs_as_alone :
    (nestedCall 4).run =
        { nestedCall 4 with
          stack := [.integer 5, .integer 1, .object ⟨0, 0⟩]
          frames := [addingFrame] }.run ∧
      (nestedCall 4).run.1 = .done (.integer 6) ∧
        (nestedCall 3).run.1 =
          .failed { line := 7, function := "<fn f/0>", fault := .stackFull 3 } := by
  have isolated (stackSize : Int64) (enough : 3 ≤ stackSize.toInt) :=
    @innermost_frame_runs_as_alone (nestedCall stackSize) _ _ _ [] _ _ rfl rfl rfl rfl enough
  obtain ⟨_, _, _, outcome, alone, nested, _⟩ := isolated 4 (by decide)
  obtain rfl : outcome = .done (.integer 5) :=
    (alone (.object ⟨1, 0⟩)).outcome_eq.trans rfl
  obtain ⟨_, _, _, outcome, alone, full, _⟩ := isolated 3 (by decide)
  obtain rfl : outcome = .failed { line := 7, function := "<fn f/0>", fault := .stackFull 1 } :=
    (alone (.object ⟨1, 0⟩)).outcome_eq.trans rfl
  exact ⟨nested.2.1, congrArg Prod.fst nested.2.1, congrArg Prod.fst full.2⟩

end Machine

end Reckon
