import Reckon.Proofs.Bytecode.Listings
import Reckon.Proofs.Machine.Invocation

namespace Reckon

/-!
# Fetching at boundaries

While a machine runs a function whose chunk passes its check, it reads opcodes at the boundaries
of the chunk only, one after the other from the first.  The code can then be blamed for two things
at most: that it does not end with a return, and that it takes operands that are not there.  A
listing of the chunk shows the same boundaries.
-/

namespace Action

/-- The action leaves the frames alone, and blames the code for missing operands at most. -/
structure InFrame {α : Type} (action : Action α) : Prop where
  frames : ∀ machine, (action machine).2.frames = machine.frames
  faults :
    ∀ machine fault,
      (action machine).1 = .failed fault →
      fault.cause = .malformedBytecode →
      fault = .underflow

namespace InFrame

variable {α β : Type}

/-- Actions in a frame, one after the other, stay in it. -/
theorem next
    {action : Action α}
    {following : α → Action β}
    (first : action.InFrame)
    (rest : ∀ value, (following value).InFrame) :
    (action.next following).InFrame := by
  constructor
  · intro machine
    have kept := first.frames machine
    simp only [Action.next]
    split
    next value after ended =>
      rw [ended] at kept
      rw [(rest value).frames after, kept]
    next ended =>
      rwa [ended] at kept
    next ended =>
      rwa [ended] at kept
  · intro machine fault failed blamed
    simp only [Action.next] at failed
    split at failed
    next value after ended =>
      exact (rest value).faults after fault failed blamed
    next ended =>
      cases failed
      exact first.faults machine fault (by rw [ended]) blamed
    next =>
      cases failed

theorem result
    (value : α) :
    (Action.result value).InFrame := by
  refine ⟨fun _ => rfl, fun _ _ failed => ?_⟩
  cases failed

/-- A fault that does not blame the code is raised in the frame. -/
theorem fail
    {fault : Fault}
    (blameless : fault.cause ≠ .malformedBytecode) :
    (Action.fail fault : Action α).InFrame := by
  refine ⟨fun _ => rfl, fun _ other failed blamed => ?_⟩
  cases failed
  exact (blameless blamed).elim

theorem arithmetic
    (outcome : Outcome ArithmeticFault α) :
    (Action.arithmetic outcome).InFrame := by
  refine ⟨fun _ => rfl, fun _ fault failed blamed => ?_⟩
  cases outcome with
  | done value =>
      cases failed
  | failed problem =>
      cases failed
      cases problem <;> cases blamed
  | aborted =>
      cases failed

theorem push
    (value : Value) :
    (Action.push value).InFrame := by
  constructor
  · intro machine
    unfold Action.push
    split <;> rfl
  · intro machine fault failed blamed
    unfold Action.push at failed
    split at failed <;> cases failed
    cases blamed

theorem pop :
    Action.pop.InFrame := by
  constructor
  · intro machine
    unfold Action.pop
    split <;> rfl
  · intro machine fault failed
    unfold Action.pop at failed
    split at failed <;> cases failed

theorem require
    (count : Int64) :
    (Action.require count).InFrame := by
  constructor
  · intro machine
    unfold Action.require
    split <;> rfl
  · intro machine fault failed _
    unfold Action.require at failed
    split at failed <;> cases failed
    rfl

theorem inner
    {action : Action Unit}
    (inFrame : action.InFrame) :
    (Action.inner action).InFrame :=
  inFrame.next fun _ => result none

theorem binary
    (operator : Operator) :
    (Action.binary operator).InFrame :=
  (require 2).next fun _ => pop.next fun _ => pop.next fun _ =>
    (arithmetic _).next fun value => push value

theorem unary
    (function : Value → Except ArithmeticFault Value) :
    (Action.unary function).InFrame :=
  (require 1).next fun _ => pop.next fun _ => (arithmetic _).next fun value => push value

theorem discard :
    Action.discard.InFrame :=
  (require 1).next fun _ => pop.next fun _ => result ()

theorem assertTop :
    Action.assertTop.InFrame := by
  refine (require 1).next fun _ => pop.next fun condition => ?_
  split
  · exact result ()
  · exact fail nofun
  · exact fail nofun

end InFrame

/--
How an instruction may end that does not blame the code for more than missing operands: in the
frame that has moved on, or in the frames around it.
-/
def Settles
    (moved outer : List Frame) :
    Outcome Fault (Option Value) × Machine → Prop
  | (.done none, after) => after.frames = moved ∨ after.frames = outer
  | (.failed fault, _) => fault.cause = .malformedBytecode → fault = .underflow
  | (.done (some _), _) | (.aborted, _) => True

section Instructions

variable
  {machine : Machine}
  {moved outer : List Frame}

/-- An action in the frame settles wherever the frames already are. -/
theorem InFrame.settles
    {action : Action (Option Value)}
    (inFrame : action.InFrame)
    (inPlace : machine.frames = moved ∨ machine.frames = outer) :
    Settles moved outer (action machine) := by
  have kept := inFrame.frames machine
  have blameless := inFrame.faults machine
  rcases ended : action machine with ⟨outcome, after⟩
  rw [ended] at kept blameless
  match outcome with
  | .done none => exact inPlace.imp kept.trans kept.trans
  | .done (some _) => exact True.intro
  | .failed fault => exact blameless fault rfl
  | .aborted => exact True.intro

/-- An action in the frame settles if what follows it does. -/
theorem InFrame.settles_next
    {α : Type}
    {action : Action α}
    {following : α → Action (Option Value)}
    (inFrame : action.InFrame)
    (rest :
      ∀ value after,
        after.frames = machine.frames →
        Settles moved outer (following value after)) :
    Settles moved outer (action.next following machine) := by
  have kept := inFrame.frames machine
  have blameless := inFrame.faults machine
  simp only [Action.next]
  split
  next value after ended =>
    rw [ended] at kept
    exact rest value after kept
  next fault after ended =>
    rw [ended] at blameless
    exact blameless fault rfl
  next =>
    exact True.intro

/-- A constant that is there is loaded from behind the opcode. -/
theorem settles_constant
    {frame : Frame}
    (framesShape : machine.frames = frame :: outer)
    {chunk : Chunk}
    {index : CodeUnit}
    {value : Value}
    (isIndex : index.kind = .constantIndex)
    (present : chunk.constants[index.byte.toNat]? = some value) :
    Settles ({ frame with position := frame.position + 1 } :: outer) outer
      (inner (constant chunk (some index)) machine) := by
  have loaded :
      inner (constant chunk (some index)) machine =
        inner (push value)
          { machine with
            frames := { frame with position := frame.position + 1 } :: outer } := by
    simp only [inner, constant, isIndex, present, ne_eq, not_true_eq_false, ↓reduceIte, bind,
      Action.next, skip, framesShape]
  rw [loaded]
  exact (InFrame.push value).inner.settles (Or.inl rfl)

/-- A return goes on in the frames around, if there are any. -/
theorem settles_returnTop
    {frame : Frame}
    (framesShape : machine.frames = frame :: outer) :
    Settles moved outer (returnTop machine) := by
  refine (InFrame.require 1).settles_next fun _ required requiredFrames => ?_
  refine InFrame.pop.settles_next fun value popped poppedFrames => ?_
  have poppedShape : popped.frames = frame :: outer := by
    rw [poppedFrames, requiredFrames, framesShape]
  simp only [bind, Action.next, leave, poppedShape]
  split
  next left ended =>
    split at ended <;> cases ended
    split
    next => exact True.intro
    next =>
      exact ((InFrame.push value).next fun _ => .result none).settles (Or.inr rfl)
  next ended =>
    split at ended <;> cases ended
  next =>
    exact True.intro

/-- A whole instruction moves the frame past its operands, or leaves it. -/
theorem settles_execute
    {frame : Frame}
    {chunk : Chunk}
    {opcode : Opcode}
    (instruction : chunk.HasInstruction frame.position opcode)
    (framesShape :
      machine.frames = { frame with position := frame.position + 1 } :: outer) :
    Settles ({ frame with position := frame.position + 1 + opcode.width } :: outer) outer
      (execute chunk frame.position opcode machine) := by
  have inPlace
      {action : Action (Option Value)}
      (inFrame : action.InFrame) :
      Settles ({ frame with position := frame.position + 1 + 0 } :: outer) outer
        (action machine) :=
    inFrame.settles (Or.inl framesShape)
  cases opcode with
  | constant =>
      obtain ⟨index, value, present, isIndex, constantPresent⟩ := instruction.operand rfl
      simp only [execute, present]
      exact settles_constant framesShape isIndex constantPresent
  | true | false =>
      exact inPlace (InFrame.push _).inner
  | add | subtract | multiply | divide | quotient | power | equal | notEqual | greater
  | greaterEqual | less | lessEqual =>
      exact inPlace (InFrame.binary _).inner
  | not | negate =>
      exact inPlace (InFrame.unary _).inner
  | noop =>
      exact inPlace (InFrame.result none)
  | pop =>
      exact inPlace InFrame.discard.inner
  | «return» =>
      exact settles_returnTop framesShape
  | assert =>
      exact inPlace InFrame.assertTop.inner

end Instructions

end Action

namespace Machine

/-- How a step ends that executes a whole instruction of the innermost frame. -/
def Advances (moved outer : List Frame) : Step → Prop
  | .next after => after.frames = moved ∨ after.frames = outer
  | .failed error _ => error.fault.cause = .malformedBytecode → error.fault = .underflow
  | .returned _ _ | .aborted _ => True

section Steps

variable
  {machine : Machine}
  {frame : Frame}
  {outer : List Frame}
  {chunk : Chunk}
  (framesShape : machine.frames = frame :: outer)
  (defined : frame.function.chunk? = some chunk)

include framesShape defined

/-- A step executes the instruction at the position of the innermost frame. -/
theorem advances_step
    {opcode : Opcode}
    (instruction : chunk.HasInstruction frame.position opcode) :
    Advances ({ frame with position := frame.position + 1 + opcode.width } :: outer) outer
      machine.step := by
  obtain ⟨unit, present, isOpcode, isDefined⟩ := instruction.read
  have settles :=
    @Action.settles_execute
      { machine with frames := { frame with position := frame.position + 1 } :: outer } outer
      frame chunk opcode instruction rfl
  simp only [step, framesShape, defined, Frame.opcodeAt, present, isOpcode, ↓reduceIte, dispatch,
    isDefined, bind, Action.next, Action.skip]
  split
  next ended =>
    exact True.intro
  next ended =>
    rwa [ended] at settles
  next ended =>
    rwa [ended] at settles
  next =>
    exact True.intro

/-- There is nothing to execute behind the code. -/
theorem step_of_position_eq_length
    (past : frame.position = chunk.code.length) :
    machine.step =
      .failed (frame.errorAt chunk frame.position (.pastEnd frame.function.text)) machine := by
  have absent : chunk.code[frame.position]? = none :=
    List.getElem?_eq_none (Nat.le_of_eq past.symm)
  simp only [step, framesShape, defined, Frame.opcodeAt, absent]

end Steps

/-- The states of a run for as long as there are more than so many frames. -/
def statesAbove (machine : Machine) (count : Nat) : List Machine :=
  machine.states.takeWhile fun state => count < state.frames.length

section Runs

variable
  {chunk : Chunk}
  {frame : Frame}
  {outer : List Frame}
  (defined : frame.function.chunk? = some chunk)

include defined

/--
The frames of a function that runs move from one offset of its code to the next.  Once the frame
has been left, no later state belongs to it.
-/
theorem frames_prefix_of_partitions
    {offset : Nat}
    {offsets : List Nat}
    (partitions : chunk.Partitions offset offsets)
    {machine : Machine}
    (framesShape : machine.frames = { frame with position := offset } :: outer)
    (steps : Nat) :
    ((machine.statesFor steps).takeWhile
          fun state => outer.length < state.frames.length).map (·.frames) <+:
      (offsets ++ [chunk.code.length]).map
        fun position => { frame with position := position } :: outer := by
  induction steps generalizing machine offset offsets with
  | zero =>
      exact List.nil_prefix
  | succ steps inductionHypothesis =>
      have above : outer.length < machine.frames.length := by
        simp [framesShape]
      have endsHere (rest : List (List Frame)) :
          ([machine].takeWhile fun state => outer.length < state.frames.length).map
              (·.frames) <+:
            ({ frame with position := offset } :: outer) :: rest := by
        simp [framesShape]
      rw [statesFor]
      cases partitions with
      | done =>
          rw [step_of_position_eq_length framesShape defined rfl]
          exact endsHere []
      | next instruction following =>
          have advances := advances_step framesShape defined instruction
          cases stepped : machine.step with
          | next after =>
              rw [stepped] at advances
              simp only
              rw [List.takeWhile_cons_of_pos (by simpa using above), List.map_cons, framesShape,
                List.cons_append, List.map_cons, List.cons_prefix_cons]
              refine ⟨rfl, ?_⟩
              rcases advances with moved | left
              · exact inductionHypothesis following moved
              · cases steps with
                | zero =>
                    exact List.nil_prefix
                | succ steps =>
                    have empty :
                        ((after.statesFor (steps + 1)).takeWhile
                          fun state => outer.length < state.frames.length) = [] := by
                      rw [statesFor]
                      split <;> simp [left]
                    rw [empty]
                    exact List.nil_prefix
          | returned value after =>
              exact endsHere _
          | failed error after =>
              exact endsHere _
          | aborted after =>
              exact endsHere _

/-- Where the code is made of instructions, it is blamed for two things at most. -/
theorem fault_of_step_of_partitions
    {offset : Nat}
    {offsets : List Nat}
    (partitions : chunk.Partitions offset offsets)
    {position : Nat}
    (visited : position ∈ offsets ++ [chunk.code.length])
    {machine after : Machine}
    (framesShape : machine.frames = { frame with position := position } :: outer)
    {error : RuntimeError}
    (failed : machine.step = .failed error after)
    (blamed : error.fault.cause = .malformedBytecode) :
    error.fault = .pastEnd frame.function.text ∨ error.fault = .underflow := by
  rcases List.mem_append.mp visited with member | atEnd
  · obtain ⟨opcode, instruction⟩ := partitions.exists_hasInstruction member
    have advances := advances_step framesShape defined instruction
    rw [failed] at advances
    exact Or.inr (advances blamed)
  · obtain rfl := List.mem_singleton.mp atEnd
    rw [step_of_position_eq_length framesShape defined rfl] at failed
    cases failed
    exact Or.inl rfl

/-- A run of one frame blames the code that is made of instructions for two things at most. -/
theorem fault_of_runFor_of_partitions
    {offset : Nat}
    {offsets : List Nat}
    (partitions : chunk.Partitions offset offsets)
    {machine : Machine}
    (framesShape : machine.frames = [{ frame with position := offset }])
    {steps : Nat}
    {error : RuntimeError}
    (failed : (machine.runFor steps).1 = .failed error)
    (blamed : error.fault.cause = .malformedBytecode) :
    error.fault = .pastEnd frame.function.text ∨ error.fault = .underflow := by
  induction steps generalizing machine offset offsets with
  | zero =>
      cases failed
  | succ steps inductionHypothesis =>
      rw [runFor] at failed
      cases stepped : machine.step with
      | next after =>
          rw [stepped] at failed
          cases partitions with
          | done =>
              rw [step_of_position_eq_length framesShape defined rfl] at stepped
              cases stepped
          | next instruction following =>
              have advances := advances_step framesShape defined instruction
              rw [stepped] at advances
              rcases advances with moved | left
              · exact inductionHypothesis following moved failed
              · cases steps with
                | zero => cases failed
                | succ steps => simp [runFor, step, left] at failed
      | returned value after =>
          simp [stepped] at failed
      | failed found after =>
          simp only [stepped, Outcome.failed.injEq] at failed
          subst failed
          refine fault_of_step_of_partitions defined partitions ?_ framesShape stepped blamed
          cases partitions <;> simp
      | aborted after =>
          simp [stepped] at failed

end Runs

/--
Invoking a function whose code is made of instructions blames it for two things at most.  It runs
alone on the machine that it was entered on.
-/
theorem AtRest.fault_of_invoke_of_partitions
    {machine : Machine}
    (atRest : machine.AtRest)
    {function : Function}
    {chunk : Chunk}
    (defined : function.chunk? = some chunk)
    {offsets : List Nat}
    (partitions : chunk.Partitions 0 offsets)
    {arguments : List Value}
    {error : RuntimeError}
    (failed : (machine.invoke (some function) arguments).1 = .failed error)
    (blamed : error.fault.cause = .malformedBytecode) :
    error.fault = .pastEnd function.text ∨ error.fault = .underflow := by
  obtain ⟨_, _, invoked, _⟩ := atRest.invoke_eq defined arguments
  rw [invoked] at failed
  simp only [Routine.invoke] at failed
  cases entry : Routine.entryFault? machine.options function arguments.length with
  | some fault =>
      rw [entry] at failed
      cases failed
      rcases Routine.eq_of_entryFault? entry with ⟨rfl, _⟩ | ⟨_, ⟨rfl, _⟩ | ⟨rfl, _⟩⟩ <;>
        cases blamed
  | none =>
      rw [entry] at failed
      let host := Host.alone machine (machine.hold function).1
      let routine := Routine.outermost machine.options defined
      let entered : Activation := { position := 0, operands := arguments.reverse }
      obtain ⟨_, _, ran, _⟩ :=
        @Host.runFor_place host routine rfl ⟨rfl, rfl⟩ entered
          (fits_of_entryFault? defined entry) _ (stepBound_place host routine entered)
      exact @fault_of_runFor_of_partitions chunk (routine.frame entered) defined 0 offsets
        partitions (host.place routine entered) rfl (host.place routine entered).stepBound error
        (by rw [ran]; exact failed) blamed

end Machine

namespace Function

/-- Machines read the opcodes of a function at the boundaries of its chunk, in their order. -/
structure RunsAtBoundaries (function : Function) (chunk : Chunk) : Prop where
  /-- Up to its end, a run of the innermost frame is at one boundary after the other. -/
  positions :
    ∀ (machine : Machine) (frame : Frame) (outer : List Frame),
      machine.frames = frame :: outer →
      frame.function = function →
      frame.position = 0 →
      (machine.statesAbove outer.length).map (·.frames) <+:
        (chunk.boundaries ++ [chunk.code.length]).map
          fun position => { frame with position := position } :: outer
  /-- A step of such a run blames the code for nothing but its end and missing operands. -/
  faults :
    ∀ (machine : Machine) (frame : Frame) (outer : List Frame),
      machine.frames = frame :: outer →
      frame.function = function →
      frame.position = 0 →
      ∀ state ∈ machine.statesAbove outer.length,
      ∀ error after,
        state.step = .failed error after →
        error.fault.cause = .malformedBytecode →
        error.fault = .pastEnd function.text ∨ error.fault = .underflow
  /-- Nor does an invocation. -/
  invocations :
    ∀ (machine : Machine) (arguments : List Value) (error : RuntimeError),
      machine.AtRest →
      (machine.invoke (some function) arguments).1 = .failed error →
      error.fault.cause = .malformedBytecode →
      error.fault = .pastEnd function.text ∨ error.fault = .underflow

/-- Machines run checked code at its boundaries. -/
theorem runsAtBoundaries_of_validate
    {function : Function}
    {chunk : Chunk}
    (defined : function.chunk? = some chunk)
    (valid : chunk.validate = .ok ()) :
    function.RunsAtBoundaries chunk := by
  have partitions := Chunk.partitions_boundaries valid
  have positions
      {machine : Machine}
      {frame : Frame}
      {outer : List Frame}
      (framesShape : machine.frames = frame :: outer)
      (runs : frame.function = function)
      (fromStart : frame.position = 0) :
      (machine.statesAbove outer.length).map (·.frames) <+:
        (chunk.boundaries ++ [chunk.code.length]).map
          fun position => { frame with position := position } :: outer := by
    refine Machine.frames_prefix_of_partitions (runs ▸ defined) partitions ?_ _
    rw [framesShape, ← fromStart]
  refine ⟨fun _ _ _ => positions, ?_, ?_⟩
  · intro machine frame outer framesShape runs fromStart state member error after failed blamed
    have among :=
      (positions framesShape runs fromStart).subset (List.mem_map_of_mem (f := (·.frames)) member)
    obtain ⟨position, visited, stateShape⟩ := List.mem_map.mp among
    rw [← runs]
    exact Machine.fault_of_step_of_partitions (runs ▸ defined) partitions visited
      stateShape.symm failed blamed
  · intro machine arguments error atRest
    exact atRest.fault_of_invoke_of_partitions defined partitions

/--
The check of a chunk, the machine and the listing agree on where instructions lie.  The listing of
any code shows what is at one offset after the other, from the first to the end.  If the code passes
its check, these offsets are the boundaries, a machine reads opcodes at them and nowhere else, and
no line of the listing reports an error.
-/
theorem runs_and_lists_at_boundaries
    {function : Function}
    {chunk : Chunk}
    (defined : function.chunk? = some chunk) :
    ∃ entries,
      function.ListsAs chunk entries ∧
        (chunk.validate = .ok () →
          function.RunsAtBoundaries chunk ∧ ListsBoundaries chunk entries) := by
  obtain ⟨entries, lists⟩ := exists_listsAs defined
  refine ⟨entries, lists, fun valid => ⟨?_, ?_⟩⟩
  · exact runsAtBoundaries_of_validate defined valid
  · exact lists.listsBoundaries valid

/-- Code that negates a constant and does not return. -/
def unfinishedChunk : Chunk where
  code :=
    [⟨.opcode, Opcode.constant.byte⟩, ⟨.constantIndex, 0⟩, ⟨.opcode, Opcode.negate.byte⟩]
  lines := [1, 1, 2]
  constants := [.integer 1]

/-- A function whose code lacks a return. -/
def unfinished : Function where
  name := "f"
  arity := 0
  chunk? := some unfinishedChunk

theorem runs_and_lists_unfinished :
    unfinishedChunk.validate = .ok () ∧
      unfinishedChunk.boundaries = [0, 2] ∧
        unfinished.RunsAtBoundaries unfinishedChunk ∧
          ∃ entries,
            entries.map (·.text) = ["0000    1 OpConstant 0 (1)", "0002    2 OpNegative"] ∧
              unfinished.ListsAs unfinishedChunk entries ∧
                ListsBoundaries unfinishedChunk entries := by
  have valid : unfinishedChunk.validate = .ok () := rfl
  obtain ⟨entries, lists, agree⟩ := @runs_and_lists_at_boundaries unfinished unfinishedChunk rfl
  obtain ⟨runs, boundaries⟩ := agree valid
  have shown :=
    @Chunk.instructionLines_eq unfinishedChunk 0 entries lists.covers lists.shows 3 (Nat.le_refl 3)
  refine ⟨valid, rfl, runs, entries, ?_, lists, boundaries⟩
  rw [← shown]
  decide

end Function

end Reckon
