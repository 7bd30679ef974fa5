import Reckon.Bytecode.Listing
import Reckon.Journal
import Reckon.Machine.State

namespace Reckon

/-!
# Running code

`Machine.step` reads and executes one instruction of the innermost frame.  A run repeats it until
the outermost frame returns or something fails.  Every step reads a unit or ends a frame, so a
run is over after as many steps as there are units and frames left.
-/

/-- How one step of a machine ends. -/
inductive Step where
  | next (machine : Machine)
  | returned (value : Value) (machine : Machine)
  | failed (error : RuntimeError) (machine : Machine)
  | aborted (machine : Machine)
  deriving Repr

namespace Action

/-- Apply a binary operator to the two top operands, the right one on top. -/
def binary (operator : Operator) : Action Unit := do
  require 2
  let right ← pop
  let left ← pop
  let value ← arithmetic (operator.apply left right)
  push value

/-- Apply a function to the top operand. -/
def unary (function : Value → Except ArithmeticFault Value) : Action Unit := do
  require 1
  let operand ← pop
  let value ← arithmetic (.ofExcept (function operand))
  push value

/-- Drop the top operand. -/
def discard : Action Unit := do
  require 1
  let _ ← pop

/-- Require the top operand to be true. -/
def assertTop : Action Unit := do
  require 1
  let condition ← pop
  match condition with
  | .bool true => pure ()
  | .bool false => fail .assertion
  | other => fail (.assertedKind other.kind)

/-- Move the innermost frame on by some units. -/
def skip (count : Nat) : Action Unit :=
  fun machine =>
    match machine.frames with
    | frame :: frames =>
        (.done (),
          { machine with frames := { frame with position := frame.position + count } :: frames })
    | [] => (.aborted, machine)

/-- Read a constant index and push the constant. -/
def constant (chunk : Chunk) (index? : Option CodeUnit) : Action Unit :=
  match index? with
  | none => fail .missingIndex
  | some index =>
      if index.kind ≠ .constantIndex then
        fail .missingIndex
      else do
        skip 1
        match chunk.constants[index.byte.toNat]? with
        | none => fail (.constantRange index.byte)
        | some value => push value

/-- End the innermost frame. -/
def leave : Action Unit :=
  fun machine =>
    match machine.frames with
    | [] => (.aborted, machine)
    | frame :: frames =>
        let left := { machine with frames := frames }
        if frame.slotBase < 0 then
          (.aborted, left)
        else
          let dropped := machine.depth - frame.slotBase.toNatClampNeg
          (.done (), { left with stack := machine.stack.drop dropped })

/-- Return the top operand: to the outside, or to the frame around. -/
def returnTop : Action (Option Value) := do
  require 1
  let value ← pop
  leave
  fun machine =>
    match machine.frames with
    | [] => (.done (some value), machine)
    | _ :: _ => (push value).next (fun _ => result none) machine

/-- An action that does not end the run. -/
def inner (action : Action Unit) : Action (Option Value) := do
  action
  pure none

/-- Execute an instruction whose opcode was read; a value is the result of the whole run. -/
def execute (chunk : Chunk) (position : Nat) : Opcode → Action (Option Value)
  | .constant => inner (constant chunk chunk.code[position + 1]?)
  | .true => inner (push (.bool true))
  | .false => inner (push (.bool false))
  | .add => inner (binary .add)
  | .subtract => inner (binary .subtract)
  | .multiply => inner (binary .multiply)
  | .divide => inner (binary .divide)
  | .quotient => inner (binary .quotient)
  | .power => inner (binary .power)
  | .equal => inner (binary .equal)
  | .notEqual => inner (binary .notEqual)
  | .greater => inner (binary .greater)
  | .greaterEqual => inner (binary .greaterEqual)
  | .less => inner (binary .less)
  | .lessEqual => inner (binary .lessEqual)
  | .not => inner (unary Value.not)
  | .negate => inner (unary Value.negate)
  | .noop => pure none
  | .pop => inner discard
  | .return => returnTop
  | .assert => inner assertTop

end Action

namespace Frame

/-- A fault of the instruction at a position. -/
def errorAt
    (frame : Frame)
    (chunk : Chunk)
    (position : Nat)
    (fault : Fault) :
    RuntimeError :=
  { line := chunk.lineAt position, function := frame.function.text, fault := fault }

/-- The opcode at a position, if there is an opcode there. -/
def opcodeAt
    (frame : Frame)
    (chunk : Chunk)
    (position : Nat) :
    Except Fault CodeUnit :=
  match chunk.code[position]? with
  | none => .error (.pastEnd frame.function.text)
  | some unit => if unit.kind = .opcode then .ok unit else .error (.expectedOpcode unit)

/-- One step for each unit that is left, and one to end. -/
def stepBound (frame : Frame) : Nat :=
  match frame.function.chunk? with
  | some chunk => chunk.code.length - frame.position + 1
  | none => 1

end Frame

namespace Machine

/-- Move the innermost frame past an opcode and execute it. -/
def dispatch
    (machine : Machine)
    (frame : Frame)
    (chunk : Chunk)
    (unit : CodeUnit) :
    Step :=
  let action := do
    Action.skip 1
    match Opcode.ofByte? unit.byte with
    | some opcode => Action.execute chunk frame.position opcode
    | none => Action.fail (.unknownOpcode unit.byte)
  match action machine with
  | (.done (some value), after) => .returned value after
  | (.done none, after) => .next after
  | (.failed fault, after) => .failed (frame.errorAt chunk frame.position fault) after
  | (.aborted, after) => .aborted after

/-- Read and execute an instruction of the innermost frame. -/
def step (machine : Machine) : Step :=
  match machine.frames with
  | [] => .aborted machine
  | frame :: _ =>
      match frame.function.chunk? with
      | none => .aborted machine
      | some chunk =>
          match frame.opcodeAt chunk frame.position with
          | .error fault => .failed (frame.errorAt chunk frame.position fault) machine
          | .ok unit => machine.dispatch frame chunk unit

/-- Run for at most so many steps. -/
def runFor : Nat → Machine → Outcome RuntimeError Value × Machine
  | 0, machine => (.aborted, machine)
  | steps + 1, machine =>
      match machine.step with
      | .next after => after.runFor steps
      | .returned value after => (.done value, after)
      | .failed error after => (.failed error, after)
      | .aborted after => (.aborted, after)

/-- As many steps as a run can take: one for each unit that is left, and one more for each frame. -/
def stepBound (machine : Machine) : Nat :=
  machine.frames.foldr (fun frame steps => frame.stepBound + steps) 1

/-- Run until the outermost frame returns or something fails. -/
def run (machine : Machine) : Outcome RuntimeError Value × Machine :=
  machine.runFor machine.stepBound

/-- The states before each of at most so many steps. -/
def statesFor : Nat → Machine → List Machine
  | 0, _ => []
  | steps + 1, machine =>
      match machine.step with
      | .next after => machine :: after.statesFor steps
      | _ => [machine]

/-- The states before each step of a run. -/
def states (machine : Machine) : List Machine :=
  machine.statesFor machine.stepBound

/-- The source of the entries about the machine. -/
def origin : String := "ember.vm"

/-- An entry about the machine. -/
def note (message : String) : JournalEntry :=
  { level := .debug, origin := origin, message := message }

/-- The instruction about to be executed, as it is listed, and the operands before it. -/
def traceText? (machine : Machine) : Option String :=
  match machine.frames with
  | [] => none
  | frame :: _ =>
      match frame.function.chunk? with
      | none => none
      | some chunk =>
          match frame.opcodeAt chunk frame.position with
          | .error _ => none
          | .ok _ =>
              match chunk.instructionText frame.position with
              | .done text => some (Text.padRight 32 text ++ " " ++ machine.stackText)
              | .failed problem =>
                  some (Text.padRight 32 problem.message ++ " " ++ machine.stackText)
              | .aborted => none

/-- The entries about a run: its instructions, if they are traced, and its failure. -/
def runEntries (machine : Machine) : List JournalEntry :=
  let traced :=
    if machine.options.trace then
      (machine.states.filterMap traceText?).map note
    else
      []
  match machine.run.1 with
  | .failed error => traced ++ [note error.message]
  | _ => traced

end Machine

end Reckon
