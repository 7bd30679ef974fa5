import Reckon.Heap
import Reckon.Machine.Fault

namespace Reckon

/-!
# The state of the machine

The machine keeps operands on one stack that all frames share.  A frame owns the operands above
its slot base, where the function that it runs lies with its arguments.
-/

/-- The limits of a machine, and whether it notes every instruction. -/
structure MachineOptions where
  stackSize : Int64
  maxFrames : Int64
  trace : Bool
  deriving Repr, DecidableEq

namespace MachineOptions

/-- The limits when nothing else is said. -/
def standard : MachineOptions :=
  { stackSize := 1024, maxFrames := 64, trace := false }

/-- A limit that is not positive means the standard one. -/
def filled (options : MachineOptions) : MachineOptions :=
  { options with
    stackSize := if options.stackSize ≤ 0 then standard.stackSize else options.stackSize
    maxFrames := if options.maxFrames ≤ 0 then standard.maxFrames else options.maxFrames }

end MachineOptions

/-- A call in progress: its function, the next unit to read, and where its slots begin. -/
structure Frame where
  function : Function
  position : Nat
  slotBase : Int64
  deriving Repr

/-- A machine. -/
structure Machine where
  options : MachineOptions
  /-- The operands, the top one first. -/
  stack : List Value
  /-- The calls in progress, the innermost first. -/
  frames : List Frame
  globals : List (String × Value)
  interned : List String
  heap : Heap
  deriving Repr

namespace Machine

/-- A machine at rest. -/
def new (options : MachineOptions) : Machine :=
  { options := options.filled
    stack := []
    frames := []
    globals := []
    interned := []
    heap := .empty }

/-- The number of operands. -/
def depth (machine : Machine) : Nat :=
  machine.stack.length

/-- Drop all operands and frames. -/
def clearStack (machine : Machine) : Machine :=
  { machine with stack := [], frames := [] }

/-- Remember a name. -/
def intern (machine : Machine) (name : String) : Machine :=
  if machine.interned.contains name then
    machine
  else
    { machine with interned := name :: machine.interned }

/-- The value of a global. -/
def global? (machine : Machine) (name : String) : Option Value :=
  machine.globals.lookup name

/-- Give a global a value. -/
def setGlobal (machine : Machine) (name : String) (value : Value) : Machine :=
  let machine := machine.intern name
  { machine with
    globals := (name, value) :: machine.globals.filter fun entry => entry.1 ≠ name }

/-- Remove a global. -/
def deleteGlobal (machine : Machine) (name : String) : Machine :=
  { machine with globals := machine.globals.filter fun entry => entry.1 ≠ name }

/-- Drop operands, frames, names and objects. -/
def reset (machine : Machine) : Machine :=
  { machine.clearStack with globals := [], interned := [], heap := machine.heap.clear }

/-- Vacate the heap slot of a handle. -/
def release (machine : Machine) (handle : Handle) : Machine :=
  { machine with heap := machine.heap.release handle }

/-- The operands as a list, the bottom one first. -/
def stackText (machine : Machine) : String :=
  "[" ++ Text.joined " " (machine.stack.reverse.map Value.text) ++ "]"

end Machine

/-- An action of the machine, which may fail or be aborted at some point and leave it there. -/
def Action (α : Type) : Type :=
  Machine → Outcome Fault α × Machine

namespace Action

/-- Give a result. -/
def result {α : Type} (value : α) : Action α :=
  fun machine => (.done value, machine)

/-- Go on with the result of an action, if it has one. -/
def next {α β : Type} (action : Action α) (following : α → Action β) : Action β :=
  fun machine =>
    match action machine with
    | (.done value, after) => following value after
    | (.failed fault, after) => (.failed fault, after)
    | (.aborted, after) => (.aborted, after)

instance : Monad Action where
  pure := result
  bind := next

/-- Fail. -/
def fail {α : Type} (fault : Fault) : Action α :=
  fun machine => (.failed fault, machine)

/-- Take over the outcome of an operation on values. -/
def arithmetic {α : Type} (outcome : Outcome ArithmeticFault α) : Action α :=
  fun machine => (outcome.mapFailure .arithmetic, machine)

/-- Push an operand. -/
def push (value : Value) : Action Unit :=
  fun machine =>
    if machine.options.stackSize.toInt ≤ machine.depth then
      (.failed (.stackFull machine.options.stackSize), machine)
    else
      (.done (), { machine with stack := value :: machine.stack })

/-- Pop an operand. -/
def pop : Action Value :=
  fun machine =>
    match machine.stack with
    | value :: stack => (.done value, { machine with stack := stack })
    | [] => (.aborted, machine)

/-- The number of operands that belong to the innermost frame. -/
def available (machine : Machine) : Int64 :=
  match machine.frames with
  | frame :: _ => Int64.ofNat machine.depth - (frame.slotBase + 1)
  | [] => Int64.ofNat machine.depth

/-- Check that the innermost frame has some number of operands. -/
def require (count : Int64) : Action Unit :=
  fun machine =>
    if available machine < count then
      (.failed .underflow, machine)
    else
      (.done (), machine)

end Action

end Reckon
