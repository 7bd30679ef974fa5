import Reckon.Machine.Run

namespace Reckon

/-!
# Calls

A call finds its function on the stack below the arguments.  Invoking a function from outside puts
it on the heap for the time of the run only.
-/

namespace Action

/-- Begin a call of a function that lies on the stack below so many arguments. -/
def call (function : Function) (count : Int64) : Action Unit :=
  fun machine =>
    if count ≠ function.arity then
      (.failed (.arity function.text function.arity count), machine)
    else if machine.options.maxFrames.toInt ≤ machine.frames.length then
      (.failed (.callDepth machine.options.maxFrames), machine)
    else
      let frame : Frame :=
        { function := function
          position := 0
          slotBase := Int64.ofNat machine.depth - count - 1 }
      (.done (), { machine with frames := frame :: machine.frames })

/-- Begin a call of a value. -/
def callValue (callee : Value) (count : Int64) : Action Unit :=
  fun machine =>
    match callee with
    | .object handle =>
        match machine.heap.get? handle with
        | none => (.failed (.callee .stale), machine)
        | some (.function function) => call function count machine
        | some object => (.failed (.callee (.kind object.kind)), machine)
    | other => (.failed (.callee (.kind other.kind.name)), machine)

/-- Push operands one after the other. -/
def pushAll : List Value → Action Unit
  | [] => pure ()
  | value :: rest => do
      push value
      pushAll rest

/-- Push a callee and its arguments and begin the call. -/
def enter (callee : Value) (arguments : List Value) : Action Unit := do
  push callee
  pushAll arguments
  callValue callee (Int64.ofNat arguments.length)

end Action

namespace Machine

/-- A machine that holds a function on its heap, and the function's handle. -/
def hold (machine : Machine) (function : Function) : Handle × Machine :=
  let (handle, heap) := machine.heap.allocate (.function function)
  (handle, { machine with heap := heap })

/-- Call a function that is held and run it. -/
def callHeld
    (machine : Machine)
    (handle : Handle)
    (arguments : List Value) :
    Outcome RuntimeError Value × Machine :=
  match Action.enter (.object handle) arguments machine with
  | (.done (), entered) =>
      match entered.run with
      | (.failed error, after) => (.failed error, after.clearStack)
      | ended => ended
  | (.failed fault, entered) => (.failed (.outside fault), entered.clearStack)
  | (.aborted, entered) => (.aborted, entered)

/-- Call a function with arguments and run it until it returns. -/
def invoke
    (machine : Machine)
    (function? : Option Function)
    (arguments : List Value) :
    Outcome RuntimeError Value × Machine :=
  match function? with
  | some { name, arity, chunk? := some chunk } =>
      let (handle, holding) := machine.hold { name, arity, chunk? := some chunk }
      let (outcome, after) := holding.callHeld handle arguments
      (outcome, after.release handle)
  | _ => (.failed (.outside (.callee .missing)), machine)

/-- The entries about an invocation. -/
def invokeEntries
    (machine : Machine)
    (function? : Option Function)
    (arguments : List Value) :
    List JournalEntry :=
  match function? with
  | some { name, arity, chunk? := some chunk } =>
      let (handle, holding) := machine.hold { name, arity, chunk? := some chunk }
      match Action.enter (.object handle) arguments holding with
      | (.done (), entered) => entered.runEntries
      | _ => []
  | _ => []

/-- Run a whole program. -/
def interpret
    (machine : Machine)
    (function? : Option Function) :
    Outcome RuntimeError Value × Machine :=
  machine.invoke function? []

end Machine

end Reckon
