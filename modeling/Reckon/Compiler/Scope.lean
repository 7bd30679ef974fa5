import Reckon.Compiler.State

namespace Reckon

/-!
# Block scopes

Locals live in one list, the newest first, each with the depth of its block.  Leaving a block
drops the locals that are deeper and pops their slots.
-/

namespace Compiler

/-- How many slots a one-byte operand can tell apart. -/
def maxLocals : Nat := 256

/-- Leave only the slot of the function itself. -/
def resetLocals (compiler : Compiler) : Compiler :=
  { compiler with locals := [Local.callee], depth := 0 }

/-- Enter a block. -/
def beginScope (compiler : Compiler) : Compiler :=
  { compiler with depth := compiler.depth + 1 }

/--
Drop the locals deeper than the current block, each with a pop.  The flag says that this came to
its end; it does not when there is no code to append to, or no line for it.
-/
def dropLocals (compiler : Compiler) : List Local → Bool × Compiler
  | [] => (true, { compiler with locals := [] })
  | [callee] => (true, { compiler with locals := [callee] })
  | newest :: next :: older =>
      if compiler.depth < newest.depth then
        match compiler.emit .pop [] with
        | .done emitted => emitted.dropLocals (next :: older)
        | _ => (false, { compiler with locals := newest :: next :: older })
      else
        (true, { compiler with locals := newest :: next :: older })

/-- Leave a block. -/
def endScope (compiler : Compiler) : Bool × Compiler :=
  { compiler with depth := compiler.depth - 1 }.dropLocals compiler.locals

/--
Look for a name among the locals of the current block, from the newest on; the slot of the
function itself, which is last, does not count.
-/
def declaredHere
    (compiler : Compiler)
    (name : List Char) :
    List Local → Step Bool
  | [] | [_] => .done false
  | newest :: next :: older =>
      if newest.isOutside compiler.depth then
        .done false
      else do
        let text ← compiler.lexeme newest.name
        if text = name then .done true else compiler.declaredHere name (next :: older)

/-- Declare a local, which cannot be read yet. -/
def addLocal (compiler : Compiler) (name : Token) : Step Compiler :=
  if maxLocals ≤ compiler.locals.length then
    compiler.failAt name .tooManyLocals
  else do
    let text ← compiler.lexeme name
    let declared ← compiler.declaredHere text compiler.locals
    if declared then
      compiler.failAt name .duplicateLocal
    else
      .done { compiler with locals := Local.declare name :: compiler.locals }

/-- Make the newest local readable; outside every block there is nothing to make so. -/
def markInitialized (compiler : Compiler) : Compiler :=
  if compiler.depth = 0 then
    compiler
  else
    match compiler.locals with
    | newest :: next :: older =>
        { compiler with locals := { newest with depth := compiler.depth } :: next :: older }
    | _ => compiler

/-- The slot of the newest local with a name among the given ones. -/
def resolveIn
    (compiler : Compiler)
    (name : Token)
    (text : List Char) :
    List Local → Step (Option Nat)
  | [] | [_] => .done none
  | newest :: next :: older => do
      let found ← compiler.lexeme newest.name
      if found = text then
        if newest.depth = Local.pending then
          compiler.failAt name .ownInitializer
        else
          .done (some (older.length + 1))
      else
        compiler.resolveIn name text (next :: older)

/-- The slot of a name, if it is a local. -/
def resolveLocal (compiler : Compiler) (name : Token) : Step (Option Nat) := do
  let text ← compiler.lexeme name
  compiler.resolveIn name text compiler.locals

end Compiler

end Reckon
