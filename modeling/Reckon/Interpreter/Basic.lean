import Reckon.Bytecode.Image
import Reckon.Compiler.Program
import Reckon.Interpreter.Files
import Reckon.Machine.Call
import Reckon.Settings.Layers

namespace Reckon

/-!
# The interpreter

An interpreter compiles programs and runs them on its machine.  Files hold programs as source or
as images, and what was loaded from a file is remembered under the digest of its content.
-/

/-- A function that the interpreter made, numbered so that two of equal content are told apart. -/
structure Program where
  serial : Nat
  function : Function
  deriving Repr

/-- Why the interpreter has no result. -/
inductive InterpreterError where
  | source (error : SourceError)
  | image (problem : Image.ReadProblem)
  | write (problem : Image.WriteProblem)
  | runtime (error : RuntimeError)
  | unreadable (path : String) (problem : FileProblem)
  | loadSource (path : String) (error : SourceError)
  | loadImage (path : String) (problem : Image.ReadProblem)
  deriving Repr, DecidableEq

namespace InterpreterError

/-- The wording of an error. -/
def message : InterpreterError → String
  | .source error => error.message
  | .image problem => problem.message
  | .write problem => problem.message
  | .runtime error => error.message
  | .unreadable path problem => "failed to read " ++ path ++ ": " ++ problem.message path
  | .loadSource path error => path ++ ": " ++ error.message
  | .loadImage path problem => path ++ ": " ++ problem.message

end InterpreterError

/-- An interpreter. -/
structure Interpreter where
  settings : Settings
  machine : Machine
  /-- The programs loaded from files, by the digests of the contents. -/
  cache : List (List UInt8 × Program)
  nextSerial : Nat
  deriving Repr

namespace Interpreter

/-- A new interpreter. -/
def new (settings : Settings) : Interpreter :=
  { settings := settings
    machine := .new settings.machineOptions
    cache := []
    nextSerial := 0 }

/-- An outcome together with the interpreter afterwards. -/
abbrev Result (α : Type) := Outcome InterpreterError α × Interpreter

/-- Compile a source. -/
def functionOf (source : List Char) : Outcome SourceError Function :=
  (Compiler.new.compile source).1

/-- Number a function. -/
def register (interpreter : Interpreter) (function : Function) : Program × Interpreter :=
  ({ serial := interpreter.nextSerial, function := function },
    { interpreter with nextSerial := interpreter.nextSerial + 1 })

/-- Compile a source to a program. -/
def compile (interpreter : Interpreter) (source : List Char) : Result Program :=
  match functionOf source with
  | .done function =>
      let (program, registered) := interpreter.register function
      (.done program, registered)
  | .failed error => (.failed (.source error), interpreter)
  | .aborted => (.aborted, interpreter)

/-- Run a function. -/
def execute (interpreter : Interpreter) (function : Function) : Result Value :=
  let (outcome, machine) := interpreter.machine.interpret (some function)
  (outcome.mapFailure .runtime, { interpreter with machine := machine })

/-- Compile a source and run it. -/
def run (interpreter : Interpreter) (source : List Char) : Result Value :=
  match functionOf source with
  | .done function => interpreter.execute function
  | .failed error => (.failed (.source error), interpreter)
  | .aborted => (.aborted, interpreter)

/-- Compile a source to an image. -/
def compileImage (source : List Char) : Outcome InterpreterError (List UInt8) :=
  match functionOf source with
  | .done function =>
      match Image.encode (some function) with
      | .ok bytes => .done bytes
      | .error problem => .failed (.write problem)
  | .failed error => .failed (.source error)
  | .aborted => .aborted

/-- Run an image. -/
def runImage (interpreter : Interpreter) (bytes : List UInt8) : Result Value :=
  match Image.decode bytes with
  | .ok function => interpreter.execute function
  | .error problem => (.failed (.image problem), interpreter)

/-- The function that a file holds as source or as an image. -/
def functionIn (path : String) (content : List UInt8) : Outcome InterpreterError Function :=
  if Image.isImage content then
    match Image.decode content with
    | .ok function => .done function
    | .error problem => .failed (.loadImage path problem)
  else
    (functionOf (Text.decode content)).mapFailure (.loadSource path)

/-- The program that was loaded before from the same content, if such are remembered. -/
def remembered? (interpreter : Interpreter) (content : List UInt8) : Option Program :=
  if interpreter.settings.cache then
    interpreter.cache.lookup (digest content)
  else
    none

/-- Remember a program under the content of its file, if such are remembered. -/
def remember
    (interpreter : Interpreter)
    (content : List UInt8)
    (program : Program) :
    Interpreter :=
  if interpreter.settings.cache then
    { interpreter with cache := (digest content, program) :: interpreter.cache }
  else
    interpreter

/-- Load the program of a file with some content. -/
def loadContent
    (interpreter : Interpreter)
    (path : String)
    (content : List UInt8) :
    Result Program :=
  match interpreter.remembered? content with
  | some program => (.done program, interpreter)
  | none =>
      match functionIn path content with
      | .done function =>
          let (program, registered) := interpreter.register function
          (.done program, registered.remember content program)
      | .failed error => (.failed error, interpreter)
      | .aborted => (.aborted, interpreter)

/-- Load the program of a file. -/
def load (interpreter : Interpreter) (files : Files) (path : String) : Result Program :=
  match files.read path with
  | .error problem => (.failed (.unreadable path problem), interpreter)
  | .ok content => interpreter.loadContent path content

/-- Load the program of a file and run it. -/
def runFile (interpreter : Interpreter) (files : Files) (path : String) : Result Value :=
  match interpreter.load files path with
  | (.done program, loaded) => loaded.execute program.function
  | (.failed error, loaded) => (.failed error, loaded)
  | (.aborted, loaded) => (.aborted, loaded)

/-- Reset the machine and forget the programs loaded from files. -/
def reset (interpreter : Interpreter) : Interpreter :=
  { interpreter with machine := interpreter.machine.reset, cache := [] }

end Interpreter

end Reckon
