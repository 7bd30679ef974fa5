import Reckon.Interpreter.Basic

namespace Reckon

/-!
# The interpreter's journal

What each operation of the interpreter notes in the journal, in order.
-/

namespace Function

/-- The entry about a function that was compiled. -/
def compiledEntry (function : Function) : JournalEntry :=
  let chunk := function.chunk?.getD .empty
  { level := .debug
    origin := "ember.compiler"
    message :=
      "compiled " ++ function.text ++ ": " ++ Text.integer chunk.code.length ++ " units, " ++
        Text.integer chunk.constants.length ++ " constants" }

end Function

namespace Interpreter

/-- The source of the entries about the interpreter. -/
def origin : String := "ember.interp"

/-- The entries about compiling a source. -/
def functionEntries (source : List Char) : List JournalEntry :=
  match functionOf source with
  | .done function => [function.compiledEntry]
  | _ => []

/-- The entries about running a function. -/
def executeEntries (interpreter : Interpreter) (function : Function) : List JournalEntry :=
  let entries := interpreter.machine.invokeEntries (some function) []
  match (interpreter.machine.interpret (some function)).1 with
  | .failed error =>
      entries ++ [{ level := .error, origin := origin, message := error.message }]
  | _ => entries

/-- The entries about compiling a source and running it. -/
def runEntries (interpreter : Interpreter) (source : List Char) : List JournalEntry :=
  match functionOf source with
  | .done function => function.compiledEntry :: interpreter.executeEntries function
  | _ => []

/-- The entries about running an image. -/
def runImageEntries (interpreter : Interpreter) (bytes : List UInt8) : List JournalEntry :=
  match Image.decode bytes with
  | .ok function => interpreter.executeEntries function
  | .error _ => []

/-- The entries about loading the program of a file. -/
def loadEntries
    (interpreter : Interpreter)
    (files : Files)
    (path : String) :
    List JournalEntry :=
  match files.read path with
  | .error _ => []
  | .ok content =>
      match interpreter.remembered? content with
      | some _ =>
          [{ level := .debug, origin := origin, message := "cache hit for " ++ path }]
      | none =>
          if Image.isImage content then [] else functionEntries (Text.decode content)

/-- The entries about loading the program of a file and running it. -/
def runFileEntries
    (interpreter : Interpreter)
    (files : Files)
    (path : String) :
    List JournalEntry :=
  let entries := interpreter.loadEntries files path
  match interpreter.load files path with
  | (.done program, loaded) => entries ++ loaded.executeEntries program.function
  | _ => entries

end Interpreter

end Reckon
