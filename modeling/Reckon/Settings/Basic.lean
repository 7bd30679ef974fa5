import Reckon.Decimal.Reading
import Reckon.Machine.State
import Reckon.Settings.Path
import Reckon.Text.Quoted

namespace Reckon

/-!
# Settings

The sizes of the machine, what is kept in the journal and where, and whether loaded files are
remembered.
-/

/-- All that can be set. -/
structure Settings where
  maxFrames : Int64
  stackSize : Int64
  trace : Bool
  verbosity : Int64
  journalFile : String
  cache : Bool
  /-- The directory that the settings belong to. -/
  directory : String
  deriving Repr, DecidableEq

/-- Why settings are refused. -/
inductive SettingsProblem where
  | maxFrames (given : Int64)
  | stackSize (given : Int64)
  | verbosity (given : Int64)
  deriving Repr, DecidableEq

namespace SettingsProblem

/-- The wording of a problem. -/
def message : SettingsProblem → String
  | .maxFrames given =>
      "vm.max-frames must be positive, got " ++ Text.integer given.toInt
  | .stackSize given =>
      "vm.stack-size must be at least 2, got " ++ Text.integer given.toInt
  | .verbosity given =>
      "log.verbosity must be at least -4, got " ++ Text.integer given.toInt

end SettingsProblem

namespace Settings

/-- The settings when nothing else is said. -/
def standard : Settings :=
  { maxFrames := MachineOptions.standard.maxFrames
    stackSize := MachineOptions.standard.stackSize
    trace := false
    verbosity := 0
    journalFile := ""
    cache := true
    directory := "" }

/-- Refuse settings that no machine can work with. -/
def validate (settings : Settings) : Except SettingsProblem Unit :=
  if settings.maxFrames < 1 then
    .error (.maxFrames settings.maxFrames)
  else if settings.stackSize < 2 then
    .error (.stackSize settings.stackSize)
  else if settings.verbosity < -4 then
    .error (.verbosity settings.verbosity)
  else
    .ok ()

/-- The settings of the machine. -/
def machineOptions (settings : Settings) : MachineOptions :=
  { stackSize := settings.stackSize
    maxFrames := settings.maxFrames
    trace := settings.trace }

/-- Where the journal goes: to a file, which may be given within the directory, or nowhere else. -/
def journalPath? (settings : Settings) : Option String :=
  if settings.journalFile = "" then
    none
  else if Path.isAbsolute settings.journalFile ∨ settings.directory = "" then
    some settings.journalFile
  else
    some (Path.join settings.directory settings.journalFile)

end Settings

end Reckon
