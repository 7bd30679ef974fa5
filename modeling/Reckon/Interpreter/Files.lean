import Reckon.Text.Columns

namespace Reckon

/-!
# Files

The files that programs are loaded from, by their paths.
-/

/-- What stands at a path. -/
inductive FileEntry where
  | directory
  | file (content : List UInt8)
  deriving Repr, DecidableEq

/-- Why a file cannot be read. -/
inductive FileProblem where
  | missing
  | directory
  deriving Repr, DecidableEq

namespace FileProblem

/-- The wording of a problem with a path. -/
def message (path : String) : FileProblem → String
  | .missing => "open " ++ path ++ ": no such file or directory"
  | .directory => "read " ++ path ++ ": is a directory"

end FileProblem

/-- Files and directories by their paths. -/
structure Files where
  entries : List (String × FileEntry)
  deriving Repr, DecidableEq

namespace Files

/-- One empty directory. -/
def ofDirectory (path : String) : Files :=
  { entries := [(path, .directory)] }

/-- Remove what stands at a path. -/
def remove (files : Files) (path : String) : Files :=
  { entries := files.entries.filter fun entry => entry.1 ≠ path }

/-- Write a file in place of what stood at its path. -/
def write (files : Files) (path : String) (content : List UInt8) : Files :=
  { entries := (path, .file content) :: (files.remove path).entries }

/-- Read a file. -/
def read (files : Files) (path : String) : Except FileProblem (List UInt8) :=
  match files.entries.lookup path with
  | some (.file content) => .ok content
  | some .directory => .error .directory
  | none => .error .missing

end Files

end Reckon
