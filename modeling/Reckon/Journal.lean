import Reckon.Text.Columns

namespace Reckon

/-!
# The journal

What happens is noted in entries, each from one source and at one level.  How much of it is kept
is a matter of verbosity.
-/

/-- How grave an entry is, the gravest first. -/
inductive Level where
  | critical
  | error
  | warning
  | notice
  | info
  | debug
  deriving Repr, DecidableEq

namespace Level

/-- The name of a level. -/
def name : Level → String
  | .critical => "Critical"
  | .error => "Error"
  | .warning => "Warning"
  | .notice => "Notice"
  | .info => "Info"
  | .debug => "Debug"

/-- The least verbosity at which entries of a level are kept. -/
def threshold : Level → Int
  | .critical => -3
  | .error => -2
  | .warning => -1
  | .notice => 0
  | .info => 1
  | .debug => 2

/-- Entries of a level are kept. -/
def isKept (verbosity : Int) (level : Level) : Bool :=
  level.threshold ≤ verbosity

end Level

/-- A note of something that happened. -/
structure JournalEntry where
  level : Level
  origin : String
  message : String
  deriving Repr, DecidableEq

namespace JournalEntry

/-- An entry on one line. -/
def text (entry : JournalEntry) : String :=
  entry.level.name ++ " " ++ entry.origin ++ " " ++ entry.message

end JournalEntry

namespace Journal

/-- The entries that are kept. -/
def kept (verbosity : Int) (entries : List JournalEntry) : List JournalEntry :=
  entries.filter fun entry => entry.level.isKept verbosity

end Journal

end Reckon
