import Reckon.Settings.Basic
import Reckon.Settings.Dotenv
import Reckon.Toml.Document

namespace Reckon

/-!
# Layers of settings

Settings are taken from a file of settings, then from a file of variables, then from the
environment, and each layer overrides the ones before it.
-/

/-- What a variable is read as. -/
inductive VariableReader where
  | number
  | truth
  deriving Repr, DecidableEq

/-- A variable whose value cannot be read. -/
structure VariableProblem where
  name : String
  reader : VariableReader
  text : String
  problem : Decimal.Problem
  deriving Repr, DecidableEq

/-- Why there are no settings. -/
inductive SettingsError where
  | unreadable (path : String)
  | settingsFile (path : String)
  | variablesFile (path : String)
  | variable (origin : String) (problem : VariableProblem)
  | refused (problem : SettingsProblem)
  deriving Repr, DecidableEq

/-- A file as it is found. -/
inductive FoundFile where
  | absent
  | directory
  | text (content : List Char)
  deriving Repr, DecidableEq

/-- Where settings come from. -/
structure SettingsSources where
  directory : String
  settingsFile : FoundFile
  variablesFile : FoundFile
  environment : List (String × String)
  deriving Repr, DecidableEq

namespace VariableReader

/-- The name of a reader in messages. -/
def name : VariableReader → String
  | .number => "strconv.Atoi"
  | .truth => "strconv.ParseBool"

end VariableReader

namespace VariableProblem

/-- The wording of a problem. -/
def message (problem : VariableProblem) : String :=
  problem.name ++ ": " ++ problem.reader.name ++ ": parsing " ++
    Text.quote problem.text.toList ++ ": " ++ problem.problem.message

end VariableProblem

namespace SettingsError

/-- The wording of an error. -/
def message : SettingsError → String
  | .unreadable path => "cannot read " ++ path ++ ": read " ++ path ++ ": is a directory"
  | .settingsFile path => "parse error in " ++ path
  | .variablesFile path => "cannot read " ++ path
  | .variable origin problem => origin ++ ": " ++ problem.message
  | .refused problem => problem.message

end SettingsError

namespace Settings

/-- Read a number of 64 bits. -/
def readNumber (text : String) : Except Decimal.Problem Int64 :=
  (Decimal.integer 64 text.toList).map Int64.ofInt

/-- Read a truth value. -/
def readTruth (text : String) : Except Decimal.Problem Bool :=
  if ["1", "t", "T", "TRUE", "true", "True"].contains text then
    .ok true
  else if ["0", "f", "F", "FALSE", "false", "False"].contains text then
    .ok false
  else
    .error .invalid

/-- The value that a variable overrides another value with. -/
def override
    {α : Type}
    (bindings : List (String × String))
    (name : String)
    (reader : VariableReader)
    (read : String → Except Decimal.Problem α)
    (present : α) :
    Except VariableProblem α :=
  match bindings.lookup name with
  | none => .ok present
  | some text =>
      match read text with
      | .ok value => .ok value
      | .error problem =>
          .error { name := name, reader := reader, text := text, problem := problem }

/-- Override settings with variables. -/
def withVariables
    (settings : Settings)
    (bindings : List (String × String)) :
    Except VariableProblem Settings := do
  let maxFrames ←
    override bindings "EMBER_MAX_FRAMES" .number readNumber settings.maxFrames
  let stackSize ←
    override bindings "EMBER_STACK_SIZE" .number readNumber settings.stackSize
  let trace ← override bindings "EMBER_TRACE" .truth readTruth settings.trace
  let verbosity ←
    override bindings "EMBER_LOG_VERBOSITY" .number readNumber settings.verbosity
  let cache ← override bindings "EMBER_CACHE" .truth readTruth settings.cache
  .ok
    { settings with
      maxFrames := maxFrames
      stackSize := stackSize
      trace := trace
      verbosity := verbosity
      journalFile := (bindings.lookup "EMBER_LOG_FILE").getD settings.journalFile
      cache := cache }

/-- A letter without its case; two signs of the alphabet fold to letters. -/
def fold (char : Char) : Char :=
  if 'A' ≤ char ∧ char ≤ 'Z' then
    Char.ofNat (char.toNat + 32)
  else if char = '\u017f' then
    's'
  else if char = '\u212a' then
    'k'
  else
    char

/-- A key spells a name, whatever the case of its letters. -/
def spells (key : Toml.Key) (name : String) : Bool :=
  key.map fold = name.toList

/-- Override one setting with an entry of its section, which must be of the right sort. -/
def withField?
    (settings : Settings)
    (table key : Toml.Key)
    (entry : Toml.Entry) :
    Option Settings :=
  let isField := fun (group name : String) => spells table group && spells key name
  if isField "vm" "max-frames" then
    match entry with
    | .integer number => some { settings with maxFrames := Int64.ofInt number }
    | _ => none
  else if isField "vm" "stack-size" then
    match entry with
    | .integer number => some { settings with stackSize := Int64.ofInt number }
    | _ => none
  else if isField "vm" "trace" then
    match entry with
    | .boolean truth => some { settings with trace := truth }
    | _ => none
  else if isField "log" "verbosity" then
    match entry with
    | .integer number => some { settings with verbosity := Int64.ofInt number }
    | _ => none
  else if isField "log" "file" then
    match entry with
    | .text chars => some { settings with journalFile := String.ofList chars }
    | _ => none
  else if isField "cache" "enabled" then
    match entry with
    | .boolean truth => some { settings with cache := truth }
    | _ => none
  else
    some settings

/-- Override settings with the entries of a section. -/
def withFields?
    (settings : Settings)
    (table : Toml.Key) :
    List (Toml.Key × Toml.Entry) → Option Settings
  | [] => some settings
  | (key, entry) :: rest => do
      let settings ← settings.withField? table key entry
      settings.withFields? table rest

/-- Override settings with the sections of a document, each of which must be a table. -/
def withSections?
    (settings : Settings)
    (document : Toml.Document) :
    List (Toml.Key × Toml.Entry) → Option Settings
  | [] => some settings
  | (key, entry) :: rest =>
      if ["vm", "log", "cache"].any (spells key) then
        match entry with
        | .table => do
            let settings ← settings.withFields? key (document.fields [.key key])
            settings.withSections? document rest
        | _ => none
      else
        settings.withSections? document rest

/-- Override settings with a file of settings. -/
def withDocument? (settings : Settings) (text : List Char) : Option Settings := do
  let document ← Toml.Document.read? text
  settings.withSections? document (document.fields [])

/-- The settings from all sources, before they are checked. -/
def gather (sources : SettingsSources) : Except SettingsError Settings := do
  let start := { standard with directory := sources.directory }
  let settingsPath := Path.join sources.directory "ember.toml"
  let variablesPath := Path.join sources.directory ".env"
  let filed ←
    match sources.settingsFile with
    | .absent => .ok start
    | .directory => .error (.unreadable settingsPath)
    | .text content =>
        match start.withDocument? content with
        | some settings => .ok settings
        | none => .error (.settingsFile settingsPath)
  let varied ←
    match sources.variablesFile with
    | .absent => .ok filed
    | .directory => .error (.unreadable variablesPath)
    | .text content =>
        match Dotenv.read? content with
        | none => .error (.variablesFile variablesPath)
        | some bindings =>
            (filed.withVariables bindings).mapError (.variable variablesPath)
  (varied.withVariables sources.environment).mapError (.variable "environment")

/-- The settings from all sources. -/
def load (sources : SettingsSources) : Except SettingsError Settings := do
  let settings ← gather sources
  match settings.validate with
  | .ok () => .ok settings
  | .error problem => .error (.refused problem)

end Settings

end Reckon
