import Reckon.Proofs.Settings.Variables

namespace Reckon

/-!
# One layer over the other

Settings are overridden by the variables of a file and then by those of the environment.  The two
steps come to one choice for each setting: the environment's value, else the file's, else the
value from before.  A variable of the file has to be readable all the same, also where the
environment overrides it.
-/

namespace SettingsSources

/-- The settings before any variable: the standard ones with those of the file over them. -/
def base? (sources : SettingsSources) : Option Settings :=
  let start : Settings := { Settings.standard with directory := sources.directory }
  match sources.settingsFile with
  | .absent => some start
  | .directory => none
  | .text content => start.withDocument? content

/-- The variables of the file; a file that is not there has none. -/
def variables? (sources : SettingsSources) : Option (List (String × String)) :=
  match sources.variablesFile with
  | .absent => some []
  | .directory => none
  | .text content => Dotenv.read? content

end SettingsSources

namespace Settings

/-! ### One setting -/

section Setting

variable
  {α : Type}
  (reads : String → α → Prop)
  (name : String)

/-- The text of a variable, if it is given, can be read. -/
def ReadableAs (bindings : List (String × String)) : Prop :=
  ∀ text, bindings.lookup name = some text → ∃ value, reads text value

/-- The value of a variable, or the present value if the variable is not given. -/
inductive Overridden (bindings : List (String × String)) (present : α) : α → Prop where
  | given
      {text : String}
      {value : α}
      (bound : bindings.lookup name = some text)
      (read : reads text value) :
      Overridden bindings present value
  | kept
      (unbound : bindings.lookup name = none) :
      Overridden bindings present present

/-- The value in the environment, else that in the file, else the one from before. -/
inductive Chosen (file environment : List (String × String)) (base : α) : α → Prop where
  | environment
      {text : String}
      {value : α}
      (bound : environment.lookup name = some text)
      (read : reads text value) :
      Chosen file environment base value
  | file
      {text : String}
      {value : α}
      (unbound : environment.lookup name = none)
      (bound : file.lookup name = some text)
      (read : reads text value) :
      Chosen file environment base value
  | base
      (unbound : environment.lookup name = none)
      (unboundBelow : file.lookup name = none) :
      Chosen file environment base base

variable
  {reads name}
  {file environment : List (String × String)}
  {base value : α}

/-- A variable that overrides a value can be read. -/
theorem Overridden.readableAs
    (overridden : Overridden reads name file base value) :
    ReadableAs reads name file := by
  intro text bound
  cases overridden with
  | given boundToo read =>
      cases boundToo.symm.trans bound
      exact ⟨value, read⟩
  | kept unbound =>
      cases unbound.symm.trans bound

/-- A choice can be made only if the upper layer can be read. -/
theorem Chosen.readableAs
    (chosen : Chosen reads name file environment base value) :
    ReadableAs reads name environment := by
  intro text bound
  cases chosen with
  | environment boundToo read =>
      cases boundToo.symm.trans bound
      exact ⟨value, read⟩
  | file unbound =>
      cases unbound.symm.trans bound
  | base unbound =>
      cases unbound.symm.trans bound

/-- Two steps of overriding are one choice. -/
theorem Overridden.chosen
    {varied : α}
    (first : Overridden reads name file base varied)
    (second : Overridden reads name environment varied value) :
    Chosen reads name file environment base value := by
  cases second with
  | given bound read =>
      exact .environment bound read
  | kept unbound =>
      cases first with
      | given bound read => exact .file unbound bound read
      | kept unboundBelow => exact .base unbound unboundBelow

/--
A choice is two steps of overriding, if the lower layer can be read.  It is overridden whatever its
value is.
-/
theorem Chosen.exists_overridden
    (chosen : Chosen reads name file environment base value)
    (readable : ReadableAs reads name file) :
    ∃ varied,
      Overridden reads name file base varied ∧
        Overridden reads name environment varied value := by
  cases chosen with
  | environment bound read =>
      cases boundBelow : file.lookup name with
      | none =>
          exact ⟨base, .kept boundBelow, .given bound read⟩
      | some text =>
          obtain ⟨varied, readBelow⟩ := readable text boundBelow
          exact ⟨varied, .given boundBelow readBelow, .given bound read⟩
  | file unbound bound read =>
      exact ⟨value, .given bound read, .kept unbound⟩
  | base unbound unboundBelow =>
      exact ⟨_, .kept unboundBelow, .kept unbound⟩

/-- There is one choice, if a text stands for one value. -/
theorem Chosen.unique
    (functional : ∀ text first second, reads text first → reads text second → first = second)
    {other : α}
    (chosen : Chosen reads name file environment base value)
    (otherChosen : Chosen reads name file environment base other) :
    value = other := by
  cases chosen with
  | environment bound read =>
      cases otherChosen with
      | environment otherBound otherRead =>
          cases bound.symm.trans otherBound
          exact functional _ _ _ read otherRead
      | file unbound => cases unbound.symm.trans bound
      | base unbound => cases unbound.symm.trans bound
  | file unbound bound read =>
      cases otherChosen with
      | environment otherBound => cases unbound.symm.trans otherBound
      | file _ otherBound otherRead =>
          cases bound.symm.trans otherBound
          exact functional _ _ _ read otherRead
      | base _ unboundBelow => cases unboundBelow.symm.trans bound
  | base unbound unboundBelow =>
      cases otherChosen with
      | environment otherBound => cases unbound.symm.trans otherBound
      | file _ otherBound => cases unboundBelow.symm.trans otherBound
      | base => rfl

/-- Overriding a value with a variable succeeds with the value that it is overridden by. -/
theorem override_eq_ok_iff
    {read : String → Except Decimal.Problem α}
    (readsAs : ∀ {text value}, read text = .ok value ↔ reads text value)
    {reader : VariableReader} :
    override file name reader read base = .ok value ↔
      Overridden reads name file base value := by
  unfold override
  constructor
  · intro overridden
    split at overridden
    next unbound =>
      cases overridden
      exact .kept unbound
    next text bound =>
      split at overridden
      next found isRead =>
        cases overridden
        exact .given bound (readsAs.mp isRead)
      next =>
        cases overridden
  · rintro (⟨bound, isRead⟩ | unbound)
    · simp only [bound, readsAs.mpr isRead]
    · simp only [unbound]

end Setting

/-- A text stands for itself. -/
def PlainText (text value : String) : Prop :=
  value = text

/-- A text stands for itself alone. -/
theorem PlainText.unique
    {text first second : String}
    (firstRead : PlainText text first)
    (secondRead : PlainText text second) :
    first = second :=
  firstRead.trans secondRead.symm

/-- The text of a variable, if it is given, overrides the present one. -/
theorem eq_getD_lookup_iff
    {bindings : List (String × String)}
    {name present value : String} :
    value = (bindings.lookup name).getD present ↔
      Overridden PlainText name bindings present value := by
  constructor
  · rintro rfl
    cases bound : bindings.lookup name with
    | none => exact .kept bound
    | some text => exact .given bound rfl
  · rintro (⟨bound, isRead⟩ | unbound)
    · rw [bound]
      exact isRead
    · rw [unbound]
      rfl

/-! ### All settings -/

/-- Settings that variables override others with. -/
structure OverriddenBy
    (settings : Settings)
    (bindings : List (String × String))
    (after : Settings) : Prop where
  maxFrames :
    Overridden NumberText "EMBER_MAX_FRAMES" bindings settings.maxFrames after.maxFrames
  stackSize :
    Overridden NumberText "EMBER_STACK_SIZE" bindings settings.stackSize after.stackSize
  trace :
    Overridden TruthText "EMBER_TRACE" bindings settings.trace after.trace
  verbosity :
    Overridden NumberText "EMBER_LOG_VERBOSITY" bindings settings.verbosity after.verbosity
  journalFile :
    Overridden PlainText "EMBER_LOG_FILE" bindings settings.journalFile after.journalFile
  cache :
    Overridden TruthText "EMBER_CACHE" bindings settings.cache after.cache
  directory :
    after.directory = settings.directory

/-- The variables for numbers and truth values can be read, as far as they are given. -/
structure Readable (bindings : List (String × String)) : Prop where
  maxFrames : ReadableAs NumberText "EMBER_MAX_FRAMES" bindings
  stackSize : ReadableAs NumberText "EMBER_STACK_SIZE" bindings
  trace : ReadableAs TruthText "EMBER_TRACE" bindings
  verbosity : ReadableAs NumberText "EMBER_LOG_VERBOSITY" bindings
  cache : ReadableAs TruthText "EMBER_CACHE" bindings

/-- Each setting is the environment's, else the file's, else the one from before. -/
structure ChosenFrom
    (base : Settings)
    (file environment : List (String × String))
    (settings : Settings) : Prop where
  maxFrames :
    Chosen NumberText "EMBER_MAX_FRAMES" file environment base.maxFrames settings.maxFrames
  stackSize :
    Chosen NumberText "EMBER_STACK_SIZE" file environment base.stackSize settings.stackSize
  trace :
    Chosen TruthText "EMBER_TRACE" file environment base.trace settings.trace
  verbosity :
    Chosen NumberText "EMBER_LOG_VERBOSITY" file environment base.verbosity settings.verbosity
  journalFile :
    Chosen PlainText "EMBER_LOG_FILE" file environment base.journalFile settings.journalFile
  cache :
    Chosen TruthText "EMBER_CACHE" file environment base.cache settings.cache
  directory :
    settings.directory = base.directory

/-- The sizes and the verbosity are within bounds. -/
structure IsAdmissible (settings : Settings) : Prop where
  maxFrames : 1 ≤ settings.maxFrames.toInt
  stackSize : 2 ≤ settings.stackSize.toInt
  verbosity : -4 ≤ settings.verbosity.toInt

theorem bind_eq_ok_iff
    {ε α β : Type}
    {first : Except ε α}
    {next : α → Except ε β}
    {result : β} :
    first >>= next = .ok result ↔ ∃ value, first = .ok value ∧ next value = .ok result := by
  cases first with
  | error problem => simp [bind, Except.bind]
  | ok value => simp [bind, Except.bind]

theorem mapError_eq_ok_iff
    {ε δ α : Type}
    {change : ε → δ}
    {first : Except ε α}
    {result : α} :
    first.mapError change = .ok result ↔ first = .ok result := by
  cases first with
  | error problem => simp [Except.mapError]
  | ok value => simp [Except.mapError]

section Layers

variable
  {base settings : Settings}
  {file environment : List (String × String)}

/-- Variables override settings one by one. -/
theorem withVariables_eq_ok_iff :
    base.withVariables file = .ok settings ↔ base.OverriddenBy file settings := by
  simp only [withVariables, bind_eq_ok_iff, override_eq_ok_iff readNumber_eq_ok_iff,
    override_eq_ok_iff readTruth_eq_ok_iff]
  constructor
  · rintro ⟨_, maxFrames, _, stackSize, _, trace, _, verbosity, _, cache, ⟨⟩⟩
    exact ⟨maxFrames, stackSize, trace, verbosity, eq_getD_lookup_iff.mp rfl, cache, rfl⟩
  · intro overridden
    refine
      ⟨_, overridden.maxFrames, _, overridden.stackSize, _, overridden.trace, _,
        overridden.verbosity, _, overridden.cache, ?_⟩
    rw [← eq_getD_lookup_iff.mpr overridden.journalFile, ← overridden.directory]

/-- Variables that override settings can be read. -/
theorem OverriddenBy.readable
    (overridden : base.OverriddenBy file settings) :
    Readable file where
  maxFrames := overridden.maxFrames.readableAs
  stackSize := overridden.stackSize.readableAs
  trace := overridden.trace.readableAs
  verbosity := overridden.verbosity.readableAs
  cache := overridden.cache.readableAs

/-- Settings can be chosen only if the environment can be read. -/
theorem ChosenFrom.readable
    (chosen : ChosenFrom base file environment settings) :
    Readable environment where
  maxFrames := chosen.maxFrames.readableAs
  stackSize := chosen.stackSize.readableAs
  trace := chosen.trace.readableAs
  verbosity := chosen.verbosity.readableAs
  cache := chosen.cache.readableAs

/-- The file over the settings from before and the environment over both is one choice. -/
theorem exists_overriddenBy_iff :
    (∃ varied, base.OverriddenBy file varied ∧ varied.OverriddenBy environment settings) ↔
      Readable file ∧ ChosenFrom base file environment settings := by
  constructor
  · rintro ⟨varied, first, second⟩
    refine ⟨first.readable, ?_⟩
    exact
      { maxFrames := first.maxFrames.chosen second.maxFrames
        stackSize := first.stackSize.chosen second.stackSize
        trace := first.trace.chosen second.trace
        verbosity := first.verbosity.chosen second.verbosity
        journalFile := first.journalFile.chosen second.journalFile
        cache := first.cache.chosen second.cache
        directory := second.directory.trans first.directory }
  · rintro ⟨readable, chosen⟩
    obtain ⟨maxFrames, maxFramesBelow, maxFramesAbove⟩ :=
      chosen.maxFrames.exists_overridden readable.maxFrames
    obtain ⟨stackSize, stackSizeBelow, stackSizeAbove⟩ :=
      chosen.stackSize.exists_overridden readable.stackSize
    obtain ⟨trace, traceBelow, traceAbove⟩ :=
      chosen.trace.exists_overridden readable.trace
    obtain ⟨verbosity, verbosityBelow, verbosityAbove⟩ :=
      chosen.verbosity.exists_overridden readable.verbosity
    obtain ⟨journalFile, journalFileBelow, journalFileAbove⟩ :=
      chosen.journalFile.exists_overridden fun text _ => ⟨text, rfl⟩
    obtain ⟨cache, cacheBelow, cacheAbove⟩ :=
      chosen.cache.exists_overridden readable.cache
    refine
      ⟨⟨maxFrames, stackSize, trace, verbosity, journalFile, cache, base.directory⟩, ?_, ?_⟩
    · exact
        ⟨maxFramesBelow, stackSizeBelow, traceBelow, verbosityBelow, journalFileBelow, cacheBelow,
          rfl⟩
    · exact
        ⟨maxFramesAbove, stackSizeAbove, traceAbove, verbosityAbove, journalFileAbove, cacheAbove,
          chosen.directory⟩

/-- The settings that are chosen are determined. -/
theorem ChosenFrom.unique
    {other : Settings}
    (chosen : ChosenFrom base file environment settings)
    (otherChosen : ChosenFrom base file environment other) :
    settings = other := by
  cases settings
  cases other
  simp only [mk.injEq]
  exact
    ⟨chosen.maxFrames.unique @NumberText.unique otherChosen.maxFrames,
      chosen.stackSize.unique @NumberText.unique otherChosen.stackSize,
      chosen.trace.unique @TruthText.unique otherChosen.trace,
      chosen.verbosity.unique @NumberText.unique otherChosen.verbosity,
      chosen.journalFile.unique @PlainText.unique otherChosen.journalFile,
      chosen.cache.unique @TruthText.unique otherChosen.cache,
      chosen.directory.trans otherChosen.directory.symm⟩

/-- The check accepts the settings that are admissible, and no others. -/
theorem validate_eq_ok_iff :
    settings.validate = .ok () ↔ settings.IsAdmissible := by
  have one : (1 : Int64).toInt = 1 := rfl
  have two : (2 : Int64).toInt = 2 := rfl
  have four : (-4 : Int64).toInt = -4 := rfl
  simp only [validate, Int64.lt_iff_toInt_lt, one, two, four]
  constructor
  · intro valid
    split at valid
    next => cases valid
    next frames =>
      split at valid
      next => cases valid
      next stack =>
        split at valid
        next => cases valid
        next level => exact ⟨by omega, by omega, by omega⟩
  · rintro ⟨frames, stack, level⟩
    rw [if_neg (by omega), if_neg (by omega), if_neg (by omega)]

end Layers

/-- No variables override nothing. -/
theorem withVariables_nil
    (settings : Settings) :
    settings.withVariables [] = .ok settings :=
  rfl

section Loading

variable
  {sources : SettingsSources}
  {base settings : Settings}
  {file : List (String × String)}
  (filed : sources.base? = some base)
  (parsed : sources.variables? = some file)

include filed parsed

/-- The two layers of variables go over the settings from the file, one after the other. -/
theorem gather_eq_ok_iff :
    gather sources = .ok settings ↔
      ∃ varied,
        base.OverriddenBy file varied ∧ varied.OverriddenBy sources.environment settings := by
  obtain ⟨directory, settingsFile, variablesFile, environment⟩ := sources
  simp only [SettingsSources.base?] at filed
  simp only [SettingsSources.variables?] at parsed
  simp only [← withVariables_eq_ok_iff, gather]
  cases settingsFile with
  | directory => cases filed
  | absent | text =>
      cases variablesFile with
      | directory => cases parsed
      | absent =>
          cases parsed
          simp only [Option.some.injEq] at filed
          simp only [filed, bind_eq_ok_iff, Except.ok.injEq, exists_eq_left', withVariables_nil,
            mapError_eq_ok_iff]
      | text =>
          simp only [Option.some.injEq] at filed
          simp only [filed, parsed, bind_eq_ok_iff, Except.ok.injEq, exists_eq_left',
            mapError_eq_ok_iff]

/-- Settings are loaded if both layers can be read and what is chosen from them is admissible. -/
theorem load_eq_ok_iff :
    load sources = .ok settings ↔
      Readable file ∧
        ChosenFrom base file sources.environment settings ∧ settings.IsAdmissible := by
  rw [← and_assoc, ← exists_overriddenBy_iff, ← gather_eq_ok_iff filed parsed,
    ← validate_eq_ok_iff]
  unfold load
  rw [bind_eq_ok_iff]
  constructor
  · rintro ⟨gathered, gatheredShape, accepted⟩
    split at accepted
    next valid =>
      cases accepted
      exact ⟨gatheredShape, valid⟩
    next =>
      cases accepted
  · rintro ⟨gathered, valid⟩
    exact ⟨settings, gathered, by rw [valid]⟩

end Loading

/-- A machine takes sizes within bounds as they are. -/
theorem IsAdmissible.options_new
    {settings : Settings}
    (admissible : settings.IsAdmissible) :
    (Machine.new settings.machineOptions).options =
      { stackSize := settings.stackSize
        maxFrames := settings.maxFrames
        trace := settings.trace } := by
  have zero : (0 : Int64).toInt = 0 := rfl
  have frames := admissible.maxFrames
  have stack := admissible.stackSize
  have someFrames : ¬ settings.maxFrames ≤ 0 := by
    rw [Int64.le_iff_toInt_le, zero]
    omega
  have someStack : ¬ settings.stackSize ≤ 0 := by
    rw [Int64.le_iff_toInt_le, zero]
    omega
  simp only [Machine.new, MachineOptions.filled, machineOptions, someFrames, someStack, ↓reduceIte]

/--
Settings are loaded exactly when the variables of both layers can be read and the settings that
are chosen from them are within bounds.  What is loaded is that choice, and a machine of these
settings has these sizes.
-/
theorem load_chooses_from_layers
    {sources : SettingsSources}
    {base : Settings}
    {file : List (String × String)}
    (filed : sources.base? = some base)
    (parsed : sources.variables? = some file) :
    ((∃ settings, load sources = .ok settings) ↔
        Readable file ∧
          Readable sources.environment ∧
            ∃ settings,
              ChosenFrom base file sources.environment settings ∧ settings.IsAdmissible) ∧
      ∀ settings,
        load sources = .ok settings →
          ChosenFrom base file sources.environment settings ∧
            (∀ other, ChosenFrom base file sources.environment other → other = settings) ∧
              (Machine.new settings.machineOptions).options =
                { stackSize := settings.stackSize
                  maxFrames := settings.maxFrames
                  trace := settings.trace } := by
  constructor
  · constructor
    · rintro ⟨settings, loaded⟩
      obtain ⟨readable, chosen, admissible⟩ := (load_eq_ok_iff filed parsed).mp loaded
      exact ⟨readable, chosen.readable, settings, chosen, admissible⟩
    · rintro ⟨readable, _, settings, chosen, admissible⟩
      exact ⟨settings, (load_eq_ok_iff filed parsed).mpr ⟨readable, chosen, admissible⟩⟩
  · intro settings loaded
    obtain ⟨_, chosen, admissible⟩ := (load_eq_ok_iff filed parsed).mp loaded
    exact ⟨chosen, fun other otherChosen => otherChosen.unique chosen, admissible.options_new⟩

/-- Sources of which each overrides the one before, the last with an empty name of a file. -/
def threeSources : SettingsSources where
  directory := "/d"
  settingsFile := .text "[vm]\nmax-frames = 8\n[log]\nfile = \"a.log\"\n".toList
  variablesFile := .text "EMBER_STACK_SIZE=256\nEMBER_CACHE=true\n".toList
  environment := [("EMBER_CACHE", "f"), ("EMBER_LOG_FILE", "")]

/-- The settings of the file among these sources. -/
def threeSourcesBase : Settings :=
  { standard with maxFrames := 8, journalFile := "a.log", directory := "/d" }

theorem load_threeSources :
    threeSources.base? = some threeSourcesBase ∧
      threeSources.variables? = some [("EMBER_CACHE", "true"), ("EMBER_STACK_SIZE", "256")] ∧
        ∃ settings,
          load threeSources = .ok settings ∧
            settings.maxFrames = 8 ∧
              settings.stackSize = 256 ∧ settings.journalFile = "" ∧ settings.cache = false := by
  have filed : threeSources.base? = some threeSourcesBase := by
    decide +kernel
  have parsed :
      threeSources.variables? = some [("EMBER_CACHE", "true"), ("EMBER_STACK_SIZE", "256")] := by
    decide +kernel
  have number : NumberText "256" 256 := readNumber_eq_ok_iff.mp rfl
  have chosen :
      ChosenFrom threeSourcesBase [("EMBER_CACHE", "true"), ("EMBER_STACK_SIZE", "256")]
        threeSources.environment
        { threeSourcesBase with stackSize := 256, journalFile := "", cache := false } := by
    exact
      { maxFrames := .base rfl rfl
        stackSize := .file rfl rfl number
        trace := .base rfl rfl
        verbosity := .base rfl rfl
        journalFile := .environment rfl rfl
        cache := .environment rfl (show TruthText "f" false by simp [TruthText])
        directory := rfl }
  have readable : Readable [("EMBER_CACHE", "true"), ("EMBER_STACK_SIZE", "256")] := by
    constructor
    all_goals
      intro text bound
      simp [List.lookup] at bound
    · subst bound
      exact ⟨256, number⟩
    · subst bound
      exact ⟨true, by simp [TruthText]⟩
  obtain ⟨succeeds, chooses⟩ := load_chooses_from_layers filed parsed
  obtain ⟨settings, loaded⟩ :=
    succeeds.mpr
      ⟨readable, chosen.readable, _, chosen, by decide, by decide, by decide⟩
  obtain ⟨_, only, _⟩ := chooses settings loaded
  refine ⟨filed, parsed, settings, loaded, ?_⟩
  rw [← only _ chosen]
  exact ⟨rfl, rfl, rfl, rfl⟩

end Settings

end Reckon
