import Mathlib.Data.List.Dedup
import Mathlib.Data.List.Forall2
import Reckon.Interpreter.Basic
import Reckon.Proofs.Outcome

namespace Reckon

/-!
# Remembered programs

An interpreter that remembers what it loaded answers as one that remembers nothing, as long as no
two contents of files have the same digest.

The two are followed side by side.  `Interpreter.Mirrors` says that they share a machine and that
the cache of the first holds one program for each distinct content that was loaded since the last
reset; every operation keeps it.
-/

namespace Files

/-- The contents of the files. -/
def contents (files : Files) : List (List UInt8) :=
  files.entries.filterMap fun entry =>
    match entry.2 with
    | .file content => some content
    | .directory => none

/-- What is read is the content of a file. -/
theorem mem_contents_of_read
    {files : Files}
    {path : String}
    {content : List UInt8}
    (isRead : files.read path = .ok content) :
    content ∈ files.contents := by
  unfold read at isRead
  split at isRead
  next found =>
    cases isRead
    obtain ⟨before, after, shape, _⟩ := List.lookup_eq_some_iff.mp found
    have member : (path, FileEntry.file content) ∈ files.entries := by
      rw [shape]
      exact List.mem_append_right _ (List.mem_cons_self ..)
    exact List.mem_filterMap.mpr ⟨_, member, rfl⟩
  next =>
    cases isRead
  next =>
    cases isRead

/-- Removing a file adds no contents. -/
theorem contents_remove_subset
    (files : Files)
    (path : String) :
    (files.remove path).contents ⊆ files.contents := by
  intro content member
  obtain ⟨entry, kept, holds⟩ := List.mem_filterMap.mp member
  exact List.mem_filterMap.mpr ⟨entry, List.mem_of_mem_filter kept, holds⟩

/-- Writing a file adds no content but its own. -/
theorem contents_write_subset
    (files : Files)
    (path : String)
    (content : List UInt8) :
    (files.write path content).contents ⊆ content :: files.contents := by
  intro other member
  rcases List.mem_cons.mp member with rfl | kept
  · exact List.mem_cons_self ..
  · exact List.mem_cons_of_mem _ (files.contents_remove_subset path kept)

end Files

namespace Interpreter

/-! ### Sessions -/

/-- Files, and an interpreter that loads programs from them. -/
structure Session where
  files : Files
  interpreter : Interpreter

/-- What a host can do in a session. -/
inductive Operation where
  | write (path : String) (content : List UInt8)
  | remove (path : String)
  | load (path : String)
  | runFile (path : String)
  | run (source : List Char)
  | reset

/-- What a host is told: the function of a program that was loaded, or the value of one that ran. -/
inductive Answer where
  | nothing
  | loaded (outcome : Outcome InterpreterError Function)
  | ran (outcome : Outcome InterpreterError Value)

namespace Operation

/-- The answer to an operation, and the session after it. -/
def apply : Operation → Session → Answer × Session
  | .write path content, session =>
      (.nothing, { session with files := session.files.write path content })
  | .remove path, session =>
      (.nothing, { session with files := session.files.remove path })
  | .load path, session =>
      let (outcome, interpreter) := session.interpreter.load session.files path
      (.loaded (outcome.map Program.function), { session with interpreter := interpreter })
  | .runFile path, session =>
      let (outcome, interpreter) := session.interpreter.runFile session.files path
      (.ran outcome, { session with interpreter := interpreter })
  | .run source, session =>
      let (outcome, interpreter) := session.interpreter.run source
      (.ran outcome, { session with interpreter := interpreter })
  | .reset, session =>
      (.nothing, { session with interpreter := session.interpreter.reset })

/-- The content that the operation writes, if it writes one. -/
def written? : Operation → Option (List UInt8)
  | .write _ content => some content
  | _ => none

end Operation

/-- The content that an outcome is about, if it is a program. -/
def contentIfDone
    (content : List UInt8) :
    Outcome InterpreterError Program → List (List UInt8)
  | .done _ => [content]
  | .failed _ | .aborted => []

/-- The content of the file at a path, if a program can be loaded from it. -/
def loadable
    (interpreter : Interpreter)
    (files : Files)
    (path : String) :
    List (List UInt8) :=
  match files.read path with
  | .ok content => contentIfDone content (interpreter.load files path).1
  | .error _ => []

namespace Session

/-- The answers to operations one after the other. -/
def answers : Session → List Operation → List Answer
  | _, [] => []
  | session, operation :: rest =>
      (operation.apply session).1 :: (operation.apply session).2.answers rest

/-- The session after operations one after the other. -/
def after (session : Session) (operations : List Operation) : Session :=
  operations.foldl (fun session operation => (operation.apply session).2) session

/-- The contents that were loaded since the last reset, when an operation comes behind others. -/
def noted (session : Session) (loaded : List (List UInt8)) :
    Operation → List (List UInt8)
  | .load path | .runFile path => session.interpreter.loadable session.files path ++ loaded
  | .reset => []
  | .write _ _ | .remove _ | .run _ => loaded

/-- The contents from which a program was loaded since the last reset, the latest first. -/
def loadedSince (loaded : List (List UInt8)) : Session → List Operation → List (List UInt8)
  | _, [] => loaded
  | session, operation :: rest =>
      (operation.apply session).2.loadedSince (session.noted loaded operation) rest

end Session

/-- The contents of all files that there are before or during a session. -/
def contentsOf (files : Files) (operations : List Operation) : List (List UInt8) :=
  files.contents ++ operations.filterMap Operation.written?

/-- The contents can be told apart by their digests. -/
def Distinct (contents : List (List UInt8)) : Prop :=
  ∀ content ∈ contents, ∀ other ∈ contents, digest content = digest other → content = other

instance (contents : List (List UInt8)) : Decidable (Distinct contents) :=
  inferInstanceAs (Decidable (∀ content ∈ contents, ∀ other ∈ contents,
    digest content = digest other → content = other))

/-! ### What is remembered -/

/-- Whether a file holds a program does not depend on where it lies. -/
theorem functionIn_of_functionIn
    {path : String}
    {content : List UInt8}
    {function : Function}
    (holds : functionIn path content = .done function)
    (other : String) :
    functionIn other content = .done function := by
  unfold functionIn at holds ⊢
  by_cases isImage : Image.isImage content = true
  · rw [if_pos isImage] at holds ⊢
    cases decoded : Image.decode content with
    | ok image =>
        simpa only [decoded] using holds
    | error problem =>
        simp only [decoded] at holds
        cases holds
  · rw [if_neg isImage] at holds ⊢
    exact Outcome.mapFailure_eq_done_iff.mpr (Outcome.mapFailure_eq_done_iff.mp holds)

/-- An entry of the cache remembers the program of a content. -/
structure Remembers
    (contents : List (List UInt8))
    (entry : List UInt8 × Program)
    (content : List UInt8) :
    Prop where
  isKnown : content ∈ contents
  key : entry.1 = digest content
  program : ∀ path, functionIn path content = .done entry.2.function

/-- The program of a content is found exactly if the content was loaded. -/
theorem lookup_of_remembers
    {contents loaded : List (List UInt8)}
    {cache : List (List UInt8 × Program)}
    {content : List UInt8}
    (distinct : Distinct contents)
    (entries : List.Forall₂ (Remembers contents) cache loaded)
    (isKnown : content ∈ contents) :
    (content ∉ loaded ∧ cache.lookup (digest content) = none) ∨
      (content ∈ loaded ∧
        ∃ program,
          cache.lookup (digest content) = some program ∧
            ∀ path, functionIn path content = .done program.function) := by
  induction entries with
  | nil =>
      exact Or.inl ⟨List.not_mem_nil, rfl⟩
  | @cons entry first cache rest remembers _ inductionHypothesis =>
      by_cases same : content = first
      · subst same
        have found : ((digest content) == entry.1) = true := by
          rw [remembers.key, beq_self_eq_true]
        refine Or.inr ⟨List.mem_cons_self .., entry.2, ?_, remembers.program⟩
        rw [List.lookup_cons, found]
      · have keysDiffer : (digest content == entry.1) = false := by
          rw [remembers.key, beq_eq_false_iff_ne]
          exact fun sameDigest => same (distinct _ isKnown _ remembers.isKnown sameDigest)
        rw [List.lookup_cons, keysDiffer]
        rcases inductionHypothesis with ⟨absent, notFound⟩ | ⟨present, found⟩
        · exact Or.inl ⟨by simp [same, absent], notFound⟩
        · exact Or.inr ⟨List.mem_cons_of_mem _ present, found⟩

/--
Two interpreters share a machine; the second remembers nothing, and the first remembers a program
for each distinct content that was loaded.
-/
structure Mirrors
    (contents : List (List UInt8))
    (keeping plain : Interpreter)
    (loaded : List (List UInt8)) :
    Prop where
  keeps : keeping.settings.cache = true
  forgets : plain.settings.cache = false
  sameMachine : keeping.machine = plain.machine
  entries : List.Forall₂ (Remembers contents) keeping.cache loaded.dedup

namespace Mirrors

variable
  {contents loaded : List (List UInt8)}
  {keeping plain : Interpreter}

/-- Without a memory, a program is made anew each time it is loaded. -/
theorem loadContent_plain
    (mirrors : Mirrors contents keeping plain loaded)
    (path : String)
    (content : List UInt8) :
    (plain.loadContent path content).1.map Program.function = functionIn path content ∧
      (plain.loadContent path content).2.machine = plain.machine ∧
        (plain.loadContent path content).2.settings = plain.settings := by
  have forgotten : plain.remembered? content = none := by
    simp [remembered?, mirrors.forgets]
  unfold loadContent
  rw [forgotten]
  cases functionIn path content with
  | done function =>
      have unchanged (program : Program) :
          (plain.register function).2.remember content program =
            (plain.register function).2 := by
        simp [remember, register, mirrors.forgets]
      simp only [unchanged]
      exact ⟨rfl, rfl, rfl⟩
  | failed error =>
      exact ⟨rfl, rfl, rfl⟩
  | aborted =>
      exact ⟨rfl, rfl, rfl⟩

/-- With a memory, the same program is found, and the content is remembered from then on. -/
theorem loadContent_keeping
    (mirrors : Mirrors contents keeping plain loaded)
    (distinct : Distinct contents)
    (path : String)
    {content : List UInt8}
    (isKnown : content ∈ contents) :
    (keeping.loadContent path content).1.map Program.function = functionIn path content ∧
      (keeping.loadContent path content).2.machine = keeping.machine ∧
        (keeping.loadContent path content).2.settings = keeping.settings ∧
          List.Forall₂ (Remembers contents) (keeping.loadContent path content).2.cache
            (contentIfDone content (keeping.loadContent path content).1 ++ loaded).dedup := by
  have looked :
      keeping.remembered? content = keeping.cache.lookup (digest content) := by
    simp [remembered?, mirrors.keeps]
  unfold loadContent
  rw [looked]
  rcases lookup_of_remembers distinct mirrors.entries isKnown with
    ⟨absent, notFound⟩ | ⟨present, program, found, holds⟩
  · rw [List.mem_dedup] at absent
    rw [notFound]
    cases made : functionIn path content with
    | done function =>
        refine ⟨rfl, ?_⟩
        simp only [register, remember, mirrors.keeps, ↓reduceIte, contentIfDone,
          List.singleton_append, List.dedup_cons_of_notMem absent, true_and]
        exact .cons ⟨isKnown, rfl, functionIn_of_functionIn made⟩ mirrors.entries
    | failed error =>
        exact ⟨rfl, rfl, rfl, mirrors.entries⟩
    | aborted =>
        exact ⟨rfl, rfl, rfl, mirrors.entries⟩
  · rw [List.mem_dedup] at present
    rw [found, holds path]
    refine ⟨rfl, rfl, rfl, ?_⟩
    simp only [contentIfDone, List.singleton_append, List.dedup_cons_of_mem present]
    exact mirrors.entries

/-- A file is loaded as the same function with a memory and without. -/
theorem load
    (mirrors : Mirrors contents keeping plain loaded)
    (distinct : Distinct contents)
    {files : Files}
    (known : files.contents ⊆ contents)
    (path : String) :
    (keeping.load files path).1.map Program.function =
        (plain.load files path).1.map Program.function ∧
      Mirrors contents (keeping.load files path).2 (plain.load files path).2
        (keeping.loadable files path ++ loaded) := by
  cases isRead : files.read path with
  | error problem =>
      simp only [Interpreter.load, loadable, isRead]
      exact ⟨trivial, mirrors⟩
  | ok content =>
      have isKnown := known (Files.mem_contents_of_read isRead)
      obtain ⟨keptFunction, keptMachine, keptSettings, entries⟩ :=
        mirrors.loadContent_keeping distinct path isKnown
      obtain ⟨plainFunction, plainMachine, plainSettings⟩ :=
        mirrors.loadContent_plain path content
      simp only [Interpreter.load, loadable, isRead]
      refine ⟨keptFunction.trans plainFunction.symm, ?_⟩
      exact
        { keeps := by rw [keptSettings, mirrors.keeps]
          forgets := by rw [plainSettings, mirrors.forgets]
          sameMachine := by rw [keptMachine, plainMachine, mirrors.sameMachine]
          entries := entries }

/-- A function runs alike on both, since they share a machine. -/
theorem execute
    (mirrors : Mirrors contents keeping plain loaded)
    (function : Function) :
    (keeping.execute function).1 = (plain.execute function).1 ∧
      Mirrors contents (keeping.execute function).2 (plain.execute function).2 loaded := by
  unfold Interpreter.execute
  rw [mirrors.sameMachine]
  exact ⟨rfl, mirrors.keeps, mirrors.forgets, rfl, mirrors.entries⟩

/-- Running a source has the same outcome, and the interpreters mirror each other after it. -/
theorem run
    (mirrors : Mirrors contents keeping plain loaded)
    (source : List Char) :
    (keeping.run source).1 = (plain.run source).1 ∧
      Mirrors contents (keeping.run source).2 (plain.run source).2 loaded := by
  unfold Interpreter.run
  cases functionOf source with
  | done function =>
      exact mirrors.execute function
  | failed error =>
      exact ⟨rfl, mirrors⟩
  | aborted =>
      exact ⟨rfl, mirrors⟩

/--
Running a file has the same outcome, and the interpreters mirror each other after it.  They agree
in all but the numbers of the programs.
-/
theorem runFile
    (mirrors : Mirrors contents keeping plain loaded)
    (distinct : Distinct contents)
    {files : Files}
    (known : files.contents ⊆ contents)
    (path : String) :
    (keeping.runFile files path).1 = (plain.runFile files path).1 ∧
      Mirrors contents (keeping.runFile files path).2 (plain.runFile files path).2
        (keeping.loadable files path ++ loaded) := by
  obtain ⟨sameFunction, loadedMirrors⟩ := mirrors.load distinct known path
  unfold Interpreter.runFile
  rcases keptShape : keeping.load files path with ⟨kept, keptAfter⟩
  rcases plainShape : plain.load files path with ⟨made, plainAfter⟩
  rw [keptShape, plainShape] at sameFunction loadedMirrors
  cases kept with
  | done program =>
      cases made with
      | done other =>
          simp only [Outcome.map, Outcome.done.injEq] at sameFunction
          simp only [sameFunction]
          exact loadedMirrors.execute other.function
      | failed _ | aborted =>
          cases sameFunction
  | failed error =>
      cases made with
      | failed other =>
          simp only [Outcome.map, Outcome.failed.injEq] at sameFunction
          exact ⟨congrArg Outcome.failed sameFunction, loadedMirrors⟩
      | done _ | aborted =>
          cases sameFunction
  | aborted =>
      cases made with
      | aborted =>
          exact ⟨rfl, loadedMirrors⟩
      | done _ | failed _ =>
          cases sameFunction

/-- After a reset the interpreters mirror each other, and nothing is loaded. -/
theorem reset
    (mirrors : Mirrors contents keeping plain loaded) :
    Mirrors contents keeping.reset plain.reset [] where
  keeps := mirrors.keeps
  forgets := mirrors.forgets
  sameMachine := congrArg Machine.reset mirrors.sameMachine
  entries := .nil

end Mirrors

/-- Interpreters that are new and differ only in whether they remember. -/
theorem mirrors_new
    (settings : Settings)
    (contents : List (List UInt8)) :
    Mirrors contents (new { settings with cache := true }) (new { settings with cache := false })
      [] where
  keeps := rfl
  forgets := rfl
  sameMachine := rfl
  entries := .nil

/-! ### Whole sessions -/

namespace Session

/-- Two sessions on the same files, whose interpreters mirror each other. -/
structure Mirrors
    (contents : List (List UInt8))
    (keeping plain : Session)
    (loaded : List (List UInt8)) :
    Prop where
  sameFiles : keeping.files = plain.files
  known : keeping.files.contents ⊆ contents
  interpreters : Interpreter.Mirrors contents keeping.interpreter plain.interpreter loaded

namespace Mirrors

variable
  {contents loaded : List (List UInt8)}
  {keeping plain : Session}

/-- One operation is answered alike in both sessions, and they go on side by side. -/
theorem apply
    (mirrors : Mirrors contents keeping plain loaded)
    (distinct : Distinct contents)
    (operation : Operation)
    (written : ∀ content, operation.written? = some content → content ∈ contents) :
    (operation.apply keeping).1 = (operation.apply plain).1 ∧
      Mirrors contents (operation.apply keeping).2 (operation.apply plain).2
        (keeping.noted loaded operation) := by
  obtain ⟨sameFiles, known, interpreters⟩ := mirrors
  cases operation with
  | write path content =>
      refine ⟨rfl, congrArg (Files.write · path content) sameFiles, ?_, interpreters⟩
      intro other member
      rcases List.mem_cons.mp (keeping.files.contents_write_subset path content member) with
        rfl | earlier
      · exact written other rfl
      · exact known earlier
  | remove path =>
      refine ⟨rfl, congrArg (Files.remove · path) sameFiles, ?_, interpreters⟩
      exact fun content member => known (keeping.files.contents_remove_subset path member)
  | load path =>
      obtain ⟨same, after⟩ := interpreters.load distinct known path
      simp only [Operation.apply, ← sameFiles, same]
      exact ⟨trivial, rfl, known, after⟩
  | runFile path =>
      obtain ⟨same, after⟩ := interpreters.runFile distinct known path
      simp only [Operation.apply, ← sameFiles, same]
      exact ⟨trivial, rfl, known, after⟩
  | run source =>
      obtain ⟨same, after⟩ := interpreters.run source
      simp only [Operation.apply, same]
      exact ⟨trivial, sameFiles, known, after⟩
  | reset =>
      exact ⟨rfl, sameFiles, known, interpreters.reset⟩

/-- Operations one after the other are answered alike. -/
theorem answers
    (mirrors : Mirrors contents keeping plain loaded)
    (distinct : Distinct contents)
    (operations : List Operation)
    (written : operations.filterMap Operation.written? ⊆ contents) :
    keeping.answers operations = plain.answers operations ∧
      Mirrors contents (keeping.after operations) (plain.after operations)
        (keeping.loadedSince loaded operations) := by
  induction operations generalizing keeping plain loaded with
  | nil =>
      exact ⟨rfl, mirrors⟩
  | cons operation rest inductionHypothesis =>
      obtain ⟨same, next⟩ :=
        mirrors.apply distinct operation fun content writes =>
          written (List.mem_filterMap.mpr ⟨operation, List.mem_cons_self .., writes⟩)
      have restWritten : rest.filterMap Operation.written? ⊆ contents := by
        intro content member
        obtain ⟨other, inRest, writes⟩ := List.mem_filterMap.mp member
        exact written (List.mem_filterMap.mpr ⟨other, List.mem_cons_of_mem _ inRest, writes⟩)
      obtain ⟨restSame, last⟩ := inductionHypothesis next restWritten
      exact ⟨by rw [Session.answers, Session.answers, same, restSame], last⟩

end Mirrors

end Session

/-- A file from which no program is loaded leaves the interpreter as it is. -/
theorem load_of_not_done
    {interpreter : Interpreter}
    {files : Files}
    {path : String}
    (fails : ∀ program, (interpreter.load files path).1 ≠ .done program) :
    (interpreter.load files path).2 = interpreter := by
  unfold load at fails ⊢
  split at fails
  next =>
    rfl
  next content _ =>
    unfold loadContent at fails ⊢
    split at fails
    next =>
      rfl
    next =>
      split at fails
      next =>
        exact (fails _ rfl).elim
      next =>
        rfl
      next =>
        rfl

/--
As long as no two contents of files have the same digest, an interpreter that remembers what it
loaded answers all operations of a session as one that does not.  At any time of the session it
remembers as many programs as distinct contents were loaded since the last reset, and a file that
cannot be loaded changes nothing of that.
-/
theorem answers_keeping_eq_answers_forgetting
    (settings : Settings)
    (files : Files)
    (operations : List Operation)
    (distinct : Distinct (contentsOf files operations)) :
    let keeping : Session := ⟨files, new { settings with cache := true }⟩
    let forgetting : Session := ⟨files, new { settings with cache := false }⟩
    keeping.answers operations = forgetting.answers operations ∧
      ∀ before,
        before <+: operations →
        let session := keeping.after before
        session.interpreter.cache.length = (keeping.loadedSince [] before).dedup.length ∧
          ∀ path,
            (∀ program, (session.interpreter.load session.files path).1 ≠ .done program) →
            (session.interpreter.load session.files path).2.cache =
              session.interpreter.cache := by
  intro keeping forgetting
  have mirrors :
      Session.Mirrors (contentsOf files operations) keeping forgetting [] :=
    ⟨rfl, List.subset_append_left .., mirrors_new settings _⟩
  refine ⟨(mirrors.answers distinct operations (List.subset_append_right ..)).1, ?_⟩
  rintro before ⟨later, rfl⟩ session
  have written :
      before.filterMap Operation.written? ⊆ contentsOf files (before ++ later) := by
    rw [contentsOf, List.filterMap_append]
    exact fun content member => List.mem_append_right _ (List.mem_append_left _ member)
  obtain ⟨_, reached⟩ := mirrors.answers distinct before written
  refine ⟨reached.interpreters.entries.length_eq, ?_⟩
  intro path fails
  rw [load_of_not_done fails]

/-- A file is loaded, run under another path, and loaded once more after a reset. -/
def sampleOperations : List Operation :=
  [.write "first" (Text.encode "6 / 3".toList), .load "first",
    .write "second" (Text.encode "6 / 3".toList), .runFile "second",
    .write "first" (Text.encode "1 +".toList), .load "first", .remove "first",
    .runFile "first", .reset, .load "second"]

/-- Two paths with the same content are remembered once, and a file that fails is not. -/
theorem answers_sampleOperations :
    let keeping : Session := ⟨.ofDirectory ".", new { Settings.standard with cache := true }⟩
    let forgetting : Session :=
      ⟨.ofDirectory ".", new { Settings.standard with cache := false }⟩
    Distinct (contentsOf (.ofDirectory ".") sampleOperations) ∧
      keeping.answers sampleOperations = forgetting.answers sampleOperations ∧
        (keeping.after (sampleOperations.take 8)).interpreter.cache.length = 1 := by
  intro keeping forgetting
  have distinct : Distinct (contentsOf (.ofDirectory ".") sampleOperations) := by
    decide +kernel
  obtain ⟨same, counted⟩ :=
    answers_keeping_eq_answers_forgetting .standard (.ofDirectory ".") sampleOperations distinct
  refine ⟨distinct, same, ?_⟩
  rw [(counted (sampleOperations.take 8) (List.take_prefix ..)).1]
  decide +kernel

end Interpreter

end Reckon
