import Reckon.Proofs.Interpreter.Meaning
import Reckon.Proofs.Syntax.Sequencing

namespace Reckon

/-!
# Programs in one source

Two sources that compile, with a line break between them, compile as one program as long as there
are not too many numbers in it.  Running it is running the first program and then the second one,
whose lines are counted on from the first.
-/

/-- How many numbers there are among the tokens of a source. -/
def numberCount (source : List Char) : Nat :=
  match tokenize source with
  | .ok tokens => tokens.countP (·.kind.isNumber)
  | .error _ => 0

namespace Script

variable
  {source first second : List Char}
  {script firstScript secondScript : Script}

/-- A program is read from a source if it derives the tokens that scanning gives. -/
theorem isReadFrom_iff :
    IsReadFrom source script ↔
      ∃ tokens last,
        (Scanner.ofSource source).Yields tokens last ∧ Derives tokens script := by
  constructor
  · rintro ⟨tokens, scanned, derived⟩
    obtain ⟨read, last, yields, rfl⟩ := tokenize_eq_ok_iff.mp scanned
    rw [Token.beforeEnd_append yields.kinds.1 yields.kinds.2] at derived
    exact ⟨read, last, yields, derived⟩
  · rintro ⟨read, last, yields, derived⟩
    refine ⟨read ++ [last], tokenize_eq_ok_iff.mpr ⟨read, last, yields, rfl⟩, ?_⟩
    rwa [Token.beforeEnd_append yields.kinds.1 yields.kinds.2]

/-- The literals of a program that was read from a source stand in it. -/
theorem IsReadFrom.exists_spans
    (read : IsReadFrom source script) :
    ∀ token ∈ literals script, ∃ text, token.Spans source text := by
  obtain ⟨tokens, last, yields, derived⟩ := isReadFrom_iff.mp read
  intro token member
  rw [derived.literals_eq] at member
  exact yields.exists_spans rfl token (List.mem_filter.mp member).1

/-- A program has as many literals as there are numbers in its source. -/
theorem IsReadFrom.length_literals
    (read : IsReadFrom source script) :
    (literals script).length = numberCount source := by
  obtain ⟨tokens, last, yields, derived⟩ := isReadFrom_iff.mp read
  have scanned := tokenize_eq_ok_iff.mpr ⟨tokens, last, yields, rfl⟩
  rw [derived.literals_eq, numberCount, scanned, ← List.countP_eq_length_filter]
  simp [yields.kinds.2, TokenKind.isNumber]

/-- A source without statements is read as no other program. -/
theorem IsReadFrom.nil_iff
    (read : IsReadFrom source script) :
    IsReadFrom source [] ↔ script = [] := by
  constructor
  · rintro ⟨tokens, scanned, derived⟩
    obtain ⟨others, othersScanned, othersDerived⟩ := read
    obtain rfl := Except.ok.inj (scanned.symm.trans othersScanned)
    generalize Token.beforeEnd tokens = given at derived othersDerived
    cases derived
    exact eq_nil_of_derives_nil othersDerived
  · rintro rfl
    exact read

/-- The program that two sources are read as, one below the other. -/
def joined (first : List Char) (firstScript secondScript : Script) : Script :=
  firstScript.moved 0 0 ++ secondScript.moved (first.length + 1) (lineCount first)

/-- Two sources with a line break between them are read as one program below the other. -/
theorem isReadFrom_joined
    (firstRead : IsReadFrom first firstScript)
    (secondRead : IsReadFrom second secondScript) :
    IsReadFrom (first ++ '\n' :: second) (joined first firstScript secondScript) := by
  obtain ⟨firstTokens, firstLast, firstYields, firstDerived⟩ := isReadFrom_iff.mp firstRead
  obtain ⟨secondTokens, secondLast, secondYields, secondDerived⟩ := isReadFrom_iff.mp secondRead
  refine isReadFrom_iff.mpr ⟨_, _, firstYields.joined secondYields, ?_⟩
  have firstMoved := firstDerived.moved 0 0
  simp only [Token.moved_zero, List.map_id'] at firstMoved
  exact firstMoved.append (secondDerived.moved _ _)

/-- A program keeps its value when another source is put behind its own. -/
theorem IsReadFrom.evaluate_front
    (read : IsReadFrom first firstScript)
    (second : List Char) :
    evaluate (first ++ '\n' :: second) (firstScript.moved 0 0) = evaluate first firstScript := by
  have kept := evaluate_moved 0 read.exists_spans [] ('\n' :: second)
  rwa [RuntimeError.moved_zero, Outcome.mapFailure_id] at kept

/-- A program keeps its value below another source, and counts its lines from there. -/
theorem IsReadFrom.evaluate_below
    (read : IsReadFrom second secondScript)
    (first : List Char) :
    evaluate (first ++ '\n' :: second)
        (secondScript.moved (first.length + 1) (lineCount first)) =
      (evaluate second secondScript).mapFailure (.moved (lineCount first)) := by
  have kept := evaluate_moved (lineCount first) read.exists_spans (first ++ ['\n']) []
  simpa using kept

/-- Programs in one source are evaluated in turn, unless there is no statement in the second. -/
theorem evaluate_joined
    (firstRead : IsReadFrom first firstScript)
    (secondRead : IsReadFrom second secondScript) :
    evaluate (first ++ '\n' :: second) (joined first firstScript secondScript) =
      if secondScript = [] then
        evaluate first firstScript
      else
        evaluate first firstScript >>= fun _ =>
          (evaluate second secondScript).mapFailure (.moved (lineCount first)) := by
  split
  next noStatement =>
    rw [joined, noStatement, moved, moved, List.map_nil, List.append_nil]
    exact firstRead.evaluate_front second
  next statements =>
    have present : secondScript.moved (first.length + 1) (lineCount first) ≠ [] := by
      simpa [moved] using statements
    rw [joined, evaluate_append _ _ present, firstRead.evaluate_front,
      secondRead.evaluate_below]

/-- Programs are admitted together if each of them is and there are not too many numbers. -/
theorem admits_joined
    (firstRead : IsReadFrom first firstScript)
    (secondRead : IsReadFrom second secondScript)
    (firstAdmitted : Chunk.empty.Admits first (literals firstScript))
    (secondAdmitted : Chunk.empty.Admits second (literals secondScript))
    (few : numberCount first + numberCount second ≤ 256) :
    Chunk.empty.Admits (first ++ '\n' :: second)
      (literals (joined first firstScript secondScript)) := by
  rw [joined, literals_append, literals_moved, literals_moved]
  constructor
  · intro token member
    rcases List.mem_append.mp member with inFirst | inSecond
    · obtain ⟨token, given, rfl⟩ := List.mem_map.mp inFirst
      obtain ⟨text, spans⟩ := firstRead.exists_spans token given
      have kept := Token.literal?_moved spans [] ('\n' :: second) 0
      rw [List.nil_append] at kept
      exact (firstAdmitted.decoded token given).imp fun value decoded => kept.trans decoded
    · obtain ⟨token, given, rfl⟩ := List.mem_map.mp inSecond
      obtain ⟨text, spans⟩ := secondRead.exists_spans token given
      have kept := Token.literal?_moved spans (first ++ ['\n']) [] (lineCount first)
      simp only [List.length_append, List.length_cons, List.length_nil, Nat.zero_add,
        List.append_assoc, List.cons_append, List.nil_append, List.append_nil] at kept
      exact (secondAdmitted.decoded token given).imp fun value decoded => kept.trans decoded
  · rw [List.length_append, List.length_map, List.length_map, firstRead.length_literals,
      secondRead.length_literals]
    simpa [Chunk.maxConstants] using few

end Script

namespace Compiler

/-- A source compiles to the function of a program that it is read as. -/
theorem compile_of_isReadFrom
    (compiler : Compiler)
    {source : List Char}
    {script : Script}
    (read : Script.IsReadFrom source script)
    (admitted : Chunk.empty.Admits source (Script.literals script)) :
    ∃ line, (compiler.compile source).1 = .done (Script.function source line script) := by
  obtain ⟨tokens, scanned, derived⟩ := read
  refine ⟨Token.endLine tokens, ?_⟩
  rw [compile, scanned]
  exact compileTokens_derived compiler source tokens derived admitted

end Compiler

namespace Machine

/-- With the standard limits, running the function of a program gives its value. -/
theorem AtRest.interpret_eq_evaluate
    {machine : Machine}
    (atRest : machine.AtRest)
    (standard : machine.options = MachineOptions.standard.filled)
    {source : List Char}
    {script : Script}
    (admitted : Chunk.empty.Admits source (Script.literals script))
    (line : Int64) :
    (machine.interpret (some (Script.function source line script))).1 =
      Script.evaluate source script := by
  have positive := MachineOptions.standard.filled_pos
  have size : MachineOptions.standard.filled.stackSize.toInt = 1024 := by
    decide
  have enough := Script.need_le_of_admits admitted
  rw [atRest.interpret_function, standard,
    Script.invoke_function admitted line positive.1 positive.2]
  exact Script.evaluateWithin_of_need_le source _ line (by omega)

/--
Two sources that compile and hold at most 256 numbers together, with a line break between them,
compile as well.  With the standard limits, what they compile to fails as the first program does;
if that one has a value, it has this value too where there is no statement in the second source,
and otherwise it ends as the second program does, with the line of an error counted on from the
first source.
-/
theorem interpret_joined
    {first second : List Char}
    {firstCompiler secondCompiler : Compiler}
    {firstFunction secondFunction : Function}
    (firstCompiled : (firstCompiler.compile first).1 = .done firstFunction)
    (secondCompiled : (secondCompiler.compile second).1 = .done secondFunction)
    (few : numberCount first + numberCount second ≤ 256)
    (compiler : Compiler) :
    ∃ function,
      (compiler.compile (first ++ '\n' :: second)).1 = .done function ∧
        ∀ machine : Machine,
          machine.AtRest →
          machine.options = MachineOptions.standard.filled →
          let outcome := (machine.interpret (some function)).1
          let firstOutcome := (machine.interpret (some firstFunction)).1
          let secondOutcome := (machine.interpret (some secondFunction)).1
          (∀ error, firstOutcome = .failed error → outcome = .failed error) ∧
            (firstOutcome = .aborted → outcome = .aborted) ∧
              ∀ value,
                firstOutcome = .done value →
                (Script.IsReadFrom second [] → outcome = .done value) ∧
                  (¬ Script.IsReadFrom second [] →
                    outcome = secondOutcome.mapFailure (.moved (lineCount first))) := by
  obtain ⟨firstScript, firstRead⟩ := Compiler.exists_isReadFrom_of_compile firstCompiled
  obtain ⟨secondScript, secondRead⟩ := Compiler.exists_isReadFrom_of_compile secondCompiled
  obtain ⟨firstAdmitted, firstLine, rfl⟩ :=
    Compiler.eq_function_of_compile firstCompiled firstRead
  obtain ⟨secondAdmitted, secondLine, rfl⟩ :=
    Compiler.eq_function_of_compile secondCompiled secondRead
  have read := Script.isReadFrom_joined firstRead secondRead
  have admitted :=
    Script.admits_joined firstRead secondRead firstAdmitted secondAdmitted few
  obtain ⟨line, compiled⟩ := compiler.compile_of_isReadFrom read admitted
  refine ⟨_, compiled, fun machine atRest standard => ?_⟩
  simp only [atRest.interpret_eq_evaluate standard firstAdmitted,
    atRest.interpret_eq_evaluate standard secondAdmitted,
    atRest.interpret_eq_evaluate standard admitted, secondRead.nil_iff,
    Script.evaluate_joined firstRead secondRead]
  by_cases empty : secondScript = []
  · simp [empty]
  · simp only [empty, ↓reduceIte, false_implies, not_false_eq_true, true_implies, true_and]
    refine ⟨?_, ?_, ?_⟩
    · intro error failed
      rw [failed]
      rfl
    · intro aborted
      rw [aborted]
      rfl
    · intro value done
      rw [done]
      rfl

/-- A program that fails on its second line. -/
def failingSource : List Char :=
  "\n5 // 0".toList

/-- The program that the failing source reads as. -/
def failingScript : Script :=
  [.expression
    (.binary (.number ⟨.integer, 1, 2, 2⟩) .slashSlash ⟨.slashSlash, 3, 2, 2⟩
      (.number ⟨.integer, 6, 2, 2⟩))]

theorem failingScript_isReadFrom :
    Script.IsReadFrom failingSource failingScript := by
  have number (level : BindingLevel) (token : Token) (isNumber : token.kind.isNumber = true) :
      Expression.Derives level [token] (.number token) :=
    (Expression.Derives.number isNumber).loosen level.rank_le_primary
  have quotient :
      Expression.Derives .factor
        [⟨.integer, 1, 2, 2⟩, ⟨.slashSlash, 3, 2, 2⟩, ⟨.integer, 6, 2, 2⟩]
        (.binary _ .slashSlash _ _) :=
    .binary (number .factor ⟨.integer, 1, 2, 2⟩ rfl) rfl rfl (number .power _ rfl)
  exact ⟨_, rfl, .cons (.expression (quotient.loosen (by decide))) .nil⟩

theorem compile_failingSource :
    (Compiler.new.compile failingSource).1 =
      .done (Script.function failingSource 2 failingScript) :=
  rfl

theorem not_isReadFrom_failingSource :
    ¬ Script.IsReadFrom failingSource [] := by
  rw [failingScript_isReadFrom.nil_iff]
  exact List.cons_ne_nil _ _

/-- The failing program fails on the fourth line where the sample stands before it. -/
theorem interpret_joined_failing :
    numberCount sampleSource + numberCount failingSource ≤ 256 ∧
      ∃ function,
        (Compiler.new.compile (sampleSource ++ '\n' :: failingSource)).1 = .done function ∧
          ((new .standard).interpret (some function)).1 =
            .failed (.inScript 4 (.arithmetic (.divisionByZero .quotient 5))) := by
  have few : numberCount sampleSource + numberCount failingSource ≤ 256 := by
    decide
  obtain ⟨sampleAdmitted, _⟩ :=
    Compiler.eq_function_of_compile compile_sampleSource sampleScript_isReadFrom
  obtain ⟨failingAdmitted, _⟩ :=
    Compiler.eq_function_of_compile compile_failingSource failingScript_isReadFrom
  obtain ⟨function, compiled, means⟩ :=
    interpret_joined compile_sampleSource compile_failingSource few Compiler.new
  have atRest := atRest_new .standard
  obtain ⟨_, _, goesOn⟩ := means (new .standard) atRest rfl
  rw [atRest.interpret_eq_evaluate rfl sampleAdmitted,
    atRest.interpret_eq_evaluate rfl failingAdmitted] at goesOn
  refine ⟨few, function, compiled, ?_⟩
  exact (goesOn (.integer 2) rfl).2 not_isReadFrom_failingSource

end Machine

end Reckon
