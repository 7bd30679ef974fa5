import Reckon.Proofs.Compiler.Programs

namespace Reckon

/-!
# Accepted programs

A list of tokens compiles exactly when the tokens up to the end of the input derive from the
grammar, each number among them has a value, and there are no more numbers than constants can be
told apart.  The function that it compiles to is the postfix code of any derivation.
-/

namespace Token

/-- The tokens before the end of the input. -/
def beforeEnd (tokens : List Token) : List Token :=
  tokens.takeWhile (·.kind ≠ .endOfInput)

/-- The line that the end of the input is on: its own, or that of the last token, or the first. -/
def endLine (tokens : List Token) : Int64 :=
  match tokens.find? (·.kind = .endOfInput) with
  | some ending => ending.line
  | none =>
      match tokens.getLast? with
      | some last => last.line
      | none => 1

/-- Tokens that do not end the input come before its end. -/
theorem beforeEnd_append
    {tokens : List Token}
    {ending : Token}
    (goOn : ∀ token ∈ tokens, token.kind ≠ .endOfInput)
    (ends : ending.kind = .endOfInput)
    (rest : List Token) :
    beforeEnd (tokens ++ ending :: rest) = tokens := by
  have passed : ∀ token ∈ tokens, (decide (token.kind ≠ .endOfInput)) = true := by
    simpa using goOn
  rw [beforeEnd, List.takeWhile_append_of_pos passed]
  simp [ends]

/-- None of the tokens before the end of the input ends it. -/
theorem kind_ne_endOfInput_of_mem_beforeEnd
    (tokens : List Token) :
    ∀ token ∈ beforeEnd tokens, token.kind ≠ .endOfInput := by
  have passed : ((beforeEnd tokens).all (·.kind ≠ .endOfInput)) = true :=
    List.all_takeWhile
  simpa using passed

end Token

namespace Script

/-- Nothing is popped at the end of any other program. -/
theorem lastPop?_of_not_endsInExpression
    {script : Script}
    (endsNot : endsInExpression script = false)
    (code : List CodeUnit) :
    lastPop? none code script = none := by
  unfold endsInExpression at endsNot
  unfold lastPop?
  cases last : script.getLast? with
  | none =>
      rfl
  | some statement =>
      cases statement with
      | expression value =>
          simp [last] at endsNot
      | assertion word condition =>
          rfl

/-- Whether a program is admitted can be told from the tokens that it derives from. -/
theorem Derives.admits_iff
    {source : List Char}
    {tokens : List Token}
    {script : Script}
    (derived : Derives tokens script) :
    Chunk.empty.Admits source (literals script) ↔
      (∀ token ∈ tokens.filter (·.kind.isNumber),
          ∃ value, token.literal? source = some value) ∧
        (tokens.filter (·.kind.isNumber)).length ≤ 256 := by
  rw [derived.literals_eq]
  constructor
  · rintro ⟨decoded, room⟩
    exact ⟨decoded, by simpa [Chunk.maxConstants] using room⟩
  · rintro ⟨decoded, room⟩
    exact ⟨decoded, by simpa [Chunk.maxConstants] using room⟩

/-- The function that a program compiles to. -/
def function (source : List Char) (line : Int64) (script : Script) : Function :=
  { name := Function.scriptName, arity := 0, chunk? := some (chunk source line script) }

end Script

namespace Chunk

/-- An instruction of one unit is taken back by cutting the code where it starts. -/
theorem truncate?_extend_plain
    (instructions : List Instruction)
    (constants : List Value)
    (opcode : Opcode)
    (line : Int64)
    (short : opcode.operandKinds = []) :
    (empty.extend (instructions ++ [.plain opcode line]) constants).truncate?
        (Instruction.code instructions).length =
      some (empty.extend instructions constants) := by
  simp [truncate?, extend, empty, Instruction.units_plain short, List.take_left']

end Chunk

namespace Compiler

variable
  (compiler : Compiler)
  (source : List Char)
  (tokens : List Token)

/-- Tokens are only added to behind. -/
theorem exists_withEnd_eq_append :
    ∃ added, withEnd source tokens = tokens ++ added := by
  unfold withEnd
  cases last : tokens.getLast? with
  | none =>
      rw [List.getLast?_eq_none_iff.mp last]
      exact ⟨_, rfl⟩
  | some token =>
      by_cases ends : token.kind = .endOfInput
      · exact ⟨[], by simp [ends]⟩
      · exact ⟨_, by simp only [ends, ↓reduceIte]; rfl⟩

/-- Tokens with an end are those before it, the end on its line, and whatever follows. -/
theorem exists_withEnd_eq :
    ∃ ending rest,
      withEnd source tokens = Token.beforeEnd tokens ++ ending :: rest ∧
        ending.kind = .endOfInput ∧ ending.line = Token.endLine tokens := by
  unfold Token.endLine
  cases found : tokens.find? (·.kind = .endOfInput) with
  | some ending =>
      obtain ⟨isEnd, before, after, rfl, goOnAll⟩ := List.find?_eq_some_iff_append.mp found
      have ends : ending.kind = .endOfInput := by
        simpa using isEnd
      have goOn : ∀ token ∈ before, token.kind ≠ .endOfInput := by
        simpa using goOnAll
      obtain ⟨added, endedShape⟩ :=
        exists_withEnd_eq_append source (before ++ ending :: after)
      rw [Token.beforeEnd_append goOn ends, endedShape]
      exact ⟨ending, after ++ added, by simp, ends, rfl⟩
  | none =>
      have goOn : ∀ token ∈ tokens, token.kind ≠ .endOfInput := by
        simpa using found
      have read : Token.beforeEnd tokens = tokens := by
        have passed : ∀ token ∈ tokens, (decide (token.kind ≠ .endOfInput)) = true := by
          simpa using goOn
        simpa [Token.beforeEnd] using @List.takeWhile_append_of_pos _ _ tokens [] passed
      rw [read, withEnd]
      cases last : tokens.getLast? with
      | none =>
          rw [List.getLast?_eq_none_iff.mp last]
          exact ⟨_, [], rfl, rfl, rfl⟩
      | some token =>
          have goesOn : token.kind ≠ .endOfInput := goOn token (List.mem_of_getLast? last)
          simp only [goesOn, ↓reduceIte]
          exact ⟨_, [], rfl, rfl, rfl⟩

/-- An added end of the input has its place in the source. -/
theorem placed_withEnd
    (placed : Placed tokens) :
    Placed (withEnd source tokens) := by
  have behindSource : (0 : Int) ≤ source.length := by
    omega
  unfold withEnd
  split
  · split
    · exact placed
    · intro token member
      rcases List.mem_append.mp member with given | added
      · exact placed token given
      · rw [List.mem_singleton.mp added]
        exact behindSource
  · intro token member
    rw [List.mem_singleton.mp member]
    exact behindSource

/-- A program that does not end in an expression gives true. -/
theorem finish_of_closed
    (behind rest : List Token)
    (ending : Token)
    (chunk : Chunk)
    (closed : compiler.lastPop? = none) :
    (compiler.between behind (ending :: rest) chunk).finish =
      .done (chunk.extend [.plain .true ending.line, .plain .return ending.line] []) := by
  have noPop : (compiler.between behind (ending :: rest) chunk).lastPop? = none := closed
  simp only [finish, peek_between, Outcome.done_bind, noPop]
  simp [between, Chunk.write_make, Instruction.plain]

/-- A program that ends in an expression gives its value, whose pop is taken back. -/
theorem finish_of_open
    (behind rest : List Token)
    (ending : Token)
    (instructions : List Instruction)
    (constants : List Value)
    (line : Int64)
    (popped : compiler.lastPop? = some (Instruction.code instructions).length) :
    (compiler.between behind (ending :: rest)
        (Chunk.empty.extend (instructions ++ [.plain .pop line]) constants)).finish =
      .done (Chunk.empty.extend (instructions ++ [.plain .return ending.line]) constants) := by
  have lastPop :
      (compiler.between behind (ending :: rest)
          (Chunk.empty.extend (instructions ++ [.plain .pop line]) constants)).lastPop? =
        some (Instruction.code instructions).length :=
    popped
  have lies :
      (Instruction.code instructions).length + 1 =
        (Chunk.empty.extend (instructions ++ [.plain .pop line]) constants).code.length := by
    simp [Chunk.extend, Chunk.empty, @Instruction.units_plain .pop rfl]
  simp only [finish, peek_between, Outcome.done_bind, lastPop]
  simp only [between, lies, ↓reduceIte,
    Chunk.truncate?_extend_plain instructions constants .pop line rfl, Chunk.write_make]
  simp [Instruction.plain]

/-- At the end of the input the program is the code of its statements. -/
theorem finish_afterScript
    (behind rest : List Token)
    (ending : Token)
    (script : Script)
    (fresh : compiler.lastPop? = none) :
    (compiler.afterScript behind .empty tokens (ending :: rest) script).finish =
      .done (Script.chunk compiler.source ending.line script) := by
  cases ends : Script.endsInExpression script with
  | false =>
      have closed := Script.lastPop?_of_not_endsInExpression ends
      rw [afterScript, fresh, finish_of_closed _ _ _ _ _ (closed _)]
      simp [Script.chunk, Script.instructions, ends, Chunk.withScript, Chunk.extend,
        Chunk.empty]
  | true =>
      obtain ⟨before, value, rfl⟩ := Script.exists_of_endsInExpression ends
      have closedShape := Script.closed_concat 0 before (.expression value)
      simp only [Statement.closing] at closedShape
      rw [afterScript, Chunk.withScript, Chunk.constants_empty, List.length_nil, closedShape,
        finish_of_open]
      · simp [Script.chunk, Script.instructions_concat_expression, Statement.body,
          Chunk.extend, Chunk.empty]
      · simp [Script.lastPop?, Statement.pop?, Chunk.extend, Chunk.empty,
          @Instruction.units_plain .pop rfl]

/-- Compiling reads the statements of the tokens with their end and finishes the code. -/
theorem compileTokens_eq_bind :
    (compiler.compileTokens source tokens).1 =
      (((compiler.start source (withEnd source tokens)).between [] (withEnd source tokens)
          .empty).statements ((withEnd source tokens).length + 1) >>= fun after =>
        after.here after.finish >>= fun chunk =>
          (.done { name := Function.scriptName, arity := 0, chunk? := some chunk } :
            Reading Function)).mapFailure Stop.error := by
  have started :
      compiler.start source (withEnd source tokens) =
        (compiler.start source (withEnd source tokens)).between [] (withEnd source tokens)
          .empty :=
    rfl
  have counted :
      (compiler.start source (withEnd source tokens)).cursor.ahead.length =
        (withEnd source tokens).length :=
    rfl
  rw [compileTokens, program, ← started, counted]
  cases (compiler.start source (withEnd source tokens)).statements
      ((withEnd source tokens).length + 1) with
  | done after =>
      simp only [Outcome.done_bind]
      cases after.finish <;> rfl
  | failed error =>
      rfl
  | aborted =>
      rfl

/--
Compiling tokens gives the function of a derivation, or a reported problem.  The statements stop at
the first end of the input.
-/
theorem meets_compileTokens
    (placed : Placed tokens) :
    (compiler.compileTokens source tokens).1.Meets fun function =>
      ∃ script,
        Script.Derives (Token.beforeEnd tokens) script ∧
          Chunk.empty.Admits source (Script.literals script) ∧
            function = Script.function source (Token.endLine tokens) script := by
  obtain ⟨ending, rest, endedShape, ends, onLine⟩ := exists_withEnd_eq source tokens
  have ended : Ended (withEnd source tokens) :=
    ⟨ending, by simp [endedShape], ends⟩
  rw [compileTokens_eq_bind, Outcome.meets_mapFailure_iff]
  refine (meets_statements _ _ _ _ _ (placed_withEnd source tokens placed) ended
    (by simp) (by omega)).bind ?_
  rintro _ ⟨read, found, behind, script, readShape, foundEnds, derived, admitted, rfl⟩
  have sameRead : read = Token.beforeEnd tokens := by
    rw [← Token.beforeEnd_append derived.kind_ne_endOfInput foundEnds behind, ← readShape,
      endedShape, Token.beforeEnd_append
        (Token.kind_ne_endOfInput_of_mem_beforeEnd tokens) ends]
  subst sameRead
  rw [endedShape] at readShape
  obtain ⟨rfl, rfl⟩ := List.cons.inj (List.append_cancel_left readShape)
  rw [finish_afterScript _ _ _ _ _ _ rfl, here_done, Outcome.done_bind, onLine]
  exact ⟨script, derived, admitted, rfl⟩

/-- Tokens that derive as a program compile to its function. -/
theorem compileTokens_derived
    {script : Script}
    (derived : Script.Derives (Token.beforeEnd tokens) script)
    (admitted : Chunk.empty.Admits source (Script.literals script)) :
    (compiler.compileTokens source tokens).1 =
      .done (Script.function source (Token.endLine tokens) script) := by
  obtain ⟨ending, rest, endedShape, ends, onLine⟩ := exists_withEnd_eq source tokens
  have read :=
    statements_derived derived (compiler.start source (withEnd source tokens)) [] rest ending
      .empty ((withEnd source tokens).length + 1) ends admitted
      (by rw [← endedShape]; omega)
  rw [← endedShape] at read
  rw [compileTokens_eq_bind, read, Outcome.done_bind, finish_afterScript _ _ _ _ _ _ rfl,
    here_done, Outcome.done_bind, onLine]
  rfl

/-- Tokens that compile derive as a program that is admitted. -/
theorem exists_script_of_done
    {function : Function}
    (placed : Placed tokens)
    (done : (compiler.compileTokens source tokens).1 = .done function) :
    ∃ script,
      Script.Derives (Token.beforeEnd tokens) script ∧
        Chunk.empty.Admits source (Script.literals script) ∧
          function = Script.function source (Token.endLine tokens) script := by
  have met := meets_compileTokens compiler source tokens placed
  rwa [done] at met

/--
What compiles is the function of any derivation of the tokens, as all of them have the same
literals.
-/
theorem eq_function_of_done
    {function : Function}
    (placed : Placed tokens)
    (done : (compiler.compileTokens source tokens).1 = .done function)
    {script : Script}
    (derived : Script.Derives (Token.beforeEnd tokens) script) :
    Chunk.empty.Admits source (Script.literals script) ∧
      function = Script.function source (Token.endLine tokens) script := by
  obtain ⟨other, otherDerived, otherAdmitted, _⟩ :=
    exists_script_of_done compiler source tokens placed done
  have admitted := derived.admits_iff.mpr (otherDerived.admits_iff.mp otherAdmitted)
  have emitted := compileTokens_derived compiler source tokens derived admitted
  exact ⟨admitted, Outcome.done.inj (done.symm.trans emitted)⟩

/--
Compiling ends for all tokens that do not start before their source.  It succeeds exactly when the
tokens before the end derive from the grammar, the numbers among them have values, and there are
at most 256 of them.  The function then has the postfix code of the derivation, with the values of
the numbers in their order as its constants.
-/
theorem compileTokens_accepts_exactly_grammar
    (placed : ∀ token ∈ tokens, 0 ≤ token.start) :
    let read := Token.beforeEnd tokens
    let numbers := read.filter (·.kind.isNumber)
    let compiled := (compiler.compileTokens source tokens).1
    compiled ≠ .aborted ∧
      ((∃ function, compiled = .done function) ↔
        (∃ script, Script.Derives read script) ∧
          (∀ token ∈ numbers, ∃ value, token.literal? source = some value) ∧
            numbers.length ≤ 256) ∧
      ∀ function script,
        compiled = .done function →
        Script.Derives read script →
        ∃ chunk,
          function = { name := "<script>", arity := 0, chunk? := some chunk } ∧
            chunk.constants.map some = numbers.map (Token.literal? source) ∧
            chunk.code =
              Instruction.code (Script.instructions (Token.endLine tokens) script) ∧
            chunk.lines =
              Instruction.lineTable (Script.instructions (Token.endLine tokens) script) := by
  intro read numbers compiled
  refine ⟨(meets_compileTokens compiler source tokens placed).ne_aborted, ⟨?_, ?_⟩, ?_⟩
  · rintro ⟨function, done⟩
    obtain ⟨script, derived, admitted, _⟩ :=
      exists_script_of_done compiler source tokens placed done
    exact ⟨⟨script, derived⟩, derived.admits_iff.mp admitted⟩
  · rintro ⟨⟨script, derived⟩, admissible⟩
    exact ⟨_, compileTokens_derived compiler source tokens derived
      (derived.admits_iff.mpr admissible)⟩
  · intro function script done derived
    obtain ⟨admitted, functionShape⟩ :=
      eq_function_of_done compiler source tokens placed done derived
    refine ⟨Script.chunk source (Token.endLine tokens) script, functionShape, ?_, rfl, rfl⟩
    have constantsShape := Chunk.map_some_filterMap_literal? admitted.decoded
    rw [derived.literals_eq] at constantsShape
    rw [← constantsShape, ← derived.literals_eq]
    rfl

/-- The code of `1-2-3` subtracts from left to right. -/
theorem compileTokens_accepts_difference :
    let source := "1-2-3".toList
    let tokens : List Token :=
      [⟨.integer, 0, 2, 1⟩, ⟨.minus, 1, 1, 1⟩, ⟨.integer, 2, 2, 1⟩, ⟨.minus, 3, 1, 1⟩,
        ⟨.integer, 4, 2, 1⟩]
    (∀ token ∈ tokens, 0 ≤ token.start) ∧
      ∃ function chunk,
        (Compiler.new.compileTokens source tokens).1 = .done function ∧
          function.chunk? = some chunk ∧
            chunk.code =
              Instruction.code
                [.load 0 1, .load 1 1, .plain .subtract 1, .load 2 1, .plain .subtract 1,
                  .plain .return 1] ∧
              chunk.code =
                [⟨.opcode, 0⟩, ⟨.constantIndex, 0⟩, ⟨.opcode, 0⟩, ⟨.constantIndex, 1⟩,
                  ⟨.opcode, 4⟩, ⟨.opcode, 0⟩, ⟨.constantIndex, 2⟩, ⟨.opcode, 4⟩,
                  ⟨.opcode, 19⟩] ∧
                chunk.constants = [.integer 1, .integer 2, .integer 3] := by
  intro source tokens
  have placed : ∀ token ∈ tokens, 0 ≤ token.start := by
    decide
  have operand (level : BindingLevel) (token : Token) (isNumber : token.kind.isNumber = true) :
      Expression.Derives level [token] (.number token) :=
    (Expression.Derives.number isNumber).loosen level.rank_le_primary
  have inner :
      Expression.Derives .term [⟨.integer, 0, 2, 1⟩, ⟨.minus, 1, 1, 1⟩, ⟨.integer, 2, 2, 1⟩]
        (.binary (.number ⟨.integer, 0, 2, 1⟩) .minus ⟨.minus, 1, 1, 1⟩
          (.number ⟨.integer, 2, 2, 1⟩)) :=
    .binary (operand .term ⟨.integer, 0, 2, 1⟩ rfl) rfl rfl
      (operand .factor ⟨.integer, 2, 2, 1⟩ rfl)
  have outer :
      Expression.Derives .term tokens
        (.binary _ .minus ⟨.minus, 3, 1, 1⟩ (.number ⟨.integer, 4, 2, 1⟩)) :=
    .binary inner rfl rfl (operand .factor ⟨.integer, 4, 2, 1⟩ rfl)
  have decoded :
      ∀ token ∈ (Token.beforeEnd tokens).filter (·.kind.isNumber),
        (token.literal? source).isSome = true := by
    decide
  have derived := Script.Derives.cons (.expression (outer.loosen (by decide))) .nil
  rw [List.append_nil] at derived
  obtain ⟨_, accepted, emitted⟩ :=
    compileTokens_accepts_exactly_grammar Compiler.new source tokens placed
  obtain ⟨function, done⟩ :=
    accepted.mpr ⟨⟨_, derived⟩,
      fun token member => Option.isSome_iff_exists.mp (decoded token member), by decide⟩
  obtain ⟨chunk, functionShape, constantsShape, codeShape, _⟩ := emitted function _ done derived
  refine ⟨placed, function, chunk, done, by rw [functionShape], codeShape, codeShape, ?_⟩
  have values :
      ((Token.beforeEnd tokens).filter (·.kind.isNumber)).map (Token.literal? source) =
        [Value.integer 1, .integer 2, .integer 3].map some :=
    rfl
  rw [values] at constantsShape
  exact (List.map_inj_right fun _ _ => Option.some.inj).mp constantsShape

end Compiler

end Reckon
