import Reckon.Proofs.Bytecode.Validity
import Reckon.Proofs.Compiler.Acceptance
import Reckon.Proofs.Machine.Execution
import Reckon.Proofs.Machine.Invocation

namespace Reckon

/-!
# Programs from their source to their value

A source that compiles is a program of the grammar, and running what it compiles to on a machine
at rest gives the value of that program.  The code passes its check, and it never asks for more
room on the stack than the program needs.
-/

namespace Scanner

/-- The tokens that a scanner gives have places in the source. -/
theorem start_nonneg_of_next
    {scanner after : Scanner}
    {token : Token}
    (scanned : scanner.next = (.ok token, after)) :
    0 ≤ token.start := by
  unfold next at scanned
  simp only at scanned
  split at scanned
  next =>
    cases scanned
    exact Int.natCast_nonneg _
  next =>
    split at scanned
    next =>
      cases scanned
      exact Int.natCast_nonneg _
    next =>
      cases scanned

/-- None of the tokens that are scanned starts before the source. -/
theorem start_nonneg_of_tokensWithin
    {count : Nat}
    {scanner : Scanner}
    {tokens : List Token}
    (scanned : scanner.tokensWithin count = .ok tokens) :
    ∀ token ∈ tokens, 0 ≤ token.start := by
  induction count generalizing scanner tokens with
  | zero =>
      cases scanned
      simp
  | succ count inductionHypothesis =>
      unfold tokensWithin at scanned
      split at scanned
      next =>
        cases scanned
      next token after found =>
        have placed := start_nonneg_of_next found
        split at scanned
        next =>
          cases scanned
          simpa using placed
        next =>
          split at scanned
          next rest restScanned =>
            cases scanned
            simpa [placed] using inductionHypothesis restScanned
          next =>
            cases scanned

end Scanner

namespace Script

/-- A source reads as a program: its tokens derive as the program. -/
def IsReadFrom (source : List Char) (script : Script) : Prop :=
  ∃ tokens, tokenize source = .ok tokens ∧ Derives (Token.beforeEnd tokens) script

end Script

namespace Compiler

variable
  {compiler : Compiler}
  {source : List Char}
  {function : Function}

/-- What compiles was read as tokens, none of which starts before the source. -/
theorem exists_tokens_of_compile
    (compiled : (compiler.compile source).1 = .done function) :
    ∃ tokens,
      tokenize source = .ok tokens ∧ Placed tokens ∧
        (compiler.compileTokens source tokens).1 = .done function := by
  unfold compile at compiled
  split at compiled
  next tokens scanned =>
    exact ⟨tokens, scanned, Scanner.start_nonneg_of_tokensWithin scanned, compiled⟩
  next =>
    cases compiled

/-- What compiles reads as a program. -/
theorem exists_isReadFrom_of_compile
    (compiled : (compiler.compile source).1 = .done function) :
    ∃ script, Script.IsReadFrom source script := by
  obtain ⟨tokens, scanned, placed, done⟩ := exists_tokens_of_compile compiled
  obtain ⟨script, derived, _⟩ := exists_script_of_done compiler source tokens placed done
  exact ⟨script, tokens, scanned, derived⟩

/-- What compiles is the code of any program that the source reads as. -/
theorem eq_function_of_compile
    (compiled : (compiler.compile source).1 = .done function)
    {script : Script}
    (read : Script.IsReadFrom source script) :
    Chunk.empty.Admits source (Script.literals script) ∧
      ∃ line, function = Script.function source line script := by
  obtain ⟨tokens, scanned, placed, done⟩ := exists_tokens_of_compile compiled
  obtain ⟨others, othersScanned, derived⟩ := read
  obtain rfl := Except.ok.inj (scanned.symm.trans othersScanned)
  obtain ⟨admitted, functionShape⟩ :=
    eq_function_of_done compiler source tokens placed done derived
  exact ⟨admitted, Token.endLine tokens, functionShape⟩

end Compiler

namespace MachineOptions

/-- Limits that were filled in are positive. -/
theorem filled_pos
    (options : MachineOptions) :
    0 < options.filled.stackSize.toInt ∧ 0 < options.filled.maxFrames.toInt := by
  have positive (limit : Int64) (given : ¬ limit ≤ 0) : 0 < limit.toInt := by
    rw [Int64.le_iff_toInt_le, Int64.toInt_zero] at given
    omega
  refine ⟨?_, ?_⟩
  · simp only [filled]
    split
    · decide
    · exact positive _ ‹_›
  · simp only [filled]
    split
    · decide
    · exact positive _ ‹_›

theorem filled_stackSize
    {options : MachineOptions}
    (given : 0 < options.stackSize.toInt) :
    options.filled.stackSize = options.stackSize := by
  have positive : ¬ options.stackSize ≤ 0 := by
    rw [Int64.le_iff_toInt_le, Int64.toInt_zero]
    omega
  simp only [filled, positive, ↓reduceIte]

end MachineOptions

namespace Script

variable
  {source : List Char}
  {script : Script}

/-- An admitted program has one constant for each literal, and not too many of them. -/
theorem length_constants
    (admitted : Chunk.empty.Admits source (literals script)) :
    (constants source script).length = (literals script).length ∧
      (constants source script).length ≤ Chunk.maxConstants := by
  have counted : (constants source script).length = (literals script).length :=
    Chunk.length_filterMap_literal? admitted.decoded
  have room : (literals script).length ≤ Chunk.maxConstants := by
    simpa using admitted.room
  exact ⟨counted, by omega⟩

/-- An admitted program needs room for no more values than constants can be told apart. -/
theorem need_le_of_admits
    (admitted : Chunk.empty.Admits source (literals script)) :
    need script ≤ 256 := by
  have needed := need_le_length_literals script
  have room := admitted.room
  simp only [Chunk.constants_empty, List.length_nil, Chunk.maxConstants] at room
  omega

/-- The code of a program passes its check. -/
theorem validate_chunk
    (admitted : Chunk.empty.Admits source (literals script))
    (line : Int64) :
    (chunk source line script).validate = .ok () := by
  obtain ⟨counted, few⟩ := length_constants admitted
  have checked :=
    Chunk.checkCode_code few (valid_instructions (Nat.le_of_eq counted.symm) line) 0
  simp [Chunk.validate, chunk, Nat.not_lt.mpr few, checked]

/-- The routine of a program's function that runs with nothing below it. -/
def routine
    (source : List Char)
    (line : Int64)
    (script : Script)
    (options : MachineOptions) :
    Routine :=
  @Routine.outermost options (function source line script) (chunk source line script) rfl

/-- The function of a program runs as a program. -/
theorem isScript_routine
    (admitted : Chunk.empty.Admits source (literals script))
    (line : Int64)
    (options : MachineOptions) :
    (routine source line script options).IsScript where
  named := by
    simp [routine, Routine.outermost, function, Function.text]
  counted :=
    (length_constants admitted).2

/-- Running the function of a program evaluates the program in the room of the stack. -/
theorem run_routine
    (admitted : Chunk.empty.Admits source (literals script))
    (line : Int64)
    (options : MachineOptions) :
    (routine source line script options).run { position := 0, operands := [] } =
      evaluateWithin source options.stackSize (options.stackSize.toInt - 1).toNat line
        script := by
  have held : (chunk source line script).Holds 0 (instructions line script) :=
    ⟨List.prefix_refl _, List.prefix_refl _⟩
  have provided : (chunk source line script).Provides source 0 (literals script) := by
    rw [Chunk.Provides, chunk, constants,
      Chunk.map_some_filterMap_literal? admitted.decoded]
    exact List.prefix_refl _
  exact (isScript_routine admitted line options).run_script held provided

/-- Invoking the function of a program evaluates the program. -/
theorem invoke_function
    (admitted : Chunk.empty.Admits source (literals script))
    (line : Int64)
    {options : MachineOptions}
    (room : 0 < options.stackSize.toInt)
    (shallow : 0 < options.maxFrames.toInt) :
    @Routine.invoke options (function source line script) (chunk source line script) rfl [] =
      evaluateWithin source options.stackSize (options.stackSize.toInt - 1).toNat line
        script := by
  have begins : Routine.entryFault? options (function source line script) 0 = none :=
    Routine.entryFault?_eq_none_iff.mpr ⟨room, rfl, shallow⟩
  simp only [Routine.invoke, List.length_nil, begins]
  exact run_routine admitted line options

/-- A call of a program that does not begin is about the limits. -/
theorem entryFault?_function
    {line : Int64}
    {options : MachineOptions}
    {fault : Fault}
    (hasFault : Routine.entryFault? options (function source line script) 0 = some fault) :
    fault.cause = .stackOverflow ∧
      (options.stackSize.toInt ≤ 0 ∨ options.maxFrames.toInt ≤ 0) := by
  rcases Routine.eq_of_entryFault? hasFault with
    ⟨rfl, full⟩ | ⟨_, ⟨_, differ⟩ | ⟨rfl, _, deep⟩⟩
  · exact ⟨rfl, Or.inl full⟩
  · exact (differ rfl).elim
  · exact ⟨rfl, Or.inr deep⟩

/-- Invoking a program fails for what its values are, or where its limits are too low. -/
theorem failsOnly_invoke_function
    (admitted : Chunk.empty.Admits source (literals script))
    (line : Int64)
    (options : MachineOptions) :
    (@Routine.invoke options (function source line script) (chunk source line script) rfl
        []).FailsOnly fun error =>
      error.fault.cause ∈ Cause.ofValues ∨
        error.fault.cause = .stackOverflow ∧
          (options.stackSize.toInt < 1 + need script ∨ options.maxFrames.toInt ≤ 0) := by
  cases entry : Routine.entryFault? options (function source line script) 0 with
  | some fault =>
      obtain ⟨isOverflow, low⟩ := entryFault?_function entry
      simp only [Routine.invoke, List.length_nil, entry]
      exact Or.inr ⟨isOverflow, low.imp_left fun none => by omega⟩
  | none =>
      obtain ⟨room, _, shallow⟩ := Routine.entryFault?_eq_none_iff.mp entry
      rw [invoke_function admitted line room shallow]
      refine (failsOnly_evaluateWithin source _ line _ script).weaken fun error reason => ?_
      refine reason.imp_right fun ⟨isFull, tooLittle⟩ => ⟨?_, Or.inl (by omega)⟩
      rw [isFull, Fault.cause]

end Script

namespace Machine

/-- Interpreting the function of a program is invoking it alone. -/
theorem AtRest.interpret_function
    {machine : Machine}
    (atRest : machine.AtRest)
    (source : List Char)
    (line : Int64)
    (script : Script) :
    (machine.interpret (some (Script.function source line script))).1 =
      @Routine.invoke machine.options (Script.function source line script)
        (Script.chunk source line script) rfl [] := by
  obtain ⟨stack, frames, invoked, _⟩ :=
    @AtRest.invoke_eq machine (Script.function source line script) _ atRest rfl []
  rw [interpret, invoked]

/--
Running what a source compiles to, on a machine at rest with room for 257 values, gives exactly
what evaluating the program gives that the source reads as.
-/
theorem interpret_compiled_eq_evaluate
    {compiler : Compiler}
    {source : List Char}
    {function : Function}
    (compiled : (compiler.compile source).1 = .done function)
    {machine : Machine}
    (atRest : machine.AtRest)
    {options : MachineOptions}
    (configured : machine.options = options.filled)
    (roomy : 257 ≤ options.stackSize.toInt) :
    (∃ script, Script.IsReadFrom source script) ∧
      ∀ script, Script.IsReadFrom source script →
        (machine.interpret (some function)).1 = Script.evaluate source script := by
  refine ⟨Compiler.exists_isReadFrom_of_compile compiled, fun script read => ?_⟩
  obtain ⟨admitted, line, rfl⟩ := Compiler.eq_function_of_compile compiled read
  have positive := options.filled_pos
  have size := @MachineOptions.filled_stackSize options (by omega)
  have enough := Script.need_le_of_admits admitted
  rw [atRest.interpret_function, configured,
    Script.invoke_function admitted line positive.1 positive.2, size]
  exact Script.evaluateWithin_of_need_le source _ line (by omega)

/-- A program of two statements, the second of which is its value. -/
def sampleSource : List Char :=
  "assert 1 < 2\n9 - 4 - 3".toList

/-- The program that the sample reads as. -/
def sampleScript : Script :=
  [.assertion ⟨.assertWord, 0, 6, 1⟩
      (.binary (.number ⟨.integer, 7, 2, 1⟩) .less ⟨.less, 9, 1, 1⟩
        (.number ⟨.integer, 11, 2, 1⟩)),
    .expression
      (.binary
        (.binary (.number ⟨.integer, 13, 2, 2⟩) .minus ⟨.minus, 15, 1, 2⟩
          (.number ⟨.integer, 17, 2, 2⟩))
        .minus ⟨.minus, 19, 1, 2⟩ (.number ⟨.integer, 21, 2, 2⟩))]

/-- The second statement of the sample groups to the left. -/
theorem sampleScript_isReadFrom :
    Script.IsReadFrom sampleSource sampleScript := by
  have number (level : BindingLevel) (token : Token) (isNumber : token.kind.isNumber = true) :
      Expression.Derives level [token] (.number token) :=
    (Expression.Derives.number isNumber).loosen level.rank_le_primary
  have condition :
      Expression.Derives .comparison [⟨.integer, 7, 2, 1⟩, ⟨.less, 9, 1, 1⟩, ⟨.integer, 11, 2, 1⟩]
        (.binary _ .less _ _) :=
    .binary (number .comparison ⟨.integer, 7, 2, 1⟩ rfl) rfl rfl (number .term _ rfl)
  have inner :
      Expression.Derives .term [⟨.integer, 13, 2, 2⟩, ⟨.minus, 15, 1, 2⟩, ⟨.integer, 17, 2, 2⟩]
        (.binary _ .minus _ _) :=
    .binary (number .term ⟨.integer, 13, 2, 2⟩ rfl) rfl rfl (number .factor _ rfl)
  have outer :
      Expression.Derives .term (_ ++ [⟨.minus, 19, 1, 2⟩, ⟨.integer, 21, 2, 2⟩])
        (.binary _ .minus _ _) :=
    .binary inner rfl rfl (number .factor _ rfl)
  have asserted :
      Statement.Derives (⟨.assertWord, 0, 6, 1⟩ :: _) (.assertion _ _) :=
    .assertion rfl (condition.loosen (by decide))
  exact ⟨_, rfl, .cons asserted (.cons (.expression (outer.loosen (by decide))) .nil)⟩

theorem compile_sampleSource :
    (Compiler.new.compile sampleSource).1 =
      .done (Script.function sampleSource 2 sampleScript) :=
  rfl

/-- The sample holds what it asserts, and subtracts from left to right. -/
theorem interpret_compiled_sample :
    ((new .standard).interpret (some (Script.function sampleSource 2 sampleScript))).1 =
      .done (.integer 2) := by
  obtain ⟨_, means⟩ :=
    interpret_compiled_eq_evaluate compile_sampleSource (atRest_new .standard)
      (rfl : _ = MachineOptions.filled .standard) (by decide)
  rw [means sampleScript sampleScript_isReadFrom]
  rfl

/--
What a source compiles to passes its check, and run on a machine at rest it is never malformed,
never called with the wrong number of arguments and never impossible to call.  It never overflows
a stack that has room for what the program needs besides the function, nor one of size 257, and
so none of the standard size.
-/
theorem interpret_compiled_balanced
    {compiler : Compiler}
    {source : List Char}
    {function : Function}
    (compiled : (compiler.compile source).1 = .done function) :
    (∃ chunk, function.chunk? = some chunk ∧ chunk.validate = .ok ()) ∧
      (∃ script, Script.IsReadFrom source script) ∧
        ∀ machine : Machine,
          machine.AtRest →
          let outcome := (machine.interpret (some function)).1
          outcome.FailsOnly
              (fun error => error.fault.cause ∉ [.malformedBytecode, .arity, .notCallable]) ∧
            ∀ (script : Script) (options : MachineOptions),
              Script.IsReadFrom source script →
              machine.options = options.filled →
              1 + script.need ≤ machine.options.stackSize.toInt ∨
                  257 ≤ machine.options.stackSize.toInt ∨ options = .standard →
              outcome.FailsOnly (fun error => error.fault.cause ≠ .stackOverflow) := by
  obtain ⟨script, read⟩ := Compiler.exists_isReadFrom_of_compile compiled
  refine ⟨?_, ⟨script, read⟩, fun machine atRest => ⟨?_, ?_⟩⟩
  · obtain ⟨admitted, line, rfl⟩ := Compiler.eq_function_of_compile compiled read
    exact ⟨_, rfl, Script.validate_chunk admitted line⟩
  · obtain ⟨admitted, line, rfl⟩ := Compiler.eq_function_of_compile compiled read
    rw [atRest.interpret_function]
    refine (Script.failsOnly_invoke_function admitted line _).weaken fun error reason => ?_
    rcases reason with ofValues | ⟨isOverflow, _⟩
    · exact (Cause.not_mem_of_mem_ofValues _ ofValues).1
    · simp [isOverflow]
  · intro script options read configured roomy
    obtain ⟨admitted, line, rfl⟩ := Compiler.eq_function_of_compile compiled read
    have needed := Script.need_le_of_admits admitted
    have shallow := options.filled_pos.2
    have enough : 1 + script.need ≤ machine.options.stackSize.toInt := by
      rcases roomy with enough | large | rfl
      · exact enough
      · omega
      · have standardSize : MachineOptions.standard.filled.stackSize.toInt = 1024 := by
          decide
        rw [configured]
        omega
    rw [atRest.interpret_function]
    refine (Script.failsOnly_invoke_function admitted line _).weaken fun error reason => ?_
    rcases reason with ofValues | ⟨_, low | deep⟩
    · exact (Cause.not_mem_of_mem_ofValues _ ofValues).2
    · omega
    · rw [configured] at deep
      omega

/-- The sample needs two values at a time, for which a stack of size three has room. -/
theorem interpret_compiled_balanced_sample :
    let function := Script.function sampleSource 2 sampleScript
    let machine := new { stackSize := 3, maxFrames := 1, trace := false }
    Script.need sampleScript = 2 ∧
      (machine.interpret (some function)).1.FailsOnly
        (fun error => error.fault.cause ≠ .stackOverflow) := by
  obtain ⟨_, _, balanced⟩ := interpret_compiled_balanced compile_sampleSource
  refine ⟨rfl, ?_⟩
  exact (balanced _ (atRest_new _)).2 sampleScript _ sampleScript_isReadFrom rfl
    (Or.inl (by decide))

end Machine

end Reckon
