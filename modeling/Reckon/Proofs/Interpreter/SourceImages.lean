import Reckon.Interpreter.Basic
import Reckon.Proofs.Bytecode.ImageRoundTrip
import Reckon.Proofs.Interpreter.Meaning
import Reckon.Proofs.Machine.History
import Reckon.Proofs.Token.Literals

namespace Reckon

/-!
# Images of sources

What a source compiles to can always be written as an image, and the image gives it back without
any loss: its constants are literals, so none is a negative zero, and there are few enough of them
to bound its code.  So an image runs and loads as its source does.
-/

/-! ### The size of code -/

namespace Expression

/-- Two units load a literal, and there is one operator less than literals. -/
theorem length_code
    (expression : Expression)
    (first : Nat) :
    (Instruction.code (expression.instructions first)).length + 1 =
      3 * expression.literals.length := by
  induction expression generalizing first with
  | number token =>
      simp [instructions, literals, Instruction.units_load]
  | group opening inner closing inductionHypothesis =>
      exact inductionHypothesis first
  | binary left sign operator right leftHypothesis rightHypothesis =>
      have leftLength := leftHypothesis first
      have rightLength := rightHypothesis (first + left.literals.length)
      simp only [instructions, literals, Instruction.code_append, Instruction.code_cons,
        Instruction.code_nil, Instruction.units_plain sign.operandKinds_opcode,
        List.length_append, List.length_cons, List.length_nil]
      omega

end Expression

namespace Script

variable
  {source : List Char}
  {script : Script}

/-- Closed statements take three units of code for each literal. -/
theorem length_code_closed
    (script : Script)
    (first : Nat) :
    (Instruction.code (closed first script)).length = 3 * (literals script).length := by
  induction script generalizing first with
  | nil => rfl
  | cons statement rest inductionHypothesis =>
      have body := statement.body.length_code first
      have others := inductionHypothesis (first + statement.body.literals.length)
      have closing := statement.length_units_closing
      simp only [closed, literals, List.flatMap_cons, Statement.instructions,
        Instruction.code_append, Instruction.code_cons, Instruction.code_nil,
        List.length_append, List.length_nil] at others ⊢
      omega

/-- The code of a program takes at most three units for each literal, and two for its end. -/
theorem length_code_le
    (line : Int64)
    (script : Script) :
    (Instruction.code (instructions line script)).length ≤
      3 * (literals script).length + 2 := by
  by_cases ends : endsInExpression script = true
  · obtain ⟨before, value, rfl⟩ := exists_of_endsInExpression ends
    have earlier := length_code_closed before 0
    have body := value.length_code (literals before).length
    rw [instructions_concat_expression]
    simp only [literals, List.flatMap_append, List.flatMap_cons, List.flatMap_nil,
      List.append_nil, Instruction.code_append, Instruction.code_cons, Instruction.code_nil,
      Instruction.units_plain (show Opcode.return.operandKinds = [] from rfl),
      List.length_append, List.length_cons, List.length_nil, Statement.body] at earlier body ⊢
    omega
  · have all := length_code_closed script 0
    simp only [instructions, ends, Bool.false_eq_true, ↓reduceIte, Instruction.code_append,
      Instruction.code_cons, Instruction.code_nil,
      Instruction.units_plain (show Opcode.true.operandKinds = [] from rfl),
      Instruction.units_plain (show Opcode.return.operandKinds = [] from rfl),
      List.length_append, List.length_cons, List.length_nil]
    omega

/-- The constants of a program are numbers that hold no negative zero. -/
theorem isData_of_mem_constants
    (read : IsReadFrom source script) :
    ∀ constant ∈ constants source script, constant.IsData ∧ ¬ constant.HoldsNegativeZero := by
  obtain ⟨tokens, scanned, derived⟩ := read
  intro constant member
  obtain ⟨token, isLiteral, decoded⟩ := List.mem_filterMap.mp member
  rw [derived.literals_eq] at isLiteral
  obtain ⟨inTokens, isNumber⟩ := List.mem_filter.mp isLiteral
  have starts :=
    startsNumber_of_tokenize scanned token ((List.takeWhile_sublist _).subset inTokens)
  exact token.isData_of_literal? starts isNumber decoded

/-- The function of a program can be written as an image. -/
theorem serializable_function
    (admitted : Chunk.empty.Admits source (literals script))
    (read : IsReadFrom source script)
    (line : Int64) :
    Image.Serializable (function source line script) (chunk source line script) where
  defined := rfl
  valid := validate_chunk admitted line
  constants constant member := (isData_of_mem_constants read constant member).1
  lines := by
    have room := admitted.room
    have bounded := length_code_le line script
    simp only [Chunk.constants_empty, List.length_nil, Chunk.maxConstants] at room
    simp only [chunk, Instruction.length_lineTable, Cbor.maxItems]
    omega
  name := by
    show (Text.encode Function.scriptName.toList).length < 2 ^ 63
    decide

end Script

/-! ### Running and loading -/

namespace Interpreter

variable
  {interpreter : Interpreter}
  {bytes content : List UInt8}
  {function : Function}

/--
An image begins with a byte that begins no character, so it does not compile as a source.  It is a
continuation byte, which reads as a replacement.
-/
theorem isImage_eq_false_of_functionOf
    (compiled : functionOf (Text.decode bytes) = .done function) :
    Image.isImage bytes = false := by
  obtain ⟨tokens, scanned, _⟩ := Compiler.exists_tokens_of_compile compiled
  by_contra begins
  obtain ⟨rest, rfl⟩ := List.isPrefixOf_iff_prefix.mp (Bool.eq_true_of_not_eq_false begins)
  have refused := tokenize_replacement (Text.decodeAfter 0 (Image.lead.tail ++ rest))
  cases scanned.symm.trans refused

/-- What compiles can be written as an image that gives it back. -/
theorem exists_image_of_functionOf
    {source : List Char}
    (compiled : functionOf source = .done function) :
    ∃ image,
      compileImage source = .done image ∧
        Image.isImage image = true ∧ Image.decode image = .ok function := by
  obtain ⟨script, read⟩ := Compiler.exists_isReadFrom_of_compile compiled
  obtain ⟨admitted, line, rfl⟩ := Compiler.eq_function_of_compile compiled read
  obtain ⟨image, written, begins, decoded⟩ :=
    Image.exists_exact_image (Script.serializable_function admitted read line)
      fun constant member => (Script.isData_of_mem_constants read constant member).2
  refine ⟨image, ?_, begins, decoded⟩
  simp only [compileImage, compiled, written]

/-- What is remembered of a content, if anything, is the function. -/
def Recalls (interpreter : Interpreter) (content : List UInt8) (function : Function) : Prop :=
  ∀ program, interpreter.remembered? content = some program → program.function = function

/-- A new interpreter remembers nothing of a content that could differ. -/
theorem recalls_new
    (settings : Settings)
    (content : List UInt8)
    (function : Function) :
    (new settings).Recalls content function := by
  intro program found
  unfold remembered? at found
  split at found <;> cases found

/-- Whatever is loaded, only a content with its digest is remembered in another way. -/
theorem Recalls.remember
    (recalls : interpreter.Recalls content function)
    (loaded : List UInt8)
    {program : Program}
    (same : digest content = digest loaded → program.function = function) :
    (interpreter.remember loaded program).Recalls content function := by
  intro found lookedUp
  unfold Interpreter.remember at lookedUp
  split at lookedUp
  next caching =>
    simp only [remembered?, caching, ↓reduceIte, List.lookup_cons] at lookedUp
    split at lookedUp
    next sameDigest =>
      obtain rfl := Option.some.inj lookedUp
      exact same (by simpa using sameDigest)
    next =>
      exact recalls found (by simpa only [remembered?, caching, ↓reduceIte] using lookedUp)
  next =>
    exact recalls found lookedUp

/-- Loading gives the function of the content, and keeps what is known of every other content. -/
theorem loadContent_of_recalls
    (recalls : interpreter.Recalls content function)
    {path : String}
    (holds : functionIn path content = .done function) :
    ∃ program loaded,
      interpreter.loadContent path content = (.done program, loaded) ∧
        program.function = function ∧
          ∀ other, interpreter.Recalls other function → loaded.Recalls other function := by
  unfold loadContent
  cases found : interpreter.remembered? content with
  | some program =>
      exact ⟨program, interpreter, rfl, recalls program found, fun _ known => known⟩
  | none =>
      simp only [holds]
      refine ⟨_, _, rfl, rfl, ?_⟩
      intro other known
      have registered : (interpreter.register function).2.Recalls other function := known
      exact registered.remember content fun _ => rfl

/-- An image can be used in the place of a source that compiles to the function. -/
structure Replaces (image bytes : List UInt8) (function : Function) : Prop where
  isImage : Image.isImage image = true
  isSource : Image.isImage bytes = false
  decodes : Image.decode image = .ok function
  /-- Two interpreters at rest with the same limits come to the same outcome. -/
  runs :
    ∀ first second : Interpreter,
      first.machine.AtRest → second.machine.AtRest →
        first.machine.options = second.machine.options →
          (first.runImage image).1 = (second.run (Text.decode bytes)).1
  /-- One interpreter comes to the same outcome and is left in the same state. -/
  runsInPlace :
    ∀ interpreter : Interpreter,
      interpreter.runImage image = interpreter.run (Text.decode bytes)
  /-- Files that hold one or the other load as the same function, in any order. -/
  loads :
    ∀ interpreter : Interpreter,
      interpreter.Recalls bytes function → interpreter.Recalls image function →
        ∀ files path content,
          content = bytes ∨ content = image → Files.read files path = .ok content →
            ∃ program loaded,
              interpreter.load files path = (.done program, loaded) ∧
                program.function = function ∧
                  loaded.Recalls bytes function ∧ loaded.Recalls image function

/-- Every source that compiles has an image, and the image can be used in its place. -/
theorem compileImage_replaces_source
    (compiled : functionOf (Text.decode bytes) = .done function) :
    ∃ image,
      compileImage (Text.decode bytes) = .done image ∧ Replaces image bytes function := by
  obtain ⟨image, written, begins, decoded⟩ := exists_image_of_functionOf compiled
  have isSource := isImage_eq_false_of_functionOf compiled
  have ran (interpreter : Interpreter) :
      interpreter.runImage image = interpreter.execute function := by
    simp only [runImage, decoded]
  have ranSource (interpreter : Interpreter) :
      interpreter.run (Text.decode bytes) = interpreter.execute function := by
    simp only [run, compiled]
  refine
    ⟨image, written,
      { isImage := begins
        isSource := isSource
        decodes := decoded
        runs := ?runs
        runsInPlace := fun interpreter => (ran interpreter).trans (ranSource interpreter).symm
        loads := ?loads }⟩
  case runs =>
    intro first second firstRests secondRests sameLimits
    have sameOutcome := firstRests.invoke_congr secondRests sameLimits (some function) []
    rw [ran, ranSource]
    simp only [execute, Machine.interpret, sameOutcome]
  case loads =>
    intro interpreter knowsSource knowsImage files path content isEither isRead
    have holds : functionIn path content = .done function := by
      rcases isEither with rfl | rfl
      · simp only [functionIn, isSource, Bool.false_eq_true, ↓reduceIte, compiled,
          Outcome.mapFailure]
      · simp only [functionIn, begins, ↓reduceIte, decoded]
    have known : interpreter.Recalls content function := by
      rcases isEither with rfl | rfl
      · exact knowsSource
      · exact knowsImage
    obtain ⟨program, loaded, outcome, same, keeps⟩ := loadContent_of_recalls known holds
    refine ⟨program, loaded, ?_, same, keeps bytes knowsSource, keeps image knowsImage⟩
    simp only [load, isRead, outcome]

/-- A source is loaded after its image, by an interpreter that remembers what it loaded. -/
theorem compileImage_sampleSource :
    let bytes := Text.encode Machine.sampleSource
    let function := Script.function Machine.sampleSource 2 Machine.sampleScript
    functionOf (Text.decode bytes) = .done function ∧
      ∃ image,
        compileImage (Text.decode bytes) = .done image ∧
          ((new .standard).runImage image).1 = ((new .standard).run (Text.decode bytes)).1 ∧
            let files : Files := { entries := [("image", .file image), ("source", .file bytes)] }
            ∃ first second between after,
              (new .standard).load files "image" = (.done first, between) ∧
                between.load files "source" = (.done second, after) ∧
                  first.function = function ∧ second.function = function := by
  intro bytes function
  have compiled : functionOf (Text.decode bytes) = .done function := by
    rw [Text.decode_encode]
    exact Machine.compile_sampleSource
  obtain ⟨image, written, replaces⟩ := compileImage_replaces_source compiled
  have rests : (new .standard).machine.AtRest := Machine.atRest_new _
  refine ⟨compiled, image, written, replaces.runs _ _ rests rests rfl, ?_⟩
  intro files
  obtain ⟨first, between, firstLoaded, firstIs, knowsSource, knowsImage⟩ :=
    replaces.loads _ (recalls_new _ _ _) (recalls_new _ _ _) files "image" image (Or.inr rfl)
      rfl
  obtain ⟨second, after, secondLoaded, secondIs, _⟩ :=
    replaces.loads between knowsSource knowsImage files "source" bytes (Or.inl rfl) rfl
  exact ⟨first, second, between, after, firstLoaded, secondLoaded, firstIs, secondIs⟩

end Interpreter

end Reckon
