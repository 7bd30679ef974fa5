import Reckon.Proofs.Compiler.Completeness

namespace Reckon

/-!
# Reading programs

Statements follow each other up to the end of the input.  Each appends the code of its expression
and the instruction that closes it, and the pop of a last expression is taken back at the end.
-/

namespace Chunk

/-- A chunk with the code and the constants of a statement behind its own. -/
def withStatement
    (source : List Char)
    (chunk : Chunk)
    (statement : Statement) :
    Chunk :=
  (chunk.withExpression source statement.body).extend [statement.closing] []

/-- A chunk with the code and the constants of closed statements behind its own. -/
def withScript
    (source : List Char)
    (chunk : Chunk)
    (script : Script) :
    Chunk :=
  chunk.extend (Script.closed chunk.constants.length script) (Script.constants source script)

@[simp] theorem withScript_nil
    (source : List Char)
    (chunk : Chunk) :
    chunk.withScript source [] = chunk := by
  simp [withScript, extend, Script.closed, Script.constants, Script.literals,
    Instruction.lineTable]

/-- The code of a program is that of its first statement and then that of the others. -/
theorem withScript_cons
    {source : List Char}
    {chunk : Chunk}
    {statement : Statement}
    (admitted : chunk.Admits source statement.body.literals)
    (script : Script) :
    chunk.withScript source (statement :: script) =
      (chunk.withStatement source statement).withScript source script := by
  simp [withScript, withStatement, withExpression, Script.closed, Script.constants,
    Script.literals, Statement.instructions, Expression.constants,
    length_filterMap_literal? admitted.decoded]

/-- Programs are admitted statement by statement. -/
theorem admits_script_cons_iff
    {source : List Char}
    {chunk : Chunk}
    {statement : Statement}
    {script : Script} :
    chunk.Admits source (Script.literals (statement :: script)) ↔
      chunk.Admits source statement.body.literals ∧
        (chunk.withStatement source statement).Admits source (Script.literals script) := by
  have closedAlike :
      (chunk.withStatement source statement).Admits source (Script.literals script) ↔
        (chunk.withExpression source statement.body).Admits source
          (Script.literals script) := by
    constructor
    · rintro ⟨decoded, room⟩
      exact ⟨decoded, by simpa [withStatement] using room⟩
    · rintro ⟨decoded, room⟩
      exact ⟨decoded, by simpa [withStatement] using room⟩
  rw [closedAlike, ← admits_append_iff]
  simp [Script.literals]

end Chunk

namespace Statement

/-- Where the pop of a statement lies in the code up to its end, if it has one. -/
def pop? (code : List CodeUnit) : Statement → Option Nat
  | .expression _ => some (code.length - 1)
  | .assertion _ _ => none

end Statement

namespace Script

/-- Where the last pop lies in the code of a program, if an expression ends the program. -/
def lastPop?
    (before? : Option Nat)
    (code : List CodeUnit)
    (script : Script) :
    Option Nat :=
  match script.getLast? with
  | none => before?
  | some statement => statement.pop? code

/-- What was popped before a program counts only if the program has no statement. -/
theorem lastPop?_cons_cons
    (before? other? : Option Nat)
    (code : List CodeUnit)
    (first second : Statement)
    (script : Script) :
    lastPop? before? code (first :: second :: script) =
      lastPop? other? code (second :: script) := by
  simp [lastPop?, List.getLast?_cons]

end Script

namespace TokenKind

/-- What starts a statement does not continue the one before. -/
theorem idle_of_starts
    {kind : TokenKind}
    (starts : kind.isNumber = true ∨ kind = .leftParenthesis ∨ kind = .assertWord) :
    kind.rule.precedence.rank = 0 ∧ kind ≠ .assign := by
  rcases starts with isNumber | rfl | rfl
  · cases kind with
    | integer | float | complex =>
        exact ⟨rfl, by decide⟩
    | _ =>
        simp [TokenKind.isNumber] at isNumber
  · exact ⟨rfl, by decide⟩
  · exact ⟨rfl, by decide⟩

end TokenKind

namespace Compiler

variable
  (compiler : Compiler)
  (behind ahead : List Token)
  (chunk : Chunk)

/-- A compiler that has read a statement. -/
def afterStatement
    (tokens rest : List Token)
    (statement : Statement) :
    Compiler :=
  { compiler with
    lastPop? := statement.pop? (chunk.withStatement compiler.source statement).code }.between
      (tokens.reverse ++ behind) rest (chunk.withStatement compiler.source statement)

/-- Close an assertion whose condition is read. -/
def closeAssertion (compiler : Compiler) : Reading Compiler := do
  let compiler ← compiler.here (compiler.emit .assert [])
  .done { compiler with lastPop? := none }

/-- Close an expression statement whose expression is read. -/
def closeExpression (compiler : Compiler) : Reading Compiler := do
  let position := compiler.chunk?.map (·.code.length)
  let compiler ← compiler.here (compiler.emit .pop [])
  .done { compiler with lastPop? := position }

/-- After the word that asserts, a statement goes on with its condition. -/
theorem statement_of_assertWord
    {word : Token}
    (asserts : word.kind = .assertWord) :
    (compiler.between behind (word :: ahead) chunk).statement =
      (compiler.between (word :: behind) ahead chunk).expression >>= closeAssertion := by
  simp only [statement, peek_between, here_done, Outcome.done_bind, asserts, ↓reduceIte,
    advance_between]
  rfl

/-- Any other statement is an expression. -/
theorem statement_of_ne_assertWord
    {first : Token}
    (assertsNot : first.kind ≠ .assertWord) :
    (compiler.between behind (first :: ahead) chunk).statement =
      (compiler.between behind (first :: ahead) chunk).expression >>= closeExpression := by
  simp only [statement, peek_between, here_done, Outcome.done_bind, assertsNot,
    ↓reduceIte]
  rfl

/-- Closing an assertion gives the compiler after it. -/
theorem closeAssertion_between
    {tokens : List Token}
    {condition : Expression}
    (derived : condition.Derives .equality tokens)
    (word : Token) :
    (compiler.between (tokens.reverse ++ word :: behind) ahead
        (chunk.withExpression compiler.source condition)).closeAssertion =
      .done (compiler.afterStatement behind chunk (word :: tokens) ahead
        (.assertion word condition)) := by
  obtain ⟨before, rfl⟩ := derived.exists_append_last
  rw [closeAssertion, List.reverse_append, List.reverse_singleton, List.singleton_append,
    List.cons_append, emitPlain_between, here_done, Outcome.done_bind]
  simp [afterStatement, between, Chunk.withStatement, Statement.pop?, Statement.closing,
    Statement.body]

/-- At the end of an expression, the statement is closed with its pop. -/
theorem closeExpression_between
    {tokens : List Token}
    {value : Expression}
    (derived : value.Derives .equality tokens) :
    (compiler.between (tokens.reverse ++ behind) ahead
        (chunk.withExpression compiler.source value)).closeExpression =
      .done (compiler.afterStatement behind chunk tokens ahead (.expression value)) := by
  obtain ⟨before, rfl⟩ := derived.exists_append_last
  rw [closeExpression, List.reverse_append, List.reverse_singleton, List.singleton_append,
    List.cons_append, emitPlain_between, here_done, Outcome.done_bind]
  simp [afterStatement, between, Chunk.withStatement, Statement.pop?, Statement.closing,
    Statement.body, Chunk.extend, @Instruction.units_plain .pop rfl]

/-- The tokens of a statement are read when the token behind neither binds nor assigns. -/
theorem statement_derived
    {tokens : List Token}
    {statement : Statement}
    (derived : statement.Derives tokens)
    (rest : List Token)
    (next : Token)
    (idle : next.kind.rule.precedence.rank = 0)
    (noAssignment : next.kind ≠ .assign)
    (admitted : chunk.Admits compiler.source statement.body.literals) :
    (compiler.between behind (tokens ++ next :: rest) chunk).statement =
      .done (compiler.afterStatement behind chunk tokens (next :: rest) statement) := by
  cases derived with
  | @expression tokens value derived =>
      obtain ⟨first, later, rfl, starts⟩ := derived.exists_cons
      have assertsNot : first.kind ≠ .assertWord := by
        intro same
        simp [same, TokenKind.isNumber] at starts
      have read :=
        expression_derived derived compiler behind rest next chunk idle noAssignment admitted
      rw [List.cons_append] at read ⊢
      rw [statement_of_ne_assertWord compiler behind _ chunk assertsNot, read,
        Outcome.done_bind, closeExpression_between compiler behind _ chunk derived]
  | @assertion word tokens condition asserts derived =>
      have read :=
        expression_derived derived compiler (word :: behind) rest next chunk idle
          noAssignment admitted
      rw [List.cons_append, statement_of_assertWord compiler behind _ chunk asserts, read,
        Outcome.done_bind, closeAssertion_between compiler behind _ chunk derived]

/-- A statement is read as the grammar derives it, or a problem is reported. -/
theorem meets_statement
    (placed : Placed ahead)
    (ended : Ended ahead) :
    (compiler.between behind ahead chunk).statement.Meets fun after =>
      ∃ tokens next rest statement,
        ahead = tokens ++ next :: rest ∧
          Statement.Derives tokens statement ∧
            next.kind.rule.precedence.rank < Precedence.assignment.rank ∧
              chunk.Admits compiler.source statement.body.literals ∧
                after =
                  compiler.afterStatement behind chunk tokens (next :: rest) statement := by
  obtain ⟨first, later, rfl⟩ := ended.exists_cons
  by_cases asserts : first.kind = .assertWord
  · have laterPlaced : Placed later := fun other member => placed other (by simp [member])
    have laterEnded : Ended later := ended.tail (by simp [asserts])
    rw [statement_of_assertWord compiler behind later chunk asserts]
    refine (meets_expression compiler (first :: behind) later chunk laterPlaced
      laterEnded).bind ?_
    rintro _ ⟨tokens, next, rest, condition, rfl, derived, ends, admitted, rfl⟩
    rw [closeAssertion_between compiler behind _ chunk derived]
    exact ⟨first :: tokens, next, rest, .assertion first condition, rfl,
      .assertion asserts derived, ends, admitted, rfl⟩
  · rw [statement_of_ne_assertWord compiler behind later chunk asserts]
    refine (meets_expression compiler behind _ chunk placed ended).bind ?_
    rintro _ ⟨tokens, next, rest, value, tokensShape, derived, ends, admitted, rfl⟩
    rw [closeExpression_between compiler behind _ chunk derived]
    exact ⟨tokens, next, rest, .expression value, tokensShape, .expression derived, ends,
      admitted, rfl⟩

/-- A compiler that has read a whole program. -/
def afterScript
    (tokens rest : List Token)
    (script : Script) :
    Compiler :=
  { compiler with
    lastPop? :=
      Script.lastPop? compiler.lastPop? (chunk.withScript compiler.source script).code
        script }.between
      (tokens.reverse ++ behind) rest (chunk.withScript compiler.source script)

theorem afterScript_nil :
    compiler.afterScript behind chunk [] ahead [] =
      compiler.between behind ahead chunk := by
  simp [afterScript, Script.lastPop?]

/-- After a program, the compiler stands as after its first statement and then the others. -/
theorem afterScript_cons
    {tokens : List Token}
    {statement : Statement}
    (admitted : chunk.Admits compiler.source statement.body.literals)
    (following rest : List Token)
    (script : Script) :
    ({ compiler with
        lastPop? := statement.pop? (chunk.withStatement compiler.source statement).code } :
          Compiler).afterScript (tokens.reverse ++ behind)
        (chunk.withStatement compiler.source statement) following rest script =
      compiler.afterScript behind chunk (tokens ++ following) rest (statement :: script) := by
  cases script with
  | nil =>
      simp [afterScript, Script.lastPop?, Chunk.withScript_cons admitted]
  | cons second script =>
      simp [afterScript, Chunk.withScript_cons admitted,
        Script.lastPop?_cons_cons compiler.lastPop?
          (statement.pop? (chunk.withStatement compiler.source statement).code)]

/--
The tokens of a program are read up to the end of the input.  No statement is continued by the next
one, or by the end.
-/
theorem statements_derived
    {tokens : List Token}
    {script : Script}
    (derived : Script.Derives tokens script)
    (compiler : Compiler)
    (behind rest : List Token)
    (ending : Token)
    (chunk : Chunk)
    (fuel : Nat)
    (ends : ending.kind = .endOfInput)
    (admitted : chunk.Admits compiler.source (Script.literals script))
    (enough : (tokens ++ ending :: rest).length ≤ fuel) :
    (compiler.between behind (tokens ++ ending :: rest) chunk).statements fuel =
      .done (compiler.afterScript behind chunk tokens (ending :: rest) script) := by
  induction derived generalizing compiler behind chunk fuel with
  | nil =>
      obtain ⟨fuel, rfl⟩ : ∃ left, fuel = left + 1 :=
        ⟨fuel - 1, by simp only [List.nil_append, List.length_cons] at enough; omega⟩
      rw [afterScript_nil, List.nil_append, statements, peek_between, here_done,
        Outcome.done_bind, if_pos ends]
  | @cons tokens following statement script first derived inductionHypothesis =>
      obtain ⟨opening, later, tokensShape, _⟩ := first.exists_cons
      obtain ⟨fuel, rfl⟩ : ∃ left, fuel = left + 1 :=
        ⟨fuel - 1, by simp only [List.length_append, List.length_cons] at enough; omega⟩
      obtain ⟨statementAdmitted, scriptAdmitted⟩ :=
        Chunk.admits_script_cons_iff.mp admitted
      obtain ⟨next, behindNext, nextShape, idle, noAssignment⟩ :
          ∃ next behindNext,
            following ++ ending :: rest = next :: behindNext ∧
              next.kind.rule.precedence.rank = 0 ∧ next.kind ≠ .assign := by
        cases derived with
        | nil =>
            exact ⟨ending, rest, rfl, by rw [ends]; rfl, by simp [ends]⟩
        | cons second _ =>
            obtain ⟨next, secondRest, secondShape, starts⟩ := second.exists_cons
            subst secondShape
            exact ⟨next, _, rfl, TokenKind.idle_of_starts starts⟩
      have openingGoesOn : opening.kind ≠ .endOfInput :=
        first.kind_ne_endOfInput opening (by simp [tokensShape])
      have read :=
        statement_derived compiler behind chunk first behindNext next idle noAssignment
          statementAdmitted
      have readOn :=
        inductionHypothesis
          { compiler with
            lastPop? :=
              statement.pop? (chunk.withStatement compiler.source statement).code }
          (tokens.reverse ++ behind) (chunk.withStatement compiler.source statement) fuel
          scriptAdmitted
          (by
            simp only [tokensShape, List.length_append, List.length_cons] at enough ⊢
            omega)
      rw [afterScript_cons compiler behind chunk statementAdmitted] at readOn
      rw [← readOn, List.append_assoc, nextShape, statements]
      rw [tokensShape, List.cons_append] at read ⊢
      rw [peek_between, here_done, Outcome.done_bind, if_neg openingGoesOn, read,
        Outcome.done_bind, afterStatement]

/--
Statements are read up to the end of the input as the grammar derives them, or a problem is
reported.
-/
theorem meets_statements
    (fuel : Nat)
    (placed : Placed ahead)
    (ended : Ended ahead)
    (fits : chunk.constants.length ≤ Chunk.maxConstants)
    (enough : ahead.length ≤ fuel) :
    ((compiler.between behind ahead chunk).statements fuel).Meets fun after =>
      ∃ tokens ending rest script,
        ahead = tokens ++ ending :: rest ∧
          ending.kind = .endOfInput ∧
            Script.Derives tokens script ∧
              chunk.Admits compiler.source (Script.literals script) ∧
                after = compiler.afterScript behind chunk tokens (ending :: rest) script := by
  induction fuel generalizing compiler behind ahead chunk with
  | zero =>
      obtain ⟨first, later, rfl⟩ := ended.exists_cons
      simp at enough
  | succ fuel inductionHypothesis =>
      obtain ⟨first, later, rfl⟩ := ended.exists_cons
      rw [statements, peek_between, here_done, Outcome.done_bind]
      by_cases ends : first.kind = .endOfInput
      · rw [if_pos ends]
        exact ⟨[], first, later, [], rfl, ends, .nil, ⟨by simp [Script.literals],
          by simpa [Script.literals] using fits⟩, (afterScript_nil ..).symm⟩
      · rw [if_neg ends]
        refine (meets_statement compiler behind _ chunk placed ended).bind ?_
        rintro _ ⟨tokens, next, rest, statement, aheadShape, derived, _, admitted, rfl⟩
        obtain ⟨opening, inside, tokensShape, _⟩ := derived.exists_cons
        have fitsBehind :
            (chunk.withStatement compiler.source statement).constants.length ≤
              Chunk.maxConstants := by
          simpa [Chunk.withStatement, admitted.length_constants_withExpression]
            using admitted.room
        rw [aheadShape] at placed ended enough ⊢
        refine (inductionHypothesis _ _ _ _
          (fun token member => placed token (List.mem_append_right _ member))
          (ended.of_append derived.kind_ne_endOfInput) fitsBehind
          (by
            simp only [tokensShape, List.length_append, List.length_cons] at enough ⊢
            omega)).weaken ?_
        rintro _ ⟨following, ending, behindEnd, script, restShape, endingEnds,
          followingDerived, followingAdmitted, rfl⟩
        rw [restShape]
        exact ⟨tokens ++ following, ending, behindEnd, statement :: script, by simp,
          endingEnds, .cons derived followingDerived,
          Chunk.admits_script_cons_iff.mpr ⟨admitted, followingAdmitted⟩,
          afterScript_cons compiler behind chunk admitted following _ script⟩

end Compiler

end Reckon
