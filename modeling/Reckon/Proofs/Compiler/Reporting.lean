import Reckon.Proofs.Compiler.Acceptance
import Reckon.Proofs.Interpreter.Meaning
import Reckon.Proofs.Syntax.Offences
import Reckon.Proofs.Token.Joining

namespace Reckon

/-!
# Reported problems

A source that is read as tokens and does not compile is reported at the first token that offends.

The compiler is followed from stage to stage.  `Stands` ties the tokens that it has read to a stage
and to the constants so far; every step of reading either keeps it or reports the token that comes
next.
-/

namespace Stage

/-- A token that opens nothing cannot begin an operand. -/
theorem opened_eq_none
    {kind : TokenKind}
    (opensNot : kind.rule.opening? = none)
    (depth : Nat) :
    opened depth kind = none := by
  cases kind <;> first | rfl | cases opensNot

/-- No program goes on with an assignment. -/
theorem next_assign
    (depth : Nat) :
    (Stage.behind depth).next .assign = none := by
  cases depth <;> rfl

/-- Inside a group, an expression ends only where the group does. -/
theorem next_eq_none_of_open
    {kind : TokenKind}
    (idle : ¬ 0 < kind.rule.precedence.rank)
    (closesNot : kind ≠ .rightParenthesis)
    (depth : Nat) :
    (Stage.behind (depth + 1)).next kind = none := by
  simp [next, idle, closesNot]

/--
An expression is awaited with so many parentheses open.  Behind a statement, the token to come
begins another one: it neither continues the statement nor assigns to it.
-/
structure Awaits (stage : Stage) (depth : Nat) (kind : TokenKind) : Prop where
  opens : stage.operandDepth? = some depth
  next_eq : stage.next kind = opened depth kind
  assignsNot : ∀ inside, stage = .behind inside → kind ≠ .assign

/-- Where an operand is expected, it is awaited at the same depth. -/
theorem awaits_operand
    (depth : Nat)
    (kind : TokenKind) :
    (Stage.operand depth).Awaits depth kind where
  opens := rfl
  next_eq := rfl
  assignsNot := by
    simp

/-- A statement can begin with the token to come, or the input can end. -/
structure Fresh (stage : Stage) (kind : TokenKind) : Prop where
  begins : stage.Begins
  idle : ∀ inside, stage = .behind inside → kind.rule.precedence.rank = 0 ∧ kind ≠ .assign

namespace Fresh

/-- A fresh stage goes on as the start of a statement does. -/
theorem next_eq_begun
    {stage : Stage}
    {kind : TokenKind}
    (fresh : stage.Fresh kind) :
    stage.next kind = begun kind := by
  rcases fresh.begins with rfl | rfl
  · rfl
  · exact Begins.next_eq_begun (Or.inr rfl) (fresh.idle 0 rfl).1

/-- A fresh stage awaits the expression of a statement. -/
theorem awaits
    {stage : Stage}
    {kind : TokenKind}
    (fresh : stage.Fresh kind)
    (assertsNot : kind ≠ .assertWord)
    (goesOn : kind ≠ .endOfInput) :
    stage.Awaits 0 kind where
  opens := fresh.begins.operandDepth?_eq
  next_eq := by
    rw [fresh.next_eq_begun, begun, if_neg assertsNot, if_neg goesOn]
  assignsNot inside shape :=
    (fresh.idle inside shape).2

end Fresh

end Stage

/--
Behind the tokens, the latest first, a program stands at the stage: the numbers among them have
values, which are the constants of the chunk so far.
-/
structure Stands
    (source : List Char)
    (behind : List Token)
    (chunk : Chunk)
    (stage : Stage) :
    Prop where
  ran : Stage.start.run behind.reverse = some stage
  decoded : ∀ token ∈ behind, token.kind.isNumber = true → (token.literal? source).isSome = true
  counted : (behind.filter (·.kind.isNumber)).length = chunk.constants.length
  room : chunk.constants.length ≤ Chunk.maxConstants

namespace Stands

variable
  {source : List Char}
  {behind : List Token}
  {chunk : Chunk}
  {stage : Stage}

theorem at_start :
    Stands source [] .empty .start where
  ran := rfl
  decoded := by
    simp
  counted := rfl
  room := by
    simp

/-- Code without constants does not matter. -/
theorem extend
    (stands : Stands source behind chunk stage)
    (instructions : List Instruction) :
    Stands source behind (chunk.extend instructions []) stage where
  ran := stands.ran
  decoded := stands.decoded
  counted := by
    simpa using stands.counted
  room := by
    simpa using stands.room

/-- One more token that is no number. -/
theorem push
    (stands : Stands source behind chunk stage)
    {token : Token}
    {after : Stage}
    (stepped : stage.next token.kind = some after)
    (numberNot : token.kind.isNumber = false) :
    Stands source (token :: behind) chunk after where
  ran := by
    rw [List.reverse_cons, Stage.run_concat stands.ran, stepped]
  decoded := by
    intro other member isNumber
    rcases List.mem_cons.mp member with rfl | earlier
    · rw [numberNot] at isNumber
      cases isNumber
    · exact stands.decoded other earlier isNumber
  counted := by
    simpa [numberNot] using stands.counted
  room := stands.room

/-- A whole expression that is admitted. -/
theorem read
    (stands : Stands source behind chunk stage)
    {depth : Nat}
    (opens : stage.operandDepth? = some depth)
    {level : BindingLevel}
    {tokens : List Token}
    {expression : Expression}
    (derived : Expression.Derives level tokens expression)
    (admitted : chunk.Admits source expression.literals) :
    Stands source (tokens.reverse ++ behind) (chunk.withExpression source expression)
      (.behind depth) where
  ran := by
    rw [List.reverse_append, List.reverse_reverse, Stage.run_append, stands.ran,
      Option.bind_some, Stage.run_expression derived opens]
  decoded := by
    intro token member isNumber
    rcases List.mem_append.mp member with inside | earlier
    · have isLiteral : token ∈ expression.literals := by
        rw [derived.literals_eq, List.mem_filter]
        exact ⟨List.mem_reverse.mp inside, isNumber⟩
      exact Option.isSome_iff_exists.mpr (admitted.decoded token isLiteral)
    · exact stands.decoded token earlier isNumber
  counted := by
    rw [admitted.length_constants_withExpression, derived.literals_eq, ← stands.counted]
    simp [Nat.add_comm]
  room := by
    rw [admitted.length_constants_withExpression]
    exact admitted.room

/-- A whole statement that is admitted. -/
theorem readStatement
    (stands : Stands source behind chunk stage)
    (begins : stage.Begins)
    {tokens : List Token}
    {statement : Statement}
    (derived : Statement.Derives tokens statement)
    (admitted : chunk.Admits source statement.body.literals) :
    Stands source (tokens.reverse ++ behind) (chunk.withStatement source statement)
      (.behind 0) := by
  cases derived with
  | expression derived =>
      exact (stands.read begins.operandDepth?_eq derived admitted).extend _
  | @assertion word tokens condition asserts derived =>
      have stepped : stage.next word.kind = some (.operand 0) := by
        rw [begins.next_eq_begun (by rw [asserts]; rfl), asserts]
        rfl
      have asserted := stands.push stepped (by rw [asserts]; rfl)
      rw [List.reverse_cons, List.append_assoc, List.singleton_append]
      exact (asserted.read rfl derived admitted).extend _

/-- A whole program that is admitted. -/
theorem exists_readScript
    {tokens : List Token}
    {script : Script}
    (derived : Script.Derives tokens script)
    (stands : Stands source behind chunk stage)
    (begins : stage.Begins)
    (admitted : chunk.Admits source (Script.literals script)) :
    ∃ after : Stage,
      after.Begins ∧
        Stands source (tokens.reverse ++ behind) (chunk.withScript source script) after := by
  induction derived generalizing behind chunk stage with
  | nil =>
      rw [Chunk.withScript_nil]
      exact ⟨stage, begins, stands⟩
  | @cons tokens following statement script first _ inductionHypothesis =>
      obtain ⟨firstAdmitted, restAdmitted⟩ := Chunk.admits_script_cons_iff.mp admitted
      have read := stands.readStatement begins first firstAdmitted
      rw [Chunk.withScript_cons firstAdmitted, List.reverse_append, List.append_assoc]
      exact inductionHypothesis read (Or.inr rfl) restAdmitted

/-- None of the tokens that were read offends. -/
theorem faultless
    (stands : Stands source behind chunk stage) :
    Token.Faultless source behind.reverse := by
  intro before token after shape offends
  rcases offends with inviable | ⟨isNumber, undecoded | full⟩
  · refine inviable (Stage.isSome_run_iff_viable.mp ?_)
    have passed := stands.ran
    rw [shape, List.append_cons, Stage.run_append] at passed
    obtain ⟨middle, ran, _⟩ := Option.bind_eq_some_iff.mp passed
    rw [ran]
    rfl
  · have member : token ∈ behind := by
      rw [← List.mem_reverse, shape]
      simp
    have decoded := stands.decoded token member isNumber
    rw [undecoded] at decoded
    cases decoded
  · have counted : (behind.reverse.filter (·.kind.isNumber)).length ≤ Chunk.maxConstants := by
      rw [List.filter_reverse, List.length_reverse, stands.counted]
      exact stands.room
    rw [shape] at counted
    simp [isNumber, full] at counted

/-- What is reported of the token that comes next is reported first. -/
theorem reportsFirst
    (stands : Stands source behind chunk stage)
    {token : Token}
    {error : SourceError}
    (reports : token.Reports source behind.reverse error)
    (ahead : List Token) :
    Token.ReportsFirst source (behind.reverse ++ token :: ahead) error :=
  ⟨behind.reverse, token, ahead, rfl, stands.faultless, reports⟩

end Stands

namespace Compiler

variable
  (compiler : Compiler)
  (behind ahead : List Token)
  (chunk : Chunk)

/-- Reading that stops short reports the first of the tokens that offends. -/
def ReportsFirst {α : Type} (source : List Char) (tokens : List Token) :
    Reading α → Prop :=
  Outcome.FailsOnly fun stop => Token.ReportsFirst source tokens stop.error

/-- A step reports the first problem if that is all that it fails for. -/
@[simp] theorem reportsFirst_here_iff
    {α : Type}
    {source : List Char}
    {tokens : List Token}
    {step : Step α} :
    ReportsFirst source tokens (compiler.here step) ↔
      step.FailsOnly (Token.ReportsFirst source tokens) :=
  Outcome.failsOnly_mapFailure_iff

/-- Readings one after the other report the first problem if each of them does. -/
theorem ReportsFirst.bind
    {α β : Type}
    {source : List Char}
    {tokens : List Token}
    {condition : α → Prop}
    {reading : Reading α}
    {next : α → Reading β}
    (first : ReportsFirst source tokens reading)
    (met : reading.Meets condition)
    (following : ∀ result, condition result → ReportsFirst source tokens (next result)) :
    ReportsFirst source tokens (reading >>= next) :=
  Outcome.FailsOnly.bind_of_meets first met following

/-- A failure at a token that lies in the source is the report of the token. -/
theorem failAt_eq
    {α : Type}
    {token : Token}
    (placed : 0 ≤ token.start)
    (problem : CompileProblem) :
    (compiler.failAt token problem : Step α) =
      .failed (token.reported compiler.source problem) := by
  obtain ⟨text, textShape⟩ := Token.exists_text? placed compiler.source
  unfold failAt lexeme Token.reported
  split <;> simp [textShape, pure]

/-! ### Single steps -/

section Steps

variable
  {compiler : Compiler}
  {behind : List Token}
  {chunk : Chunk}
  {stage : Stage}
  {depth : Nat}
  {token : Token}
  (stands : Stands compiler.source behind chunk stage)
  (placed : 0 ≤ token.start)

include stands placed

/--
A number that is refused has no value, or is one too many.  If it has a value, what is missing is
the room.
-/
theorem failsOnly_number
    (awaits : stage.Awaits depth token.kind)
    (isNumber : token.kind.isNumber = true)
    (ahead : List Token) :
    (compiler.between (token :: behind) ahead chunk).number.FailsOnly
      (Token.ReportsFirst compiler.source (behind.reverse ++ token :: ahead)) := by
  by_cases admitted : chunk.Admits compiler.source [token]
  · rw [number_between compiler behind ahead chunk admitted]
    exact True.intro
  · have viable : Viable (behind.reverse ++ [token]) := by
      refine Classical.not_not.mp fun inviable => ?_
      have stepped := (Stage.next_eq_none_iff stands.ran token).mpr inviable
      rw [Stage.next_of_isNumber awaits.opens isNumber] at stepped
      cases stepped
    obtain ⟨text, textShape⟩ := Token.exists_text? placed compiler.source
    have lexemeShape :
        (compiler.between (token :: behind) ahead chunk).lexeme token = .done text := by
      simp [lexeme, between, textShape]
    simp only [number, previous_between, Outcome.done_bind, lexemeShape]
    cases read : token.number text with
    | error error =>
        have place : error.line = token.line ∧ error.offset = token.start := by
          unfold Token.number at read
          split at read
          next =>
            cases read
          next =>
            cases read
            exact ⟨rfl, rfl⟩
        exact stands.reportsFirst (.malformed viable isNumber textShape read place.1 place.2)
          ahead
    | ok value =>
        have decoded : token.literal? compiler.source = some value :=
          Token.literal?_eq_some_iff.mpr ⟨text, textShape, read⟩
        have full : Chunk.maxConstants ≤ chunk.constants.length := by
          refine Nat.le_of_not_lt fun room => admitted ⟨?_, room⟩
          intro other member
          rw [List.mem_singleton.mp member]
          exact ⟨value, decoded⟩
        have counted :
            (behind.reverse.filter (·.kind.isNumber)).length = Chunk.maxConstants := by
          rw [List.filter_reverse, List.length_reverse, stands.counted]
          exact Nat.le_antisymm stands.room full
        simp only [emitConstant, between, Chunk.addConstant?, full, ↓reduceIte]
        have refused :
            (compiler.between (token :: behind) ahead chunk).failAtPrevious
                .tooManyConstants =
              (.failed (token.reported compiler.source .tooManyConstants) : Step Compiler) :=
          failAt_eq _ placed _
        simp only [between] at refused
        rw [refused]
        exact stands.reportsFirst (.tooMany viable isNumber ⟨value, decoded⟩ counted) ahead

/-- A token that does not begin an operand where one is awaited is unexpected. -/
theorem failsOnly_unexpectedStart
    {α : Type}
    (awaits : stage.Awaits depth token.kind)
    (opensNot : token.kind.rule.opening? = none)
    (ahead : List Token) :
    ((compiler.between (token :: behind) ahead chunk).failAt token .unexpectedStart :
        Step α).FailsOnly
      (Token.ReportsFirst compiler.source (behind.reverse ++ token :: ahead)) := by
  rw [failAt_eq _ placed]
  refine stands.reportsFirst (.misplaced (.other ?_ ?_ ?_)) ahead
  · rw [← Stage.next_eq_none_iff stands.ran, awaits.next_eq]
    exact Stage.opened_eq_none opensNot depth
  · rintro ⟨assigns, behindExpression⟩
    obtain ⟨inside, stageShape⟩ := Stage.exists_eq_behind stands.ran behindExpression
    exact awaits.assignsNot inside stageShape assigns
  · intro behindOpen
    obtain ⟨inside, rfl⟩ := Stage.exists_eq_behind_succ stands.ran behindOpen
    cases awaits.opens

end Steps

/-- A group that is not closed where its expression ends is reported there. -/
theorem failsOnly_closeGroup
    {compiler : Compiler}
    {behind : List Token}
    {chunk : Chunk}
    {depth : Nat}
    {token : Token}
    (stands : Stands compiler.source behind chunk (.behind (depth + 1)))
    (placed : 0 ≤ token.start)
    (idle : ¬ 0 < token.kind.rule.precedence.rank)
    (assignsNot : token.kind ≠ .assign)
    (ahead : List Token) :
    (compiler.between behind (token :: ahead) chunk).closeGroup.FailsOnly
      (Token.ReportsFirst compiler.source (behind.reverse ++ token :: ahead)) := by
  by_cases closes : token.kind = .rightParenthesis
  · rw [closeGroup_between compiler behind ahead chunk closes]
    exact True.intro
  · simp only [closeGroup, peek_between, Outcome.done_bind, closes, ↓reduceIte]
    rw [failAt_eq _ placed]
    refine stands.reportsFirst (.misplaced (.unclosed ?_ assignsNot ?_)) ahead
    · rw [← Stage.next_eq_none_iff stands.ran]
      exact Stage.next_eq_none_of_open idle closes depth
    · exact Stage.behindOpenExpression_of_run stands.ran

/-- An assignment behind an expression is reported there. -/
theorem failsOnly_refuseAssignment
    {compiler : Compiler}
    {behind : List Token}
    {chunk : Chunk}
    {depth : Nat}
    {token : Token}
    (stands : Stands compiler.source behind chunk (.behind depth))
    (placed : 0 ≤ token.start)
    (precedence : Precedence)
    (ahead : List Token) :
    (compiler.between behind (token :: ahead) chunk).refuseAssignment precedence |>.FailsOnly
      (Token.ReportsFirst compiler.source (behind.reverse ++ token :: ahead)) := by
  by_cases assigns : token.kind = .assign
  · simp only [refuseAssignment, peek_between, Outcome.done_bind, assigns, ↓reduceIte]
    split
    · rw [failAt_eq _ placed]
      refine stands.reportsFirst (.misplaced (.assignment ?_ assigns ?_)) ahead
      · rw [← Stage.next_eq_none_iff stands.ran, assigns]
        exact Stage.next_assign depth
      · exact Stage.behindExpression_of_run stands.ran
    · exact True.intro
  · rw [refuseAssignment_between compiler behind ahead chunk precedence assigns]
    exact True.intro

/-! ### What follows an expression -/

/-- The token to come does not assign. -/
def AssignsNot (compiler : Compiler) : Prop :=
  ∀ token, compiler.peek = .done token → token.kind ≠ .assign

/-- A step of the compiler succeeds as it does by itself. -/
theorem here_eq_done_iff
    {α : Type}
    {step : Step α}
    {result : α} :
    compiler.here step = .done result ↔ step = .done result :=
  Outcome.mapFailure_eq_done_iff

theorem failAt_ne_done
    {α : Type}
    (token : Token)
    (problem : CompileProblem)
    (result : α) :
    compiler.failAt token problem ≠ .done result := by
  intro done
  rw [failAt] at done
  split at done
  all_goals
    obtain ⟨lexeme, _, failed⟩ := Outcome.bind_eq_done_iff.mp done
    cases failed

/-- A compiler that refuses assignments and goes on is not at one. -/
theorem assignsNot_of_refuseAssignment
    {compiler after : Compiler}
    (passed : compiler.refuseAssignment .assignment = .done after) :
    after.AssignsNot := by
  rw [refuseAssignment, if_pos (Int.le_refl _)] at passed
  obtain ⟨token, peeked, passed⟩ := Outcome.bind_eq_done_iff.mp passed
  by_cases assigns : token.kind = .assign
  · rw [if_pos assigns] at passed
    exact (failAt_ne_done _ _ _ _ passed).elim
  · rw [if_neg assigns] at passed
    cases passed
    intro other otherPeeked
    rw [peeked] at otherPeeked
    cases otherPeeked
    exact assigns

/-- Behind the operators of a whole expression, no assignment follows. -/
theorem assignsNot_of_parseOperators
    {fuel : Nat}
    {compiler after : Compiler}
    (read : compiler.parseOperators fuel .assignment = .done after) :
    after.AssignsNot := by
  induction fuel generalizing compiler with
  | zero =>
      rw [parseOperators] at read
      cases read
  | succ fuel inductionHypothesis =>
      rw [parseOperators] at read
      obtain ⟨operator, _, read⟩ := Outcome.bind_eq_done_iff.mp read
      simp only at read
      split at read
      next =>
        split at read
        next =>
          obtain ⟨right, _, read⟩ := Outcome.bind_eq_done_iff.mp read
          obtain ⟨joined, _, read⟩ := Outcome.bind_eq_done_iff.mp read
          exact inductionHypothesis read
        next =>
          exact (failAt_ne_done _ _ _ _ ((here_eq_done_iff _).mp read)).elim
      next =>
        exact assignsNot_of_refuseAssignment ((here_eq_done_iff _).mp read)

/-- An expression that was read does not stop at an assignment. -/
theorem assignsNot_of_parse
    {fuel : Nat}
    {compiler after : Compiler}
    (read : compiler.parse fuel .assignment = .done after) :
    after.AssignsNot := by
  cases fuel with
  | zero =>
      rw [parse] at read
      cases read
  | succ fuel =>
      rw [parse] at read
      obtain ⟨token, _, read⟩ := Outcome.bind_eq_done_iff.mp read
      split at read
      next =>
        exact (failAt_ne_done _ _ _ _ ((here_eq_done_iff _).mp read)).elim
      next =>
        obtain ⟨loaded, _, read⟩ := Outcome.bind_eq_done_iff.mp read
        exact assignsNot_of_parseOperators read
      next =>
        obtain ⟨inner, _, read⟩ := Outcome.bind_eq_done_iff.mp read
        obtain ⟨closed, _, read⟩ := Outcome.bind_eq_done_iff.mp read
        exact assignsNot_of_parseOperators read

/-- Appending an instruction reads no token. -/
theorem peek_of_emit
    {compiler after : Compiler}
    {opcode : Opcode}
    {operands : List Int}
    (emitted : compiler.emit opcode operands = .done after) :
    after.peek = compiler.peek := by
  obtain ⟨token, _, emitted⟩ := Outcome.bind_eq_done_iff.mp emitted
  unfold emitAt at emitted
  split at emitted
  next =>
    cases emitted
    rfl
  next =>
    cases emitted

/-- Behind a statement, no assignment follows. -/
theorem assignsNot_of_statement
    {compiler after : Compiler}
    (read : compiler.statement = .done after) :
    after.AssignsNot := by
  obtain ⟨token, _, read⟩ := Outcome.bind_eq_done_iff.mp read
  split at read
  all_goals
    obtain ⟨value, valueRead, read⟩ := Outcome.bind_eq_done_iff.mp read
    obtain ⟨closed, emitted, read⟩ := Outcome.bind_eq_done_iff.mp read
    cases read
    have samePeek := peek_of_emit ((here_eq_done_iff _).mp emitted)
    intro next peeked
    exact assignsNot_of_parse valueRead next (samePeek.symm.trans peeked)

/-! ### Expressions -/

/-- With so much fuel, a problem in an expression is reported where it is first. -/
def ReportsInExpressions (fuel : Nat) : Prop :=
  ∀ (compiler : Compiler) (behind rest : List Token) (first : Token) (chunk : Chunk)
    (level : BindingLevel) (precedence : Precedence) (stage : Stage) (depth : Nat),
    precedence.StartsAt level →
    Placed (first :: rest) →
    Ended (first :: rest) →
    2 * (first :: rest).length + 2 ≤ fuel →
    Stands compiler.source behind chunk stage →
    stage.Awaits depth first.kind →
    ReportsFirst compiler.source (behind.reverse ++ first :: rest)
      (parse fuel precedence (compiler.between behind (first :: rest) chunk))

/-- With so much fuel, a problem behind an operand is reported where it is first. -/
def ReportsInOperators (fuel : Nat) : Prop :=
  ∀ (compiler : Compiler) (behind rest : List Token) (next : Token) (chunk : Chunk)
    (level : BindingLevel) (precedence : Precedence) (depth : Nat),
    precedence.StartsAt level →
    Placed (next :: rest) →
    Ended (next :: rest) →
    2 * (next :: rest).length + 1 ≤ fuel →
    Stands compiler.source behind chunk (.behind depth) →
    ReportsFirst compiler.source (behind.reverse ++ next :: rest)
      (parseOperators fuel precedence (compiler.between behind (next :: rest) chunk))

/-- A group is read as the grammar derives it, and no assignment follows what is inside. -/
theorem meets_parse_group
    {fuel : Nat}
    (placed : Placed ahead)
    (ended : Ended ahead)
    (enough : 2 * ahead.length + 2 ≤ fuel) :
    (parse fuel .assignment (compiler.between behind ahead chunk)).Meets fun after =>
      compiler.HasRead behind ahead chunk .equality .assignment after ∧ after.AssignsNot :=
  ((readsExpressions_and_operators fuel).1 compiler behind ahead chunk .equality .assignment
    .assignment placed ended enough).and_of_done fun _ read => assignsNot_of_parse read

/-- Behind the expression of a group, a problem is reported where it is first. -/
theorem reportsFirst_closeGroup
    {fuel : Nat}
    (operators : ReportsInOperators fuel)
    {compiler : Compiler}
    {behind following : List Token}
    {closing : Token}
    {chunk : Chunk}
    {level : BindingLevel}
    {precedence : Precedence}
    {depth : Nat}
    (starts : precedence.StartsAt level)
    (placed : Placed (closing :: following))
    (ended : Ended (closing :: following))
    (enough : 2 * following.length + 1 ≤ fuel)
    (stands : Stands compiler.source behind chunk (.behind (depth + 1)))
    (idle : ¬ 0 < closing.kind.rule.precedence.rank)
    (assignsNot : closing.kind ≠ .assign) :
    let inner := compiler.between behind (closing :: following) chunk
    ReportsFirst compiler.source (behind.reverse ++ closing :: following)
      (inner.here inner.closeGroup >>= parseOperators fuel precedence) := by
  have closingPlaced : 0 ≤ closing.start := placed closing (by simp)
  refine ReportsFirst.bind
    ((reportsFirst_here_iff _).mpr
      (failsOnly_closeGroup stands closingPlaced idle assignsNot following))
    (meets_here_iff.mpr (meets_closeGroup compiler _ following _ closingPlaced)) ?_
  rintro _ ⟨closes, rfl⟩
  have followingEnded : Ended following :=
    ended.tail (by simp [closes])
  obtain ⟨next, later, rfl⟩ := followingEnded.exists_cons
  have closed : Stands compiler.source (closing :: behind) chunk (.behind depth) :=
    stands.push (by rw [closes]; rfl) (by rw [closes]; rfl)
  have reports :=
    operators compiler (closing :: behind) later next chunk level precedence depth starts
      (fun other member => placed other (List.mem_cons_of_mem _ member)) followingEnded enough
      closed
  rw [List.reverse_cons, List.append_assoc, List.singleton_append] at reports
  exact reports

/-- With one more step, expressions still report the first problem. -/
theorem reportsInExpressions_succ
    {fuel : Nat}
    (expressions : ReportsInExpressions fuel)
    (operators : ReportsInOperators fuel) :
    ReportsInExpressions (fuel + 1) := by
  intro compiler behind rest token chunk level precedence stage depth starts placed ended
    enough stands awaits
  have tokenPlaced : 0 ≤ token.start := placed token (by simp)
  have restPlaced : Placed rest := fun other member => placed other (by simp [member])
  simp only [List.length_cons] at enough
  rw [parse_between]
  cases opens : token.kind.rule.opening? with
  | none =>
      exact (reportsFirst_here_iff _).mpr
        (failsOnly_unexpectedStart stands tokenPlaced awaits opens rest)
  | some opening =>
      cases opening with
      | number =>
          have isNumber := TokenKind.isNumber_of_opening? opens
          have restEnded : Ended rest :=
            ended.tail (by
              intro same
              simp [same, TokenKind.isNumber] at isNumber)
          obtain ⟨next, following, rfl⟩ := restEnded.exists_cons
          refine ReportsFirst.bind
            ((reportsFirst_here_iff _).mpr
              (failsOnly_number stands tokenPlaced awaits isNumber _))
            (meets_here_iff.mpr (meets_number compiler behind _ chunk tokenPlaced)) ?_
          rintro _ ⟨admitted, rfl⟩
          have reports :=
            operators compiler (token :: behind) following next _ level precedence depth
              starts restPlaced restEnded
              (by simp only [List.length_cons] at enough ⊢; omega)
              (stands.read awaits.opens (.number isNumber) admitted)
          simpa using reports
      | grouping =>
          have isParenthesis := TokenKind.eq_leftParenthesis_of_opening? opens
          have restEnded : Ended rest :=
            ended.tail (by simp [isParenthesis])
          obtain ⟨first, inside, rfl⟩ := restEnded.exists_cons
          have opened : Stands compiler.source (token :: behind) chunk (.operand (depth + 1)) :=
            stands.push (by rw [isParenthesis, Stage.next_leftParenthesis awaits.opens])
              (by rw [isParenthesis]; rfl)
          have innerReports :=
            expressions compiler (token :: behind) inside first chunk .equality .assignment _
              (depth + 1) .assignment restPlaced restEnded
              (by simp only [List.length_cons] at enough ⊢; omega) opened
              (Stage.awaits_operand _ _)
          rw [List.reverse_cons, List.append_assoc, List.singleton_append] at innerReports
          refine ReportsFirst.bind innerReports
            (meets_parse_group compiler _ _ chunk restPlaced restEnded
              (by simp only [List.length_cons] at enough ⊢; omega)) ?_
          rintro _ ⟨⟨tokens, closing, following, inner, restShape, derived, ends, admitted,
            rfl⟩, assignsNot⟩
          rw [restShape] at restPlaced restEnded enough ⊢
          have closingIdle : ¬ 0 < closing.kind.rule.precedence.rank := by
            have below : closing.kind.rule.precedence.rank < 1 := ends
            omega
          have reports :=
            reportsFirst_closeGroup operators starts
              (fun other member => restPlaced other (List.mem_append_right _ member))
              (restEnded.of_append derived.kind_ne_endOfInput)
              (by simp only [List.length_append, List.length_cons] at enough ⊢; omega)
              (opened.read rfl derived admitted) closingIdle (assignsNot closing rfl)
          simpa using reports

/-- With one more step, the operators behind an operand still report the first problem. -/
theorem reportsInOperators_succ
    {fuel : Nat}
    (expressions : ReportsInExpressions fuel)
    (operators : ReportsInOperators fuel) :
    ReportsInOperators (fuel + 1) := by
  intro compiler behind rest operator chunk level precedence depth starts placed ended enough
    stands
  have operatorPlaced : 0 ≤ operator.start := placed operator (by simp)
  have restPlaced : Placed rest := fun other member => placed other (by simp [member])
  simp only [List.length_cons] at enough
  by_cases binds : precedence.rank ≤ operator.kind.rule.precedence.rank
  · obtain ⟨sign, shows⟩ :=
      TokenKind.exists_sign_of_binds
        (Int.lt_of_lt_of_le starts.positive binds)
    rw [shows, sign.rule_kind] at binds
    have restEnded : Ended rest :=
      ended.tail (by rw [shows]; cases sign <;> simp [Sign.kind])
    obtain ⟨first, inside, rfl⟩ := restEnded.exists_cons
    have awaiting : Stands compiler.source (operator :: behind) chunk (.operand depth) :=
      stands.push (by rw [shows, Stage.next_sign]) (by rw [shows]; cases sign <;> rfl)
    have rightReports :=
      expressions compiler (operator :: behind) inside first chunk sign.level.tighter _ _ depth
        (.precedence _) restPlaced restEnded
        (by simp only [List.length_cons] at enough ⊢; omega) awaiting
        (Stage.awaits_operand _ _)
    rw [List.reverse_cons, List.append_assoc, List.singleton_append] at rightReports
    rw [parseOperators_sign compiler _ _ _ fuel shows binds]
    refine ReportsFirst.bind rightReports
      ((readsExpressions_and_operators fuel).1 compiler _ _ chunk sign.level.tighter _
        (.precedence _) restPlaced restEnded
        (by simp only [List.length_cons] at enough ⊢; omega)) ?_
    rintro _ ⟨tokens, next, following, right, restShape, derived, _, admitted, rfl⟩
    rw [restShape] at restPlaced restEnded enough ⊢
    rw [emitOperator_between compiler _ _ _ shows, here_done, Outcome.done_bind]
    have reports :=
      operators compiler (tokens.reverse ++ operator :: behind) following next _ level
        precedence depth starts
        (fun other member => restPlaced other (List.mem_append_right _ member))
        (restEnded.of_append derived.kind_ne_endOfInput)
        (by simp only [List.length_append, List.length_cons] at enough ⊢; omega)
        ((awaiting.read rfl derived admitted).extend [.plain sign.opcode operator.line])
    simpa using reports
  · have ends : operator.kind.rule.precedence.rank < precedence.rank := by
      omega
    rw [parseOperators_end compiler _ rest _ fuel ends]
    exact (reportsFirst_here_iff _).mpr
      (failsOnly_refuseAssignment stands operatorPlaced precedence rest)

/-- Enough fuel for the tokens to come reports the first problem among them. -/
theorem reportsInExpressions_and_operators
    (fuel : Nat) :
    ReportsInExpressions fuel ∧ ReportsInOperators fuel := by
  induction fuel with
  | zero =>
      constructor
      · intro _ _ _ _ _ _ _ _ _ _ _ _ enough
        omega
      · intro _ _ _ _ _ _ _ _ _ _ _ enough
        omega
  | succ fuel inductionHypothesis =>
      obtain ⟨expressions, operators⟩ := inductionHypothesis
      exact ⟨reportsInExpressions_succ expressions operators,
        reportsInOperators_succ expressions operators⟩

/-! ### Programs -/

/-- Reading an expression reports the first problem of the tokens. -/
theorem reportsFirst_expression
    {compiler : Compiler}
    {behind rest : List Token}
    {first : Token}
    {chunk : Chunk}
    {stage : Stage}
    {depth : Nat}
    (placed : Placed (first :: rest))
    (ended : Ended (first :: rest))
    (stands : Stands compiler.source behind chunk stage)
    (awaits : stage.Awaits depth first.kind) :
    ReportsFirst compiler.source (behind.reverse ++ first :: rest)
      (compiler.between behind (first :: rest) chunk).expression :=
  (reportsInExpressions_and_operators _).1 compiler behind rest first chunk .equality
    .assignment stage depth .assignment placed ended (by simp [parseFuel, between]) stands awaits

/-- A problem in a statement is reported where it is first. -/
theorem reportsFirst_statement
    {compiler : Compiler}
    {behind rest : List Token}
    {first : Token}
    {chunk : Chunk}
    {stage : Stage}
    (placed : Placed (first :: rest))
    (ended : Ended (first :: rest))
    (stands : Stands compiler.source behind chunk stage)
    (fresh : stage.Fresh first.kind)
    (goesOn : first.kind ≠ .endOfInput) :
    ReportsFirst compiler.source (behind.reverse ++ first :: rest)
      (compiler.between behind (first :: rest) chunk).statement := by
  by_cases asserts : first.kind = .assertWord
  · have restEnded : Ended rest := ended.tail goesOn
    have restPlaced : Placed rest := fun other member => placed other (by simp [member])
    obtain ⟨condition, later, rfl⟩ := restEnded.exists_cons
    have asserted : Stands compiler.source (first :: behind) chunk (.operand 0) :=
      stands.push (by rw [fresh.next_eq_begun, asserts]; rfl) (by rw [asserts]; rfl)
    have reports :=
      reportsFirst_expression restPlaced restEnded asserted (Stage.awaits_operand _ _)
    rw [List.reverse_cons, List.append_assoc, List.singleton_append] at reports
    rw [statement_of_assertWord compiler behind _ chunk asserts]
    refine ReportsFirst.bind reports
      (meets_expression compiler _ _ chunk restPlaced restEnded) ?_
    rintro _ ⟨tokens, next, following, value, _, derived, _, _, rfl⟩
    rw [closeAssertion_between compiler behind _ chunk derived]
    exact True.intro
  · rw [statement_of_ne_assertWord compiler behind rest chunk asserts]
    refine ReportsFirst.bind
      (reportsFirst_expression placed ended stands (fresh.awaits asserts goesOn))
      (meets_expression compiler _ _ chunk placed ended) ?_
    rintro _ ⟨tokens, next, following, value, _, derived, _, _, rfl⟩
    rw [closeExpression_between compiler behind _ chunk derived]
    exact True.intro

/-- What does not bind at the loosest precedence binds nothing. -/
theorem idle_of_rank_lt
    {kind : TokenKind}
    (below : kind.rule.precedence.rank < Precedence.assignment.rank) :
    kind.rule.precedence.rank = 0 := by
  rcases kind.exists_sign_or_idle with ⟨sign, rfl⟩ | idle
  · revert below
    cases sign <;> decide
  · exact idle

/-- A problem in a program is reported where it is first. -/
theorem reportsFirst_statements
    {compiler : Compiler}
    {behind rest : List Token}
    {first : Token}
    {chunk : Chunk}
    {stage : Stage}
    (placed : Placed (first :: rest))
    (ended : Ended (first :: rest))
    (stands : Stands compiler.source behind chunk stage)
    (fresh : stage.Fresh first.kind)
    (fuel : Nat) :
    ReportsFirst compiler.source (behind.reverse ++ first :: rest)
      ((compiler.between behind (first :: rest) chunk).statements fuel) := by
  induction fuel generalizing compiler behind rest first chunk stage with
  | zero =>
      exact True.intro
  | succ fuel inductionHypothesis =>
      rw [statements, peek_between, here_done, Outcome.done_bind]
      by_cases ends : first.kind = .endOfInput
      · rw [if_pos ends]
        exact True.intro
      · rw [if_neg ends]
        refine ReportsFirst.bind (reportsFirst_statement placed ended stands fresh ends)
          ((meets_statement compiler behind _ chunk placed ended).and_of_done
            fun _ read => assignsNot_of_statement read) ?_
        rintro _ ⟨⟨tokens, next, following, statement, shape, derived, below, admitted, rfl⟩,
          assignsNot⟩
        rw [shape] at placed ended ⊢
        have read :
            Stands compiler.source (tokens.reverse ++ behind)
              (chunk.withStatement compiler.source statement) (.behind 0) :=
          stands.readStatement fresh.begins derived admitted
        have nextFresh : (Stage.behind 0).Fresh next.kind :=
          ⟨Or.inr rfl, fun _ _ => ⟨idle_of_rank_lt below, assignsNot next rfl⟩⟩
        have reports :=
          @inductionHypothesis
            { compiler with
              lastPop? :=
                statement.pop? (chunk.withStatement compiler.source statement).code }
            (tokens.reverse ++ behind) following next
            (chunk.withStatement compiler.source statement) (.behind 0)
            (fun other member => placed other (List.mem_append_right _ member))
            (ended.of_append derived.kind_ne_endOfInput) read nextFresh
        rw [List.reverse_append, List.reverse_reverse, List.append_assoc] at reports
        exact reports

variable
  (compiler : Compiler)
  {source : List Char}
  {tokens : List Token}

/-- What is reported of tokens is reported of the first that offends, their end included. -/
theorem failsOnly_compileTokens
    (placed : Placed tokens) :
    (compiler.compileTokens source tokens).1.FailsOnly
      (Token.ReportsFirst source (withEnd source tokens)) := by
  obtain ⟨ending, rest, endedShape, ends, _⟩ := exists_withEnd_eq source tokens
  have ended : Ended (withEnd source tokens) :=
    ⟨ending, by simp [endedShape], ends⟩
  have allPlaced := placed_withEnd source tokens placed
  have met :=
    meets_statements (compiler.start source (withEnd source tokens)) [] _ .empty
      ((withEnd source tokens).length + 1) allPlaced ended (by simp) (by omega)
  rw [compileTokens_eq_bind, Outcome.failsOnly_mapFailure_iff]
  obtain ⟨first, later, shape⟩ := ended.exists_cons
  rw [shape] at allPlaced ended met ⊢
  have reports :=
    @reportsFirst_statements (compiler.start source (first :: later)) [] later first .empty
      .start allPlaced ended .at_start ⟨Or.inl rfl, by simp⟩
      ((first :: later).length + 1)
  refine ReportsFirst.bind reports met ?_
  rintro _ ⟨read, found, behind, script, _, _, _, _, rfl⟩
  rw [finish_afterScript _ _ _ _ _ _ rfl]
  exact True.intro

/-- The tokens of a program that is admitted do not offend, nor does the end behind them. -/
theorem faultless_of_derives
    {script : Script}
    {ending : Token}
    (derived : Script.Derives tokens script)
    (admitted : Chunk.empty.Admits source (Script.literals script))
    (ends : ending.kind = .endOfInput) :
    Token.Faultless source (tokens ++ [ending]) := by
  obtain ⟨after, begins, read⟩ :=
    Stands.exists_readScript derived .at_start (Or.inl rfl) admitted
  have stepped : after.next ending.kind = some .ended := by
    rw [begins.next_eq_begun (by rw [ends]; rfl), ends]
    rfl
  have whole := read.push stepped (by rw [ends]; rfl)
  simpa using whole.faultless

/-- Tokens that end the input are taken as they are. -/
theorem withEnd_concat
    (source : List Char)
    (read : List Token)
    {ending : Token}
    (ends : ending.kind = .endOfInput) :
    withEnd source (read ++ [ending]) = read ++ [ending] := by
  simp [withEnd, ends]

/-- The tokens of a source are reported exactly when the first one that offends is. -/
theorem compileTokens_eq_failed_iff
    (tokenized : tokenize source = .ok tokens)
    (error : SourceError) :
    (compiler.compileTokens source tokens).1 = .failed error ↔
      Token.ReportsFirst source tokens error := by
  have placed : Placed tokens := Scanner.start_nonneg_of_tokensWithin tokenized
  obtain ⟨read, ending, yields, rfl⟩ := tokenize_eq_ok_iff.mp tokenized
  obtain ⟨goOn, ends⟩ := yields.kinds
  have failsOnly := @failsOnly_compileTokens compiler source _ placed
  have met := meets_compileTokens compiler source _ placed
  rw [withEnd_concat source read ends] at failsOnly
  rw [Token.beforeEnd_append goOn ends []] at met
  cases compiled : (compiler.compileTokens source (read ++ [ending])).1 with
  | done function =>
      rw [compiled] at met
      obtain ⟨script, derived, admitted, _⟩ := met
      have faultless := faultless_of_derives derived admitted ends
      constructor
      · intro failed
        cases failed
      · rintro ⟨before, token, after, shape, _, reports⟩
        exact (faultless before token after shape reports.offends).elim
  | failed reported =>
      rw [compiled] at failsOnly
      constructor
      · intro same
        rw [← Outcome.failed.inj same]
        exact failsOnly
      · intro reports
        rw [failsOnly.unique reports]
  | aborted =>
      rw [compiled] at met
      exact met.elim

/--
A source that cannot be read as tokens gives its lexical error.  Any other source compiles or is
reported, and the error is the one of the first token that offends: the first with which no program
goes on, or that is a number without a value, or the 257th number.  An operator is never reported
as unknown, nor a token as one that cannot follow an expression.
-/
theorem compile_reports_first_offence
    (source : List Char) :
    (∀ error,
        tokenize source = .error error →
        (compiler.compile source).1 = .failed (.lexical error)) ∧
      ∀ tokens,
        tokenize source = .ok tokens →
        let compiled := (compiler.compile source).1
        compiled ≠ .aborted ∧
          (∀ error, compiled = .failed error ↔ Token.ReportsFirst source tokens error) ∧
            ∀ error : CompileError,
              compiled = .failed (.compile error) →
              error.problem.message ≠ "unexpected token after expression" ∧
                error.problem.message ≠ "unknown binary operator" := by
  refine ⟨fun error refused => by rw [compile, refused], ?_⟩
  intro tokens tokenized compiled
  have sameCompiled : compiled = (compiler.compileTokens source tokens).1 := by
    simp only [compiled, compile, tokenized]
  have placed : Placed tokens := Scanner.start_nonneg_of_tokensWithin tokenized
  rw [sameCompiled]
  refine ⟨(meets_compileTokens compiler source tokens placed).ne_aborted,
    compileTokens_eq_failed_iff compiler tokenized, ?_⟩
  intro error failed
  obtain ⟨before, token, after, _, _, reports⟩ :=
    (compileTokens_eq_failed_iff compiler tokenized _).mp failed
  cases reports with
  | @misplaced problem misplaced =>
      change problem.message ≠ _ ∧ problem.message ≠ _
      revert misplaced
      generalize problem.message = message
      rintro (_ | _ | _) <;> decide
  | tooMany =>
      change CompileProblem.tooManyConstants.message ≠ _ ∧
        CompileProblem.tooManyConstants.message ≠ _
      decide

/-- A group that is not closed and assigned to. -/
def assignedGroup : List Char :=
  "(1 == 2\n= 3".toList

theorem tokenize_assignedGroup :
    tokenize assignedGroup =
      .ok
        [⟨.leftParenthesis, 0, 1, 1⟩, ⟨.integer, 1, 2, 1⟩, ⟨.equal, 3, 2, 1⟩,
          ⟨.integer, 6, 2, 1⟩, ⟨.assign, 8, 1, 2⟩, ⟨.integer, 10, 2, 2⟩,
          ⟨.endOfInput, 11, 0, 2⟩] :=
  rfl

theorem compile_assignedGroup :
    (Compiler.new.compile assignedGroup).1 =
      .failed (.compile { line := 2, lexeme := ['='], problem := .assignmentTarget }) :=
  rfl

/-- The group is reported at the assignment; what cannot be read as tokens is reported as such. -/
theorem compile_reports_assignedGroup :
    (∃ tokens,
      tokenize assignedGroup = .ok tokens ∧
        Token.ReportsFirst assignedGroup tokens
          (.compile { line := 2, lexeme := ['='], problem := .assignmentTarget })) ∧
      (Compiler.new.compile [')', '$']).1 =
        .failed (.lexical { line := 1, offset := 1, problem := .unexpected '$' }) := by
  obtain ⟨_, reported⟩ := compile_reports_first_offence Compiler.new assignedGroup
  obtain ⟨_, reportedFirst, _⟩ := reported _ tokenize_assignedGroup
  obtain ⟨unreadable, _⟩ := compile_reports_first_offence Compiler.new [')', '$']
  exact ⟨⟨_, tokenize_assignedGroup, (reportedFirst _).mp compile_assignedGroup⟩,
    unreadable _ rfl⟩

end Compiler

end Reckon
