import Reckon.Proofs.Compiler.Programs
import Reckon.Proofs.Syntax.Sequencing

namespace Reckon

/-!
# Beginnings of programs

Tokens are viable when some program goes on behind them.  How tightly operators bind does not
matter for that: it is told by a `Stage`, which counts the open parentheses and knows whether an
operand has to come next.  `Stage.isSome_run_iff_viable` says that the stages are exact.
-/

/-- Some program with the end of the input behind it begins with the tokens. -/
def Viable (tokens : List Token) : Prop :=
  ∃ program script ending,
    Script.Derives program script ∧
      ending.kind = .endOfInput ∧ tokens <+: program ++ [ending]

/-- The tokens end with a complete expression. -/
def BehindExpression (tokens : List Token) : Prop :=
  ∃ before inner expression,
    tokens = before ++ inner ∧ Expression.Derives .equality inner expression

/-- The tokens end with a complete expression, before which a parenthesis is still open. -/
def BehindOpenExpression (tokens : List Token) : Prop :=
  ∃ before opening inner expression,
    tokens = before ++ opening :: inner ∧
      opening.kind = .leftParenthesis ∧ Expression.Derives .equality inner expression

/-- An expression inside a group is an expression. -/
theorem BehindOpenExpression.behindExpression
    {tokens : List Token}
    (behind : BehindOpenExpression tokens) :
    BehindExpression tokens := by
  obtain ⟨before, opening, inner, expression, rfl, _, derived⟩ := behind
  exact ⟨before ++ [opening], inner, expression, by simp, derived⟩

/--
Where a program stands behind some tokens: at its start, before an operand or behind one with so
many parentheses open, or at its end.
-/
inductive Stage where
  | start
  | operand (depth : Nat)
  | behind (depth : Nat)
  | ended
  deriving Repr, DecidableEq

namespace Stage

/-- What follows a token that has to begin an operand. -/
def opened (depth : Nat) (kind : TokenKind) : Option Stage :=
  if kind.isNumber then
    some (.behind depth)
  else if kind = .leftParenthesis then
    some (.operand (depth + 1))
  else
    none

/-- What follows a token that has to begin a statement or to end the input. -/
def begun (kind : TokenKind) : Option Stage :=
  if kind = .assertWord then
    some (.operand 0)
  else if kind = .endOfInput then
    some .ended
  else
    opened 0 kind

/-- What follows a token, if it can stand here. -/
def next : Stage → TokenKind → Option Stage
  | .start, kind => begun kind
  | .operand depth, kind => opened depth kind
  | .behind depth, kind =>
      if 0 < kind.rule.precedence.rank then
        some (.operand depth)
      else
        match depth with
        | 0 => begun kind
        | depth + 1 => if kind = .rightParenthesis then some (.behind depth) else none
  | .ended, _ => none

/-- Where a program stands some tokens further on, if they can stand here. -/
def run (stage : Stage) (tokens : List Token) : Option Stage :=
  tokens.foldlM (fun stage token => stage.next token.kind) stage

@[simp] theorem run_nil
    (stage : Stage) :
    stage.run [] = some stage :=
  rfl

theorem run_cons
    (stage : Stage)
    (token : Token)
    (tokens : List Token) :
    stage.run (token :: tokens) = (stage.next token.kind).bind (·.run tokens) :=
  rfl

/-- Tokens pass if they do one part after the other. -/
theorem run_append
    (stage : Stage)
    (tokens more : List Token) :
    stage.run (tokens ++ more) = (stage.run tokens).bind (·.run more) :=
  List.foldlM_append

/-- The last token passes from the stage that the others led to. -/
theorem run_concat
    {stage before : Stage}
    {tokens : List Token}
    (ran : stage.run tokens = some before)
    (token : Token) :
    stage.run (tokens ++ [token]) = before.next token.kind := by
  rw [run_append, ran, Option.bind_some, run_cons]
  cases before.next token.kind <;> rfl

/-- How many parentheses are open where an operand can come next. -/
def operandDepth? : Stage → Option Nat
  | .start => some 0
  | .operand depth => some depth
  | .behind 0 => some 0
  | .behind (_ + 1) | .ended => none

/-! ### Derivations pass through the stages -/

section Derivations

variable
  {stage : Stage}
  {depth : Nat}
  {kind : TokenKind}

/-- A number is an operand wherever one is expected. -/
theorem next_of_isNumber
    (opens : stage.operandDepth? = some depth)
    (isNumber : kind.isNumber = true) :
    stage.next kind = some (.behind depth) := by
  cases kind with
  | integer | float | complex =>
      match stage, opens with
      | .start, rfl | .operand _, rfl | .behind 0, rfl => rfl
  | _ =>
      cases isNumber

/-- A group begins wherever an operand is expected, one level deeper. -/
theorem next_leftParenthesis
    (opens : stage.operandDepth? = some depth) :
    stage.next .leftParenthesis = some (.operand (depth + 1)) := by
  match stage, opens with
  | .start, rfl | .operand _, rfl | .behind 0, rfl => rfl

/-- A token that begins an operand stands only where an operand can come next. -/
theorem exists_operandDepth?
    {after : Stage}
    (starts : kind.isNumber = true ∨ kind = .leftParenthesis)
    (stepped : stage.next kind = some after) :
    ∃ depth, stage.operandDepth? = some depth := by
  have idle : ¬ 0 < kind.rule.precedence.rank := by
    have fresh :=
      TokenKind.idle_of_starts (starts.imp_right Or.inl)
    omega
  match stage with
  | .start | .operand _ | .behind 0 => exact ⟨_, rfl⟩
  | .behind (inside + 1) =>
      simp only [next, idle, ↓reduceIte] at stepped
      split at stepped
      next closes =>
        rw [closes] at starts
        simp [TokenKind.isNumber] at starts
      next =>
        cases stepped
  | .ended => cases stepped

/-- An operator behind an operand asks for another one. -/
theorem next_sign
    (sign : Sign) :
    (Stage.behind depth).next sign.kind = some (.operand depth) := by
  cases sign <;> rfl

/-- An expression is passed at the depth at which it starts. -/
theorem run_expression
    {level : BindingLevel}
    {tokens : List Token}
    {expression : Expression}
    (derived : Expression.Derives level tokens expression)
    (opens : stage.operandDepth? = some depth) :
    stage.run tokens = some (.behind depth) := by
  induction derived generalizing stage depth with
  | number isNumber =>
      rw [run_cons, next_of_isNumber opens isNumber]
      rfl
  | @group opening closing tokens inner parenthesis _ closes inductionHypothesis =>
      have inside : (Stage.operand (depth + 1)).run tokens = some (.behind (depth + 1)) :=
        inductionHypothesis rfl
      rw [List.cons_append, run_cons, parenthesis, next_leftParenthesis opens,
        Option.bind_some, run_concat inside, closes]
      rfl
  | operand _ inductionHypothesis =>
      exact inductionHypothesis opens
  | @binary _ leftTokens rightTokens _ _ sign operator _ shows _ _ leftHypothesis
      rightHypothesis =>
      rw [run_append, leftHypothesis opens, Option.bind_some, run_cons, shows, next_sign,
        Option.bind_some]
      exact rightHypothesis rfl

/-- Statements begin at the start and behind statements. -/
def Begins (stage : Stage) : Prop :=
  stage = .start ∨ stage = .behind 0

/-- At the beginning of a statement, an operand is expected outside of groups. -/
theorem Begins.operandDepth?_eq
    (begins : stage.Begins) :
    stage.operandDepth? = some 0 := by
  rcases begins with rfl | rfl <;> rfl

/-- A token that continues nothing begins a statement. -/
theorem Begins.next_eq_begun
    (begins : stage.Begins)
    (idle : kind.rule.precedence.rank = 0) :
    stage.next kind = begun kind := by
  rcases begins with rfl | rfl
  · rfl
  · simp [next, idle]

/-- The tokens of a statement pass, and lead behind its expression. -/
theorem run_statement
    {tokens : List Token}
    {statement : Statement}
    (derived : Statement.Derives tokens statement)
    (begins : stage.Begins) :
    stage.run tokens = some (.behind 0) := by
  cases derived with
  | expression derived =>
      exact run_expression derived begins.operandDepth?_eq
  | assertion asserts derived =>
      rw [run_cons, begins.next_eq_begun (by rw [asserts]; rfl), asserts]
      exact run_expression derived rfl

/-- A program is passed up to where another statement may begin. -/
theorem exists_run_script
    {tokens : List Token}
    {script : Script}
    (derived : Script.Derives tokens script)
    (begins : stage.Begins) :
    ∃ after : Stage, after.Begins ∧ stage.run tokens = some after := by
  induction derived generalizing stage with
  | nil =>
      exact ⟨stage, begins, rfl⟩
  | cons first _ inductionHypothesis =>
      obtain ⟨after, afterBegins, ran⟩ := inductionHypothesis (Or.inr rfl)
      exact ⟨after, afterBegins, by
        rw [run_append, run_statement first begins, Option.bind_some, ran]⟩

end Derivations

end Stage

/-! ### What was read up to a stage -/

namespace Expression

/-- Tokens that every primary expression completes to an expression. -/
def IsLacking (tokens : List Token) : Prop :=
  ∀ operand expression,
    Derives .primary operand expression →
      ∃ whole, Derives .equality (tokens ++ operand) whole

section Joining

variable
  {sign : Sign}
  {operator : Token}
  (shows : operator.kind = sign.kind)
  {operand : List Token}
  {right : Expression}
  (operandDerived : Derives .primary operand right)

include shows operandDerived

/-- A sign takes an expression that binds as tightly as its level for its left operand. -/
theorem Derives.exists_join_of_le
    {level target : BindingLevel}
    {tokens : List Token}
    {expression : Expression}
    (derived : Derives level tokens expression)
    (tight : sign.level.rank ≤ level.rank)
    (loose : target.rank ≤ sign.level.rank) :
    ∃ whole, Derives target (tokens ++ operator :: operand) whole := by
  have joined :=
    Derives.binary (derived.loosen tight) shows rfl
      (operandDerived.loosen sign.level.tighter.rank_le_primary)
  exact ⟨_, joined.loosen loose⟩

/--
A sign and a primary expression continue any expression.  The sign takes as its left operand as
much of the expression as binds tightly enough, so the induction goes down the right side of the
tree to where it does.
-/
theorem Derives.exists_join
    {level : BindingLevel}
    {tokens : List Token}
    {expression : Expression}
    (derived : Derives level tokens expression)
    {target : BindingLevel}
    (targetLoose : target.rank ≤ level.rank)
    (targetLooser : target.rank ≤ sign.level.rank) :
    ∃ whole, Derives target (tokens ++ operator :: operand) whole := by
  induction derived generalizing target with
  | number isNumber =>
      exact Derives.exists_join_of_le shows operandDerived (.number isNumber)
        sign.level.rank_le_primary targetLooser
  | group opens inside closes _ =>
      exact Derives.exists_join_of_le shows operandDerived (.group opens inside closes)
        sign.level.rank_le_primary targetLooser
  | @operand level _ _ _ inductionHypothesis =>
      exact inductionHypothesis (Int.le_trans targetLoose level.rank_le_tighter) targetLooser
  | @binary level leftTokens rightTokens left _ inner innerOperator leftDerived innerShows
      joins rightDerived _ rightHypothesis =>
      by_cases tight : sign.level.rank ≤ level.rank
      · exact Derives.exists_join_of_le shows operandDerived
          (.binary leftDerived innerShows joins rightDerived) tight targetLooser
      · have stepsUp : level.tighter.rank = level.rank + 1 :=
          BindingLevel.rank_tighter (joins ▸ inner.level_ne_primary)
        obtain ⟨longer, longerDerived⟩ :=
          @rightHypothesis level.tighter (Int.le_refl _) (by omega)
        have whole := Derives.binary leftDerived innerShows joins longerDerived
        rw [List.append_assoc, List.cons_append]
        exact ⟨_, whole.loosen targetLoose⟩

end Joining

theorem isLacking_nil :
    IsLacking [] :=
  fun _ _ derived => ⟨_, derived.loosen (BindingLevel.rank_le_primary _)⟩

/-- Behind an operator, an operand is lacking. -/
theorem isLacking_operator
    {tokens : List Token}
    {expression : Expression}
    (derived : Derives .equality tokens expression)
    {sign : Sign}
    {operator : Token}
    (shows : operator.kind = sign.kind) :
    IsLacking (tokens ++ [operator]) := by
  intro operand right operandDerived
  rw [List.append_assoc, List.singleton_append]
  exact Derives.exists_join shows operandDerived derived (Int.le_refl _)
    (by cases sign <;> decide)

end Expression

namespace Script

/-- The tokens of a program up to where an expression starts with so many parentheses open. -/
inductive Opened : Nat → List Token → Prop where
  | statement
      {tokens : List Token}
      {script : Script}
      (derived : Derives tokens script) :
      Opened 0 tokens
  | assertion
      {tokens : List Token}
      {script : Script}
      {word : Token}
      (derived : Derives tokens script)
      (asserts : word.kind = .assertWord) :
      Opened 0 (tokens ++ [word])
  | group
      {depth : Nat}
      {tokens lacking : List Token}
      {opening : Token}
      (outer : Opened depth tokens)
      (lacks : Expression.IsLacking lacking)
      (opens : opening.kind = .leftParenthesis) :
      Opened (depth + 1) (tokens ++ lacking ++ [opening])

section Completion

variable
  {depth : Nat}
  {tokens inner : List Token}
  {expression : Expression}
  (derived : Expression.Derives .equality inner expression)

include derived

/-- An expression outside of parentheses ends its statement. -/
theorem Opened.exists_script
    (opened : Opened 0 tokens) :
    ∃ script, Derives (tokens ++ inner) script := by
  cases opened with
  | statement before =>
      have last := Derives.cons (.expression derived) .nil
      rw [List.append_nil] at last
      exact ⟨_, before.append last⟩
  | assertion before asserts =>
      have last := Derives.cons (.assertion asserts derived) .nil
      rw [List.append_nil] at last
      rw [List.append_assoc, List.singleton_append]
      exact ⟨_, before.append last⟩

/-- A parenthesis behind an expression closes the innermost group. -/
theorem Opened.exists_group
    (opened : Opened (depth + 1) tokens)
    {closing : Token}
    (closes : closing.kind = .rightParenthesis) :
    ∃ before group whole,
      tokens ++ inner ++ [closing] = before ++ group ∧
        Opened depth before ∧ Expression.Derives .equality group whole := by
  cases opened with
  | @group _ before lacking opening outer lacks opens =>
      obtain ⟨whole, wholeDerived⟩ := lacks _ _ (.group opens derived closes)
      exact ⟨before, _, whole, by simp, outer, wholeDerived⟩

end Completion

/-- All parentheses can be closed behind an expression. -/
theorem Opened.exists_completion
    {depth : Nat}
    {tokens : List Token}
    (opened : Opened depth tokens)
    {inner : List Token}
    {expression : Expression}
    (derived : Expression.Derives .equality inner expression) :
    ∃ closing script, Derives (tokens ++ inner ++ closing) script := by
  induction depth generalizing tokens inner expression with
  | zero =>
      obtain ⟨script, scriptDerived⟩ := opened.exists_script derived
      exact ⟨[], script, by rwa [List.append_nil]⟩
  | succ depth inductionHypothesis =>
      let parenthesis : Token := ⟨.rightParenthesis, 0, 0, 0⟩
      obtain ⟨before, group, whole, shape, outer, wholeDerived⟩ :=
        @opened.exists_group _ _ _ _ derived parenthesis rfl
      obtain ⟨closing, script, scriptDerived⟩ := inductionHypothesis outer wholeDerived
      refine ⟨parenthesis :: closing, script, ?_⟩
      rwa [← shape, List.append_assoc _ [parenthesis], List.singleton_append] at scriptDerived

end Script

namespace Stage

/-- The tokens that were read when a program stands at a stage. -/
def Describes : Stage → List Token → Prop
  | .start, tokens => tokens = []
  | .operand depth, tokens =>
      ∃ before lacking,
        tokens = before ++ lacking ∧
          Script.Opened depth before ∧ Expression.IsLacking lacking
  | .behind depth, tokens =>
      ∃ before inner expression,
        tokens = before ++ inner ∧
          Script.Opened depth before ∧ Expression.Derives .equality inner expression
  | .ended, tokens =>
      ∃ program script ending,
        tokens = program ++ [ending] ∧
          Script.Derives program script ∧ ending.kind = .endOfInput

section Steps

variable
  {after : Stage}
  {tokens : List Token}
  {token : Token}

/-- Where an operand is lacking, a token that begins one is described. -/
theorem describes_opened
    {depth : Nat}
    {before lacking : List Token}
    (outer : Script.Opened depth before)
    (lacks : Expression.IsLacking lacking)
    (stepped : opened depth token.kind = some after) :
    after.Describes (before ++ lacking ++ [token]) := by
  unfold opened at stepped
  split at stepped
  next isNumber =>
    cases stepped
    obtain ⟨whole, derived⟩ := lacks _ _ (.number isNumber)
    exact ⟨before, lacking ++ [token], whole, List.append_assoc .., outer, derived⟩
  next =>
    split at stepped
    next opens =>
      cases stepped
      exact ⟨before ++ lacking ++ [token], [], by simp, .group outer lacks opens,
        Expression.isLacking_nil⟩
    next =>
      cases stepped

/-- Behind a program, a token that begins a statement or ends the input is described. -/
theorem describes_begun
    {script : Script}
    (derived : Script.Derives tokens script)
    (stepped : begun token.kind = some after) :
    after.Describes (tokens ++ [token]) := by
  unfold begun at stepped
  split at stepped
  next asserts =>
    cases stepped
    exact ⟨tokens ++ [token], [], by simp, .assertion derived asserts,
      Expression.isLacking_nil⟩
  next =>
    split at stepped
    next ends =>
      cases stepped
      exact ⟨tokens, script, token, rfl, derived, ends⟩
    next =>
      simpa using describes_opened (.statement derived) Expression.isLacking_nil stepped

/-- One more token is described by the stage behind it. -/
theorem Describes.next
    {stage : Stage}
    (described : stage.Describes tokens)
    (stepped : stage.next token.kind = some after) :
    after.Describes (tokens ++ [token]) := by
  cases stage with
  | start =>
      subst described
      exact describes_begun .nil stepped
  | operand depth =>
      obtain ⟨before, lacking, rfl, outer, lacks⟩ := described
      exact describes_opened outer lacks stepped
  | behind depth =>
      obtain ⟨before, inner, expression, rfl, outer, derived⟩ := described
      simp only [Stage.next] at stepped
      split at stepped
      next binds =>
        cases stepped
        obtain ⟨sign, shows⟩ := TokenKind.exists_sign_of_binds binds
        exact ⟨before, inner ++ [token], List.append_assoc .., outer,
          Expression.isLacking_operator derived shows⟩
      next =>
        cases depth with
        | zero =>
            obtain ⟨script, scriptDerived⟩ := outer.exists_script derived
            exact describes_begun scriptDerived stepped
        | succ depth =>
            simp only at stepped
            split at stepped
            next closes =>
              cases stepped
              exact outer.exists_group derived closes
            next =>
              cases stepped
  | ended =>
      cases stepped

/-- The stage that tokens lead to describes them. -/
theorem Describes.run
    {stage : Stage}
    {more : List Token}
    (described : stage.Describes tokens)
    (ran : stage.run more = some after) :
    after.Describes (tokens ++ more) := by
  induction more generalizing stage tokens with
  | nil =>
      cases ran
      rwa [List.append_nil]
  | cons token rest inductionHypothesis =>
      rw [run_cons] at ran
      obtain ⟨middle, stepped, restRan⟩ := Option.bind_eq_some_iff.mp ran
      have read := inductionHypothesis (described.next stepped) restRan
      rwa [List.append_assoc, List.singleton_append] at read

end Steps

/-- Tokens that are described can be completed to a program with the end behind it. -/
theorem Describes.viable
    {stage : Stage}
    {tokens : List Token}
    (described : stage.Describes tokens) :
    Viable tokens := by
  let ending : Token := ⟨.endOfInput, 0, 0, 0⟩
  cases stage with
  | start =>
      subst described
      exact ⟨[], [], ending, .nil, rfl, List.nil_prefix⟩
  | operand depth =>
      obtain ⟨before, lacking, rfl, outer, lacks⟩ := described
      obtain ⟨whole, derived⟩ := lacks [⟨.integer, 0, 0, 0⟩] _ (.number rfl)
      obtain ⟨closing, script, scriptDerived⟩ := outer.exists_completion derived
      exact ⟨_, script, ending, scriptDerived, rfl, by simp⟩
  | behind depth =>
      obtain ⟨before, inner, expression, rfl, outer, derived⟩ := described
      obtain ⟨closing, script, scriptDerived⟩ := outer.exists_completion derived
      exact ⟨_, script, ending, scriptDerived, rfl, by simp⟩
  | ended =>
      obtain ⟨program, script, ending, rfl, derived, ends⟩ := described
      exact ⟨program, script, ending, derived, ends, List.prefix_refl _⟩

/-- Tokens are viable exactly when they pass through the stages. -/
theorem isSome_run_iff_viable
    {tokens : List Token} :
    (start.run tokens).isSome = true ↔ Viable tokens := by
  constructor
  · intro passes
    obtain ⟨stage, ran⟩ := Option.isSome_iff_exists.mp passes
    have described : start.Describes [] := rfl
    simpa using (described.run ran).viable
  · rintro ⟨program, script, ending, derived, ends, rest, shape⟩
    obtain ⟨after, begins, ran⟩ := exists_run_script derived (Or.inl rfl)
    have passed : start.run (tokens ++ rest) = some .ended := by
      rw [shape, run_concat ran, begins.next_eq_begun (by rw [ends]; rfl), ends]
      rfl
    rw [run_append] at passed
    obtain ⟨middle, here, _⟩ := Option.bind_eq_some_iff.mp passed
    rw [here]
    rfl

section Places

variable
  {stage : Stage}
  {tokens : List Token}
  (ran : start.run tokens = some stage)

include ran

/-- A token is refused exactly when it makes the tokens inviable. -/
theorem next_eq_none_iff
    (token : Token) :
    stage.next token.kind = none ↔ ¬ Viable (tokens ++ [token]) := by
  rw [← isSome_run_iff_viable, run_concat ran]
  cases stage.next token.kind <;> simp

/-- Behind a complete expression, the stage is behind an operand. -/
theorem exists_eq_behind
    (behind : BehindExpression tokens) :
    ∃ depth, stage = .behind depth := by
  obtain ⟨before, inner, expression, rfl, derived⟩ := behind
  rw [run_append] at ran
  obtain ⟨middle, _, innerRan⟩ := Option.bind_eq_some_iff.mp ran
  obtain ⟨first, rest, innerShape, starts⟩ := derived.exists_cons
  obtain ⟨depth, opens⟩ : ∃ depth, middle.operandDepth? = some depth := by
    rw [innerShape, run_cons] at innerRan
    obtain ⟨after, stepped, _⟩ := Option.bind_eq_some_iff.mp innerRan
    exact exists_operandDepth? starts stepped
  rw [run_expression derived opens] at innerRan
  exact ⟨depth, (Option.some.inj innerRan).symm⟩

/-- With a parenthesis open before the expression, the stage counts it. -/
theorem exists_eq_behind_succ
    (behind : BehindOpenExpression tokens) :
    ∃ depth, stage = .behind (depth + 1) := by
  obtain ⟨before, opening, inner, expression, rfl, parenthesis, derived⟩ := behind
  rw [run_append] at ran
  obtain ⟨middle, _, innerRan⟩ := Option.bind_eq_some_iff.mp ran
  rw [run_cons, parenthesis] at innerRan
  obtain ⟨inside, stepped, innerRan⟩ := Option.bind_eq_some_iff.mp innerRan
  obtain ⟨depth, opens⟩ := exists_operandDepth? (Or.inr rfl) stepped
  rw [next_leftParenthesis opens] at stepped
  obtain rfl := Option.some.inj stepped
  rw [run_expression derived rfl] at innerRan
  exact ⟨depth, (Option.some.inj innerRan).symm⟩

end Places

/-- Behind an operand, the tokens end with a complete expression. -/
theorem behindExpression_of_run
    {tokens : List Token}
    {depth : Nat}
    (ran : start.run tokens = some (.behind depth)) :
    BehindExpression tokens := by
  have described : start.Describes [] := rfl
  obtain ⟨before, inner, expression, shape, _, derived⟩ := described.run ran
  exact ⟨before, inner, expression, shape, derived⟩

/-- A stage behind an operand inside groups is reached by an expression inside a group. -/
theorem behindOpenExpression_of_run
    {tokens : List Token}
    {depth : Nat}
    (ran : start.run tokens = some (.behind (depth + 1))) :
    BehindOpenExpression tokens := by
  have described : start.Describes [] := rfl
  obtain ⟨before, inner, expression, shape, outer, derived⟩ := described.run ran
  cases outer with
  | @group _ earlier lacking opening _ _ opens =>
      exact ⟨earlier ++ lacking, opening, inner, expression, by simpa using shape, opens,
        derived⟩

end Stage

end Reckon
