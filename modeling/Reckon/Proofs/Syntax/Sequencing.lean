import Reckon.Proofs.Syntax.Evaluation
import Reckon.Proofs.Token.Joining

namespace Reckon

/-!
# Programs behind each other

A program that stands behind others in a longer source has the same tree, with its tokens moved,
and the same value; if it fails, it does so on a line that is moved as well.  Statements behind
each other are evaluated in turn, so that the last of them give the value.
-/

namespace Outcome

variable {Failure Other Result Next : Type}

/-- Rewording the failures of two steps rewords those of each. -/
theorem mapFailure_bind
    (outcome : Outcome Failure Result)
    (next : Result → Outcome Failure Next)
    (change : Failure → Other) :
    (outcome >>= next).mapFailure change =
      outcome.mapFailure change >>= fun result => (next result).mapFailure change := by
  cases outcome <;> rfl

@[simp] theorem mapFailure_id
    (outcome : Outcome Failure Result) :
    outcome.mapFailure id = outcome := by
  cases outcome <;> rfl

end Outcome

namespace RuntimeError

/-- The error, so many lines further down. -/
def moved (lines : Int64) (error : RuntimeError) : RuntimeError :=
  { error with line := error.line + lines }

@[simp] theorem moved_zero :
    moved 0 = id := by
  funext error
  simp [moved]

end RuntimeError

namespace Token

/-- A literal keeps its value where its source stands in a longer one. -/
theorem literal?_moved
    {token : Token}
    {source text : List Char}
    (spans : token.Spans source text)
    (front behind : List Char)
    (lines : Int64) :
    (token.moved front.length lines).literal? (front ++ source ++ behind) =
      token.literal? source := by
  simp only [literal?, spans.text?_eq, (spans.moved front behind lines).text?_eq, number,
    kind_moved]
  cases Literal.decode token.kind text <;> rfl

/-- An operator that is moved fails at its moved line. -/
theorem apply_moved
    (offset : Nat)
    (lines : Int64)
    (operator : Token)
    (sign : Sign)
    (left right : Value) :
    (operator.moved offset lines).apply sign left right =
      (operator.apply sign left right).mapFailure (.moved lines) := by
  simp only [apply, line_moved]
  cases sign.operator.apply left right <;> rfl

end Token

namespace Expression

/-- The expression with its tokens moved. -/
def moved (offset : Nat) (lines : Int64) : Expression → Expression
  | .number token => .number (token.moved offset lines)
  | .group opening inner closing =>
      .group (opening.moved offset lines) (inner.moved offset lines) (closing.moved offset lines)
  | .binary left sign operator right =>
      .binary (left.moved offset lines) sign (operator.moved offset lines)
        (right.moved offset lines)

variable
  (offset : Nat)
  (lines : Int64)

/-- Moving an expression moves its literals. -/
theorem literals_moved
    (expression : Expression) :
    (expression.moved offset lines).literals =
      expression.literals.map (·.moved offset lines) := by
  induction expression with
  | number _ =>
      rfl
  | group _ _ _ inductionHypothesis =>
      exact inductionHypothesis
  | binary _ _ _ _ leftHypothesis rightHypothesis =>
      rw [moved, literals, literals, leftHypothesis, rightHypothesis, List.map_append]

theorem last_moved
    (expression : Expression) :
    (expression.moved offset lines).last = expression.last.moved offset lines := by
  induction expression with
  | number _ =>
      rfl
  | group _ _ _ _ =>
      rfl
  | binary _ _ _ _ _ rightHypothesis =>
      exact rightHypothesis

/-- Moved tokens derive as the moved expression. -/
theorem Derives.moved
    {level : BindingLevel}
    {tokens : List Token}
    {expression : Expression}
    (derived : Derives level tokens expression) :
    Derives level (tokens.map (·.moved offset lines)) (expression.moved offset lines) := by
  induction derived with
  | number isNumber =>
      exact .number isNumber
  | group opens _ closes inductionHypothesis =>
      rw [List.cons_append, List.map_cons, List.map_append]
      exact .group opens inductionHypothesis closes
  | operand _ inductionHypothesis =>
      exact .operand inductionHypothesis
  | binary _ shows joins _ leftHypothesis rightHypothesis =>
      rw [List.map_append, List.map_cons]
      exact .binary leftHypothesis shows joins rightHypothesis

/-- A moved expression has the same value, or fails as many lines further down. -/
theorem evaluate_moved
    {source : List Char}
    {expression : Expression}
    (spanned : ∀ token ∈ expression.literals, ∃ text, token.Spans source text)
    (front behind : List Char) :
    (expression.moved front.length lines).evaluate (front ++ source ++ behind) =
      (expression.evaluate source).mapFailure (.moved lines) := by
  induction expression with
  | number token =>
      obtain ⟨text, spans⟩ := spanned token (List.mem_singleton_self token)
      simp only [moved, evaluate, Token.evaluate, Token.literal?_moved spans]
      cases token.literal? source <;> rfl
  | group _ _ _ inductionHypothesis =>
      exact inductionHypothesis spanned
  | binary left sign operator right leftHypothesis rightHypothesis =>
      have leftMoved :=
        leftHypothesis fun token member => spanned token (by simp [literals, member])
      have rightMoved :=
        rightHypothesis fun token member => spanned token (by simp [literals, member])
      simp only [moved, evaluate, leftMoved, rightMoved, Token.apply_moved,
        Outcome.mapFailure_bind]

end Expression

namespace Statement

/-- The statement with its tokens moved. -/
def moved (offset : Nat) (lines : Int64) : Statement → Statement
  | .expression value => .expression (value.moved offset lines)
  | .assertion word condition =>
      .assertion (word.moved offset lines) (condition.moved offset lines)

variable
  (offset : Nat)
  (lines : Int64)

theorem body_moved
    (statement : Statement) :
    (statement.moved offset lines).body = statement.body.moved offset lines := by
  cases statement <;> rfl

/-- Moved tokens derive the moved statement. -/
theorem Derives.moved
    {tokens : List Token}
    {statement : Statement}
    (derived : Derives tokens statement) :
    Derives (tokens.map (·.moved offset lines)) (statement.moved offset lines) := by
  cases derived with
  | expression derived =>
      exact .expression (derived.moved offset lines)
  | assertion asserts derived =>
      exact .assertion asserts (derived.moved offset lines)

/-- A statement that is moved fails at its moved line. -/
theorem conclude_moved
    (statement : Statement)
    (value : Value) :
    (statement.moved offset lines).conclude value =
      (statement.conclude value).mapFailure (.moved lines) := by
  cases statement with
  | expression _ =>
      rfl
  | assertion word condition =>
      simp only [moved, conclude, Expression.last_moved, Value.requireTrue, Token.line_moved]
      split <;> rfl

/-- A moved statement has the same value, or fails as many lines further down. -/
theorem evaluate_moved
    {source : List Char}
    {statement : Statement}
    (spanned : ∀ token ∈ statement.body.literals, ∃ text, token.Spans source text)
    (front behind : List Char) :
    (statement.moved front.length lines).evaluate (front ++ source ++ behind) =
      (statement.evaluate source).mapFailure (.moved lines) := by
  simp only [evaluate, body_moved, Expression.evaluate_moved lines spanned, conclude_moved,
    Outcome.mapFailure_bind]

end Statement

namespace Script

/-- The program with its tokens moved. -/
def moved (offset : Nat) (lines : Int64) (script : Script) : Script :=
  script.map (·.moved offset lines)

/-- The literals of a program are those of its parts, one behind the other. -/
theorem literals_append
    (first second : Script) :
    literals (first ++ second) = literals first ++ literals second :=
  List.flatMap_append

/-- There are tokens in each statement. -/
theorem eq_nil_of_derives_nil
    {script : Script}
    (derived : Derives [] script) :
    script = [] := by
  generalize tokensShape : ([] : List Token) = tokens at derived
  cases derived with
  | nil =>
      rfl
  | cons first _ =>
      obtain ⟨token, rest, statementShape, _⟩ := first.exists_cons
      rw [statementShape] at tokensShape
      cases tokensShape

/-- Programs behind each other derive as one program. -/
theorem Derives.append
    {firstTokens secondTokens : List Token}
    {first second : Script}
    (firstDerived : Derives firstTokens first)
    (secondDerived : Derives secondTokens second) :
    Derives (firstTokens ++ secondTokens) (first ++ second) := by
  induction firstDerived with
  | nil =>
      exact secondDerived
  | cons statement _ inductionHypothesis =>
      rw [List.append_assoc]
      exact .cons statement inductionHypothesis

section Moving

variable
  (offset : Nat)
  (lines : Int64)

/-- Moving a program moves its literals. -/
theorem literals_moved
    (script : Script) :
    literals (script.moved offset lines) = (literals script).map (·.moved offset lines) := by
  simp only [literals, moved, List.flatMap_map, List.map_flatMap, Statement.body_moved,
    Expression.literals_moved]

/-- Moving a program does not change how it ends. -/
theorem endsInExpression_moved
    (script : Script) :
    endsInExpression (script.moved offset lines) = endsInExpression script := by
  simp only [endsInExpression, moved, List.getLast?_map]
  cases script.getLast? with
  | none =>
      rfl
  | some statement =>
      cases statement <;> rfl

/-- Moved tokens derive the moved program. -/
theorem Derives.moved
    {tokens : List Token}
    {script : Script}
    (derived : Derives tokens script) :
    Derives (tokens.map (·.moved offset lines)) (script.moved offset lines) := by
  induction derived with
  | nil =>
      exact .nil
  | cons first _ inductionHypothesis =>
      rw [List.map_append]
      exact .cons (first.moved offset lines) inductionHypothesis

/-- A program that is moved along with its source ends as it did, but for the lines of errors. -/
theorem evaluateAll_moved
    {source : List Char}
    {script : Script}
    (spanned : ∀ token ∈ literals script, ∃ text, token.Spans source text)
    (front behind : List Char) :
    evaluateAll (front ++ source ++ behind) (script.moved front.length lines) =
      (evaluateAll source script).mapFailure (.moved lines) := by
  unfold evaluateAll
  generalize Value.bool true = initial
  induction script generalizing initial with
  | nil =>
      rfl
  | cons first rest inductionHypothesis =>
      have firstMoved :=
        @Statement.evaluate_moved lines source first
          (fun token member => spanned token (by simp [literals, member])) front behind
      have restMoved :=
        inductionHypothesis fun token member => spanned token (by simp_all [literals])
      rw [moved, List.map_cons, List.foldlM_cons, List.foldlM_cons, Outcome.mapFailure_bind,
        firstMoved]
      exact bind_congr restMoved

/-- A moved program has the same value, or fails as many lines further down. -/
theorem evaluate_moved
    {source : List Char}
    {script : Script}
    (spanned : ∀ token ∈ literals script, ∃ text, token.Spans source text)
    (front behind : List Char) :
    evaluate (front ++ source ++ behind) (script.moved front.length lines) =
      (evaluate source script).mapFailure (.moved lines) := by
  simp only [evaluate, evaluateAll_moved lines spanned, endsInExpression_moved,
    Outcome.mapFailure_bind]
  refine bind_congr fun value => ?_
  split <;> rfl

end Moving

/-- The value of statements does not depend on one that was there before. -/
theorem evaluateAll_of_ne_nil
    (source : List Char)
    {script : Script}
    (present : script ≠ [])
    (initial : Value) :
    script.foldlM (fun _ statement => statement.evaluate source) initial =
      evaluateAll source script := by
  cases script with
  | nil =>
      exact (present rfl).elim
  | cons first rest =>
      rfl

/-- Statements behind a program give the value, once the program has been evaluated. -/
theorem evaluate_append
    (source : List Char)
    (first : Script)
    {second : Script}
    (present : second ≠ []) :
    evaluate source (first ++ second) =
      evaluate source first >>= fun _ => evaluate source second := by
  have ends : endsInExpression (first ++ second) = endsInExpression second := by
    rw [endsInExpression, endsInExpression, List.getLast?_append,
      List.getLast?_eq_some_getLast present, Option.some_or]
  have all :
      evaluateAll source (first ++ second) =
        evaluateAll source first >>= fun _ => evaluateAll source second := by
    rw [evaluateAll, List.foldlM_append]
    exact bind_congr fun value => evaluateAll_of_ne_nil source present value
  simp only [evaluate, ends, all, bind_assoc]
  refine bind_congr fun value => ?_
  cases endsInExpression first <;> rfl

end Script

end Reckon
