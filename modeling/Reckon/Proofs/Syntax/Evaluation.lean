import Reckon.Machine.Fault
import Reckon.Proofs.Outcome
import Reckon.Proofs.Syntax.Postfix

namespace Reckon

/-!
# The meaning of programs

`Script.evaluate` gives the value of a program from its tree alone: operands from left to right,
then their operator, and no further than the first failure.  `Script.evaluateWithin` does the same
where only so many values may wait at a time, and agrees with it as soon as there is room for as
many as the program needs.
-/

namespace Sign

/-- The operator that a sign stands for. -/
def operator : Sign → Operator
  | .equal => .equal
  | .notEqual => .notEqual
  | .less => .less
  | .lessEqual => .lessEqual
  | .greater => .greater
  | .greaterEqual => .greaterEqual
  | .plus => .add
  | .minus => .subtract
  | .star => .multiply
  | .slash => .divide
  | .slashSlash => .quotient
  | .starStar => .power

end Sign

namespace RuntimeError

/-- A fault on a line of a program. -/
def inScript (line : Int64) (fault : Fault) : RuntimeError :=
  { line := line, function := Function.scriptName, fault := fault }

end RuntimeError

namespace Token

/-- The value of a literal; a lexeme that is no number has none. -/
def evaluate (source : List Char) (token : Token) : Outcome RuntimeError Value :=
  match token.literal? source with
  | some value => .done value
  | none => .aborted

/-- Apply the operator of a sign that stands at a token. -/
def apply (operator : Token) (sign : Sign) (left right : Value) : Outcome RuntimeError Value :=
  (sign.operator.apply left right).mapFailure fun fault =>
    .inScript operator.line (.arithmetic fault)

end Token

namespace Expression

/-- The value of an expression. -/
def evaluate (source : List Char) : Expression → Outcome RuntimeError Value
  | .number token => token.evaluate source
  | .group _ inner _ => inner.evaluate source
  | .binary left sign operator right => do
      let leftValue ← left.evaluate source
      let rightValue ← right.evaluate source
      operator.apply sign leftValue rightValue

/-- The value of an expression with room for so many values on a stack of a limited size. -/
def evaluateWithin
    (source : List Char)
    (limit : Int64) :
    Nat → Expression → Outcome RuntimeError Value
  | 0, .number token => .failed (.inScript token.line (.stackFull limit))
  | _ + 1, .number token => token.evaluate source
  | room, .group _ inner _ => inner.evaluateWithin source limit room
  | room, .binary left sign operator right => do
      let leftValue ← left.evaluateWithin source limit room
      let rightValue ← right.evaluateWithin source limit (room - 1)
      operator.apply sign leftValue rightValue

/-- How many values wait at most while an expression is evaluated, its own one among them. -/
def need : Expression → Nat
  | .number _ => 1
  | .group _ inner _ => inner.need
  | .binary left _ _ right => max left.need (1 + right.need)

/-- Every expression needs room for its value. -/
theorem need_pos
    (expression : Expression) :
    0 < expression.need := by
  induction expression with
  | number _ =>
      exact Nat.one_pos
  | group _ _ _ inductionHypothesis =>
      exact inductionHypothesis
  | binary _ _ _ _ leftHypothesis _ =>
      simp only [need]
      omega

/-- Only literals need room. -/
theorem need_le_length_literals
    (expression : Expression) :
    expression.need ≤ expression.literals.length := by
  induction expression with
  | number _ =>
      exact Nat.le_refl 1
  | group _ _ _ inductionHypothesis =>
      exact inductionHypothesis
  | binary left _ _ right leftHypothesis rightHypothesis =>
      have leftPositive := left.need_pos
      simp only [need, literals, List.length_append]
      omega

/-- Where there is as much room as needed, its bound does not show. -/
theorem evaluateWithin_of_need_le
    (source : List Char)
    (limit : Int64)
    (expression : Expression)
    {room : Nat}
    (enough : expression.need ≤ room) :
    expression.evaluateWithin source limit room = expression.evaluate source := by
  induction expression generalizing room with
  | number token =>
      cases room with
      | zero =>
          simp [need] at enough
      | succ room =>
          rw [evaluateWithin, evaluate]
  | group _ inner _ inductionHypothesis =>
      rw [evaluateWithin, evaluate, inductionHypothesis enough]
  | binary left sign operator right leftHypothesis rightHypothesis =>
      simp only [need] at enough
      rw [evaluateWithin, evaluate, leftHypothesis (by omega), rightHypothesis (by omega)]

end Expression

namespace Cause

/-- The causes for which an operation on values, or an assertion about one, fails. -/
def ofValues : List Cause :=
  [.typeMismatch, .divisionByZero, .unsupportedOperand, .assertion]

/-- What is about values is neither about the code and its call nor about the stack. -/
theorem not_mem_of_mem_ofValues :
    ∀ cause ∈ ofValues,
      cause ∉ [.malformedBytecode, .arity, .notCallable] ∧ cause ≠ .stackOverflow := by
  decide

/-- Arithmetic fails for what the values are. -/
theorem arithmetic_mem_ofValues
    (fault : ArithmeticFault) :
    (Fault.arithmetic fault).cause ∈ ofValues := by
  cases fault <;> simp [Fault.cause, ArithmeticFault.cause, ofValues]

end Cause

namespace RuntimeError

/-- The error is about values, or about a full stack, which has too little room then. -/
def OfValuesOrFull (limit : Int64) (tooLittle : Prop) (error : RuntimeError) : Prop :=
  error.fault.cause ∈ Cause.ofValues ∨ error.fault = .stackFull limit ∧ tooLittle

/-- Room that is too little for a part is too little for the whole. -/
theorem OfValuesOrFull.weaken
    {limit : Int64}
    {part whole : Prop}
    (implied : part → whole)
    {error : RuntimeError}
    (ofValuesOrFull : error.OfValuesOrFull limit part) :
    error.OfValuesOrFull limit whole :=
  ofValuesOrFull.imp_right fun isFull => ⟨isFull.1, implied isFull.2⟩

end RuntimeError

namespace Expression

/--
An expression fails for what its values are, or where there is less room than it needs.  The need
of a right operand counts the left value, which waits meanwhile.
-/
theorem failsOnly_evaluateWithin
    (source : List Char)
    (limit : Int64)
    (expression : Expression)
    (room : Nat) :
    (expression.evaluateWithin source limit room).FailsOnly
      (RuntimeError.OfValuesOrFull limit (room < expression.need)) := by
  induction expression generalizing room with
  | number token =>
      cases room with
      | zero =>
          exact Or.inr ⟨rfl, Nat.one_pos⟩
      | succ room =>
          rw [evaluateWithin, Token.evaluate]
          split <;> exact True.intro
  | group _ inner _ inductionHypothesis =>
      rw [evaluateWithin]
      exact inductionHypothesis room
  | binary left sign operator right leftHypothesis rightHypothesis =>
      rw [evaluateWithin]
      refine ((leftHypothesis room).weaken fun _ => ?_).bind fun leftValue => ?_
      · exact .weaken fun tooLittle => by simp only [need]; omega
      refine ((rightHypothesis (room - 1)).weaken fun _ => ?_).bind fun rightValue => ?_
      · exact .weaken fun tooLittle => by simp only [need]; omega
      rw [Token.apply]
      cases sign.operator.apply leftValue rightValue with
      | done value =>
          exact True.intro
      | failed fault =>
          exact Or.inl (Cause.arithmetic_mem_ofValues fault)
      | aborted =>
          exact True.intro

end Expression

namespace Value

/-- An assertion on a line holds of one value only, which it then gives. -/
def requireTrue (line : Int64) : Value → Outcome RuntimeError Value
  | .bool true => .done (.bool true)
  | .bool false => .failed (.inScript line .assertion)
  | other => .failed (.inScript line (.assertedKind other.kind))

end Value

namespace Statement

/-- What a statement makes of the value of its expression. -/
def conclude : Statement → Value → Outcome RuntimeError Value
  | .expression _, value => .done value
  | .assertion _ condition, value => value.requireTrue condition.last.line

/-- The value of a statement: that of its expression, or true where this is asserted. -/
def evaluate
    (source : List Char)
    (statement : Statement) :
    Outcome RuntimeError Value := do
  let value ← statement.body.evaluate source
  statement.conclude value

/-- The value of a statement with room for so many values on a stack of a limited size. -/
def evaluateWithin
    (source : List Char)
    (limit : Int64)
    (room : Nat)
    (statement : Statement) :
    Outcome RuntimeError Value := do
  let value ← statement.body.evaluateWithin source limit room
  statement.conclude value

/-- A statement fails for what its values are, or where there is less room than it needs. -/
theorem failsOnly_evaluateWithin
    (source : List Char)
    (limit : Int64)
    (room : Nat)
    (statement : Statement) :
    (statement.evaluateWithin source limit room).FailsOnly
      (RuntimeError.OfValuesOrFull limit (room < statement.body.need)) := by
  refine (Expression.failsOnly_evaluateWithin source limit _ room).bind fun value => ?_
  cases statement with
  | expression _ =>
      exact True.intro
  | assertion word condition =>
      simp only [conclude, Value.requireTrue]
      split
      · exact True.intro
      · exact Or.inl (by simp [RuntimeError.inScript, Fault.cause, Cause.ofValues])
      · exact Or.inl (by simp [RuntimeError.inScript, Fault.cause, Cause.ofValues])

end Statement

namespace Script

/-- Evaluate all statements, which gives the value of the last one. -/
def evaluateAll (source : List Char) (script : Script) : Outcome RuntimeError Value :=
  script.foldlM (fun _ statement => statement.evaluate source) (.bool true)

/-- The value of a program: that of its last statement if it is an expression, and else true. -/
def evaluate (source : List Char) (script : Script) : Outcome RuntimeError Value := do
  let value ← evaluateAll source script
  if endsInExpression script then
    .done value
  else
    .done (.bool true)

/-- Evaluate all statements with room for so many values on a stack of a limited size. -/
def evaluateAllWithin
    (source : List Char)
    (limit : Int64)
    (room : Nat)
    (script : Script) :
    Outcome RuntimeError Value :=
  script.foldlM (fun _ statement => statement.evaluateWithin source limit room) (.bool true)

/--
The value of a program that ends on a line, with room for so many values on a stack of a limited
size.  Where the program does not end in an expression, its value needs room of its own.
-/
def evaluateWithin
    (source : List Char)
    (limit : Int64)
    (room : Nat)
    (line : Int64)
    (script : Script) :
    Outcome RuntimeError Value := do
  let value ← evaluateAllWithin source limit room script
  if endsInExpression script then
    .done value
  else if room = 0 then
    .failed (.inScript line (.stackFull limit))
  else
    .done (.bool true)

/-- The value of a program that ends in an expression is evaluated behind the rest. -/
theorem evaluateWithin_concat_expression
    (source : List Char)
    (limit : Int64)
    (room : Nat)
    (line : Int64)
    (before : Script)
    (value : Expression) :
    evaluateWithin source limit room line (before ++ [.expression value]) =
      evaluateAllWithin source limit room before >>= fun _ =>
        value.evaluateWithin source limit room := by
  have ends : endsInExpression (before ++ [.expression value]) = true := by
    simp [endsInExpression]
  have concluded :
      Statement.evaluateWithin source limit room (.expression value) =
        value.evaluateWithin source limit room :=
    bind_pure _
  simp only [evaluateWithin, evaluateAllWithin, List.foldlM_append, List.foldlM_cons,
    List.foldlM_nil, bind_pure, bind_assoc, ends, ↓reduceIte, concluded]
  exact bind_congr fun _ => bind_pure _

/-- How many values wait at most while a program is evaluated, its own one among them. -/
def need (script : Script) : Nat :=
  script.foldr (fun statement most => max statement.body.need most) 1

/-- A program needs the room of each of its statements. -/
theorem need_le_of_mem
    {script : Script}
    {statement : Statement}
    (member : statement ∈ script) :
    statement.body.need ≤ need script := by
  induction script with
  | nil =>
      cases member
  | cons first rest inductionHypothesis =>
      simp only [need, List.foldr_cons]
      rcases List.mem_cons.mp member with rfl | inRest
      · exact Nat.le_max_left ..
      · exact Nat.le_trans (inductionHypothesis inRest) (Nat.le_max_right ..)

theorem need_pos
    (script : Script) :
    0 < need script := by
  induction script with
  | nil =>
      exact Nat.one_pos
  | cons first rest inductionHypothesis =>
      exact Nat.lt_of_lt_of_le inductionHypothesis (Nat.le_max_right ..)

/-- Only literals need room, apart from the value of an empty program. -/
theorem need_le_length_literals
    (script : Script) :
    need script ≤ max 1 (literals script).length := by
  induction script with
  | nil =>
      exact Nat.le_max_left ..
  | cons first rest inductionHypothesis =>
      have bodyNeed := first.body.need_le_length_literals
      simp only [need, literals, List.foldr_cons, List.flatMap_cons, List.length_append]
        at inductionHypothesis ⊢
      omega

/-- Where there is as much room as needed, its bound does not show. -/
theorem evaluateWithin_of_need_le
    (source : List Char)
    (limit line : Int64)
    {script : Script}
    {room : Nat}
    (enough : need script ≤ room) :
    evaluateWithin source limit room line script = evaluate source script := by
  have roomLeft : room ≠ 0 :=
    Nat.ne_of_gt (Nat.lt_of_lt_of_le (need_pos script) enough)
  have same :
      evaluateAllWithin source limit room script = evaluateAll source script := by
    refine Outcome.foldlM_congr (fun statement member _ => ?_) _
    have enoughBelow := Nat.le_trans (need_le_of_mem member) enough
    rw [Statement.evaluateWithin, Statement.evaluate,
      Expression.evaluateWithin_of_need_le source limit _ enoughBelow]
  simp only [evaluateWithin, evaluate, same, roomLeft, ↓reduceIte]

/-- A program fails for what its values are, or where there is less room than it needs. -/
theorem failsOnly_evaluateWithin
    (source : List Char)
    (limit line : Int64)
    (room : Nat)
    (script : Script) :
    (evaluateWithin source limit room line script).FailsOnly
      (RuntimeError.OfValuesOrFull limit (room < need script)) := by
  refine .bind (.foldlM (fun statement member _ => ?_) _) fun value => ?_
  · refine (statement.failsOnly_evaluateWithin source limit room).weaken fun _ => ?_
    exact .weaken fun tooLittle => Nat.lt_of_lt_of_le tooLittle (need_le_of_mem member)
  · split
    · exact True.intro
    · split
      next full =>
        exact Or.inr ⟨rfl, full ▸ need_pos script⟩
      next =>
        exact True.intro

end Script

end Reckon
