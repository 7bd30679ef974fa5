import Reckon.Proofs.Compiler.Reading

namespace Reckon

/-!
# Every derivation is read

The tokens of a derivation are read without a problem as long as the literals have values, there
is room for them, and the token behind them does not continue the expression.
-/

namespace BindingLevel

/-- The next tighter level binds no less tightly. -/
theorem rank_le_tighter
    (level : BindingLevel) :
    level.rank ≤ level.tighter.rank := by
  cases level <;> decide

end BindingLevel

namespace Sign

/-- The rule of a sign has the rank of its binding level. -/
theorem rank_rule_kind
    (sign : Sign) :
    sign.kind.rule.precedence.rank = sign.level.rank := by
  rw [sign.rule_kind]
  rfl

end Sign

namespace Compiler

/--
After the tokens of a derivation the compiler goes on with the operators behind them, and there is
fuel left for the rest.  A right operand ends where the whole expression does.
-/
theorem parse_derived
    {level : BindingLevel}
    {tokens : List Token}
    {expression : Expression}
    (derived : expression.Derives level tokens)
    (compiler : Compiler)
    (behind rest : List Token)
    (next : Token)
    (chunk : Chunk)
    (precedence : Precedence)
    (fuel : Nat)
    (admits : precedence.rank ≤ level.rank)
    (follows : next.kind.rule.precedence.rank ≤ level.rank)
    (noAssignment : next.kind ≠ .assign)
    (admitted : chunk.Admits compiler.source expression.literals)
    (enough : 2 * (tokens ++ next :: rest).length + 2 ≤ fuel) :
    ∃ left,
      2 * (next :: rest).length + 1 ≤ left ∧
        parse fuel precedence (compiler.between behind (tokens ++ next :: rest) chunk) =
          parseOperators left precedence
            (compiler.between (tokens.reverse ++ behind) (next :: rest)
              (chunk.withExpression compiler.source expression)) := by
  induction derived generalizing behind rest next chunk precedence fuel with
  | @number token isNumber =>
      obtain ⟨left, rfl⟩ : ∃ left, fuel = left + 1 := ⟨fuel - 1, by omega⟩
      refine ⟨left, ?_, ?_⟩
      · simp only [List.length_append, List.length_cons] at enough ⊢
        omega
      · rw [List.singleton_append, parse_between, TokenKind.opening?_of_isNumber isNumber]
        simp only [number_between compiler behind _ chunk admitted, here_done,
          Outcome.done_bind]
        rfl
  | @group opening closing tokens inner opens derived closes inductionHypothesis =>
      obtain ⟨left, rfl⟩ : ∃ left, fuel = left + 1 := ⟨fuel - 1, by omega⟩
      simp only [List.cons_append, List.append_assoc, List.length_cons,
        List.length_append, List.length_nil] at enough
      obtain ⟨innerLeft, innerEnough, innerRead⟩ :=
        inductionHypothesis (opening :: behind) (next :: rest) closing chunk .assignment left
          (by decide) (by rw [closes]; decide) (by simp [closes]) admitted
          (by simp only [List.length_append, List.length_cons]; omega)
      obtain ⟨innerFuel, rfl⟩ : ∃ innerFuel, innerLeft = innerFuel + 1 :=
        ⟨innerLeft - 1, by omega⟩
      rw [parseOperators_end compiler _ _ _ innerFuel (by rw [closes]; decide),
        refuseAssignment_between compiler _ _ _ _ (by simp [closes]), here_done] at innerRead
      refine ⟨left, ?_, ?_⟩
      · simp only [List.length_cons]
        omega
      · have opening? : opening.kind.rule.opening? = some .grouping := by
          rw [opens]
          rfl
        simp only [List.cons_append, List.append_assoc, List.nil_append, parse_between,
          opening?, innerRead, Outcome.done_bind, closeGroup_between compiler _ _ _ closes,
          here_done]
        simp [Chunk.withExpression, Expression.instructions, Expression.constants,
          Expression.literals]
  | @operand level tokens expression derived inductionHypothesis =>
      have stepsUp := level.rank_le_tighter
      exact inductionHypothesis behind rest next chunk precedence fuel (by omega) (by omega)
        noAssignment admitted enough
  | @binary level leftTokens rightTokens left right sign operator leftDerived shows joins
      rightDerived leftHypothesis rightHypothesis =>
      subst joins
      obtain ⟨leftAdmitted, rightAdmitted⟩ := Chunk.admits_append_iff.mp admitted
      have stepsUp := BindingLevel.rank_tighter sign.level_ne_primary
      simp only [List.append_assoc, List.cons_append, List.length_append,
        List.length_cons] at enough
      obtain ⟨leftFuel, leftEnough, leftRead⟩ :=
        leftHypothesis behind (rightTokens ++ next :: rest) operator chunk precedence fuel
          admits (Int.le_of_eq (by rw [shows, sign.rank_rule_kind]))
          (by rw [shows]; cases sign <;> simp [Sign.kind]) leftAdmitted
          (by simp only [List.length_append, List.length_cons]; omega)
      simp only [List.length_append, List.length_cons] at leftEnough
      obtain ⟨middle, rfl⟩ : ∃ middle, leftFuel = middle + 1 := ⟨leftFuel - 1, by omega⟩
      obtain ⟨rightFuel, rightEnough, rightRead⟩ :=
        rightHypothesis (operator :: (leftTokens.reverse ++ behind)) rest next
          (chunk.withExpression compiler.source left) sign.level.tighter.precedence middle
          (Int.le_refl _) (by omega) noAssignment rightAdmitted
          (by simp only [List.length_append, List.length_cons]; omega)
      obtain ⟨rightRest, rfl⟩ : ∃ rightRest, rightFuel = rightRest + 1 :=
        ⟨rightFuel - 1, by omega⟩
      have nextEnds :
          next.kind.rule.precedence.rank < sign.level.tighter.precedence.rank := by
        have : sign.level.tighter.precedence.rank = sign.level.tighter.rank := rfl
        omega
      rw [parseOperators_end compiler _ _ _ rightRest nextEnds,
        refuseAssignment_between compiler _ _ _ _ noAssignment, here_done] at rightRead
      refine ⟨middle, ?_, ?_⟩
      · simp only [List.length_cons]
        omega
      · simp only [List.append_assoc, List.cons_append, leftRead,
          parseOperators_sign compiler _ _ _ middle shows admits, rightRead,
          Outcome.done_bind, emitOperator_between compiler _ _ _ shows, here_done,
          Chunk.withExpression_binary leftAdmitted]
        simp

/-- A whole expression is read when the token behind it neither binds nor assigns. -/
theorem expression_derived
    {tokens : List Token}
    {expression : Expression}
    (derived : expression.Derives .equality tokens)
    (compiler : Compiler)
    (behind rest : List Token)
    (next : Token)
    (chunk : Chunk)
    (idle : next.kind.rule.precedence.rank = 0)
    (noAssignment : next.kind ≠ .assign)
    (admitted : chunk.Admits compiler.source expression.literals) :
    (compiler.between behind (tokens ++ next :: rest) chunk).expression =
      .done (compiler.between (tokens.reverse ++ behind) (next :: rest)
        (chunk.withExpression compiler.source expression)) := by
  obtain ⟨left, enough, read⟩ :=
    parse_derived derived compiler behind rest next chunk .assignment
      (parseFuel (compiler.between behind (tokens ++ next :: rest) chunk))
      (by decide) (by rw [idle]; decide) noAssignment admitted
      (by simp [parseFuel, between])
  obtain ⟨fuel, rfl⟩ : ∃ fuel, left = fuel + 1 := ⟨left - 1, by omega⟩
  rw [Compiler.expression, read, parseOperators_end compiler _ _ _ fuel (by rw [idle]; decide),
    refuseAssignment_between compiler _ _ _ _ noAssignment, here_done]

end Compiler

end Reckon
