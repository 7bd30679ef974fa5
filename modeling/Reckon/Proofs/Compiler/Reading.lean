import Reckon.Proofs.Compiler.Steps

namespace Reckon

/-!
# Reading expressions

Precedence climbing reads what the grammar derives.  A precedence stands for the level of the
grammar at which its operators start, and an operand that was read so far is followed by an
operator no tighter than the level that it derives from.

`Compiler.meets_expression` says what a successful reading has read, and that none is aborted.
-/

namespace BindingLevel

/-- The precedence of the operators of a level. -/
def precedence : BindingLevel → Precedence
  | .equality => .equality
  | .comparison => .comparison
  | .term => .term
  | .factor => .factor
  | .power => .exponent
  | .primary => Precedence.exponent.next

/-- How tightly a level binds. -/
def rank (level : BindingLevel) : Int :=
  level.precedence.rank

/-- Levels of operators are followed by the next tighter one. -/
theorem rank_tighter
    {level : BindingLevel}
    (hasOperators : level ≠ .primary) :
    level.tighter.rank = level.rank + 1 := by
  cases level with
  | primary => contradiction
  | _ => rfl

/-- No level binds more tightly than that of operands. -/
theorem rank_le_primary
    (level : BindingLevel) :
    level.rank ≤ BindingLevel.primary.rank := by
  cases level <;> decide

/-- Levels of the same rank are the same. -/
theorem eq_of_rank_eq
    {level other : BindingLevel}
    (same : level.rank = other.rank) :
    level = other := by
  revert same
  cases level <;> cases other <;> decide

end BindingLevel

namespace Sign

/-- A sign is the rule of a binary operator at its level. -/
theorem rule_kind
    (sign : Sign) :
    sign.kind.rule = .binary sign.level.precedence := by
  cases sign <;> rfl

/-- The right operand of a sign is read one level tighter. -/
theorem next_precedence
    (sign : Sign) :
    sign.level.precedence.next = sign.level.tighter.precedence := by
  cases sign <;> rfl

/-- No sign binds as tightly as an operand. -/
theorem level_ne_primary
    (sign : Sign) :
    sign.level ≠ .primary := by
  cases sign <;> decide

end Sign

namespace TokenKind

/-- A kind of token is a sign, or binds nothing. -/
theorem exists_sign_or_idle
    (kind : TokenKind) :
    (∃ sign : Sign, kind = sign.kind) ∨ kind.rule.precedence.rank = 0 := by
  cases kind with
  | equal => exact Or.inl ⟨.equal, rfl⟩
  | notEqual => exact Or.inl ⟨.notEqual, rfl⟩
  | less => exact Or.inl ⟨.less, rfl⟩
  | lessEqual => exact Or.inl ⟨.lessEqual, rfl⟩
  | greater => exact Or.inl ⟨.greater, rfl⟩
  | greaterEqual => exact Or.inl ⟨.greaterEqual, rfl⟩
  | plus => exact Or.inl ⟨.plus, rfl⟩
  | minus => exact Or.inl ⟨.minus, rfl⟩
  | star => exact Or.inl ⟨.star, rfl⟩
  | slash => exact Or.inl ⟨.slash, rfl⟩
  | slashSlash => exact Or.inl ⟨.slashSlash, rfl⟩
  | starStar => exact Or.inl ⟨.starStar, rfl⟩
  | _ => exact Or.inr rfl

/-- Whatever binds at a precedence is a sign. -/
theorem exists_sign_of_binds
    {kind : TokenKind}
    (binds : 0 < kind.rule.precedence.rank) :
    ∃ sign : Sign, kind = sign.kind := by
  rcases kind.exists_sign_or_idle with isSign | idle
  · exact isSign
  · omega

/-- No kind of token binds as tightly as a primary expression. -/
theorem rank_rule_le_primary
    (kind : TokenKind) :
    kind.rule.precedence.rank ≤ BindingLevel.primary.rank := by
  rcases kind.exists_sign_or_idle with ⟨sign, rfl⟩ | idle
  · rw [sign.rule_kind]
    exact sign.level.rank_le_primary
  · rw [idle]
    decide

/-- A number opens an operand. -/
theorem opening?_of_isNumber
    {kind : TokenKind}
    (isNumber : kind.isNumber = true) :
    kind.rule.opening? = some .number := by
  cases kind with
  | integer | float | complex => rfl
  | _ => simp [TokenKind.isNumber] at isNumber

/-- Only a number opens an operand that is a number. -/
theorem isNumber_of_opening?
    {kind : TokenKind}
    (opens : kind.rule.opening? = some .number) :
    kind.isNumber = true := by
  cases kind with
  | integer | float | complex => rfl
  | _ => simp [rule, Rule.opening, Rule.binary, Rule.idle] at opens

/-- Only a parenthesis opens a group. -/
theorem eq_leftParenthesis_of_opening?
    {kind : TokenKind}
    (opens : kind.rule.opening? = some .grouping) :
    kind = .leftParenthesis := by
  cases kind with
  | leftParenthesis => rfl
  | _ => simp [rule, Rule.opening, Rule.binary, Rule.idle] at opens

end TokenKind

/-- The operators that a precedence admits are those of a level and of the tighter ones. -/
structure Precedence.StartsAt
    (precedence : Precedence)
    (level : BindingLevel) :
    Prop where
  positive : 0 < precedence.rank
  admits_iff :
    ∀ other : BindingLevel, precedence.rank ≤ other.rank ↔ level.rank ≤ other.rank

namespace Precedence.StartsAt

/-- Whole expressions are read at the loosest level of the grammar. -/
theorem assignment :
    Precedence.assignment.StartsAt .equality where
  positive := by
    decide
  admits_iff other := by
    cases other <;> decide

/-- The precedence of a level starts at it. -/
theorem precedence
    (level : BindingLevel) :
    level.precedence.StartsAt level where
  positive := by
    cases level <;> decide
  admits_iff _ :=
    Iff.rfl

end Precedence.StartsAt

namespace Expression.Derives

/-- What derives from a level derives from every looser one. -/
theorem loosen
    {level current : BindingLevel}
    {tokens : List Token}
    {expression : Expression}
    (derived : Derives current tokens expression)
    (looser : level.rank ≤ current.rank) :
    Derives level tokens expression := by
  by_cases same : level = current
  · subst same
    exact derived
  · have hasOperators : level ≠ .primary := by
      rintro rfl
      exact same (BindingLevel.eq_of_rank_eq
        (Int.le_antisymm looser current.rank_le_primary))
    have ranksDiffer : level.rank ≠ current.rank :=
      fun ranksSame => same (BindingLevel.eq_of_rank_eq ranksSame)
    have stepsUp := BindingLevel.rank_tighter hasOperators
    exact .operand (derived.loosen (by omega))
termination_by (BindingLevel.primary.rank - level.rank).toNat
decreasing_by
  have belowPrimary := current.rank_le_primary
  omega

end Expression.Derives

/-- Somewhere among the tokens the input ends. -/
def Ended (tokens : List Token) : Prop :=
  ∃ token ∈ tokens, token.kind = .endOfInput

/-- The tokens do not start before the source. -/
def Placed (tokens : List Token) : Prop :=
  ∀ token ∈ tokens, 0 ≤ token.start

namespace Ended

/-- The input goes on behind tokens that do not end it. -/
theorem of_append
    {tokens rest : List Token}
    (ended : Ended (tokens ++ rest))
    (goOn : ∀ token ∈ tokens, token.kind ≠ .endOfInput) :
    Ended rest := by
  obtain ⟨token, member, ends⟩ := ended
  rcases List.mem_append.mp member with inside | behind
  · exact (goOn token inside ends).elim
  · exact ⟨token, behind, ends⟩

/-- Behind a token that does not end the input, there is still an end. -/
theorem tail
    {token : Token}
    {rest : List Token}
    (ended : Ended (token :: rest))
    (goesOn : token.kind ≠ .endOfInput) :
    Ended rest := by
  refine @of_append [token] rest ended ?_
  simpa using goesOn

/-- Tokens that have an end are not empty. -/
theorem exists_cons
    {tokens : List Token}
    (ended : Ended tokens) :
    ∃ token rest, tokens = token :: rest := by
  obtain ⟨token, member, _⟩ := ended
  exact List.exists_cons_of_ne_nil (List.ne_nil_of_mem member)

end Ended

namespace Compiler

variable
  (compiler : Compiler)
  (behind ahead : List Token)
  (chunk : Chunk)

/-- Reading an expression starts by what its first token opens. -/
theorem parse_between
    (fuel : Nat)
    (precedence : Precedence)
    (token : Token) :
    (compiler.between behind (token :: ahead) chunk).parse (fuel + 1) precedence =
      match token.kind.rule.opening? with
      | none =>
          let opened := compiler.between (token :: behind) ahead chunk
          opened.here (opened.failAt token .unexpectedStart)
      | some .number =>
          let opened := compiler.between (token :: behind) ahead chunk
          opened.here opened.number >>= parseOperators fuel precedence
      | some .grouping =>
          parse fuel .assignment (compiler.between (token :: behind) ahead chunk) >>=
            fun inner => inner.here inner.closeGroup >>= parseOperators fuel precedence := by
  rw [parse]
  rfl

/-- A sign that binds at the precedence is read with its right operand. -/
theorem parseOperators_sign
    (fuel : Nat)
    {precedence : Precedence}
    {operator : Token}
    {sign : Sign}
    (shows : operator.kind = sign.kind)
    (binds : precedence.rank ≤ sign.level.rank) :
    (compiler.between behind (operator :: ahead) chunk).parseOperators (fuel + 1) precedence =
      parse fuel sign.level.tighter.precedence
          (compiler.between (operator :: behind) ahead chunk) >>=
        fun right =>
          right.here (right.emitOperator operator) >>= parseOperators fuel precedence := by
  have bindsHere : precedence.rank ≤ sign.level.precedence.rank := binds
  rw [parseOperators]
  simp only [peek_between, here_done, Outcome.done_bind, shows, sign.rule_kind, Rule.binary,
    bindsHere, ↓reduceIte, advance_between, sign.next_precedence]

/-- A token that does not bind at the precedence ends the expression. -/
theorem parseOperators_end
    (fuel : Nat)
    {precedence : Precedence}
    {next : Token}
    (ends : next.kind.rule.precedence.rank < precedence.rank) :
    (compiler.between behind (next :: ahead) chunk).parseOperators (fuel + 1) precedence =
      (compiler.between behind (next :: ahead) chunk).here
        ((compiler.between behind (next :: ahead) chunk).refuseAssignment precedence) := by
  have bindsNot : ¬ precedence.rank ≤ next.kind.rule.precedence.rank := by
    omega
  rw [parseOperators]
  simp only [peek_between, here_done, Outcome.done_bind, bindsNot, ↓reduceIte]

/--
What a compiler has read that stands before tokens and reads an expression of a level: the
expression derives from the tokens up to one that does not bind at the precedence, and its code
and constants are appended.
-/
def HasRead
    (level : BindingLevel)
    (precedence : Precedence)
    (after : Compiler) :
    Prop :=
  ∃ tokens next rest expression,
    ahead = tokens ++ next :: rest ∧
      Expression.Derives level tokens expression ∧
        next.kind.rule.precedence.rank < precedence.rank ∧
          chunk.Admits compiler.source expression.literals ∧
            after = compiler.between (tokens.reverse ++ behind) (next :: rest)
              (chunk.withExpression compiler.source expression)

/-- With so much fuel, an expression is read as the grammar derives it. -/
def ReadsExpressions (fuel : Nat) : Prop :=
  ∀ (compiler : Compiler) (behind ahead : List Token) (chunk : Chunk)
    (level : BindingLevel) (precedence : Precedence),
    precedence.StartsAt level →
    Placed ahead →
    Ended ahead →
    2 * ahead.length + 2 ≤ fuel →
    (parse fuel precedence (compiler.between behind ahead chunk)).Meets
      (compiler.HasRead behind ahead chunk level precedence)

/--
With so much fuel, an operand is continued as the grammar derives it.  The token behind the
operand binds no tighter than the level that the operand derives from.
-/
def ReadsOperators (fuel : Nat) : Prop :=
  ∀ (compiler : Compiler) (behind leftTokens ahead : List Token) (next : Token)
    (chunk : Chunk) (left : Expression) (level current : BindingLevel)
    (precedence : Precedence),
    precedence.StartsAt level →
    level.rank ≤ current.rank →
    Expression.Derives current leftTokens left →
    chunk.Admits compiler.source left.literals →
    next.kind.rule.precedence.rank ≤ current.rank →
    Placed (next :: ahead) →
    Ended (next :: ahead) →
    2 * (next :: ahead).length + 1 ≤ fuel →
    (parseOperators fuel precedence
      (compiler.between (leftTokens.reverse ++ behind) (next :: ahead)
        (chunk.withExpression compiler.source left))).Meets
      (compiler.HasRead behind (leftTokens ++ next :: ahead) chunk level precedence)

/-- One more step of reading an expression: its first token, and the operators behind it. -/
theorem readsExpressions_succ
    {fuel : Nat}
    (expressions : ReadsExpressions fuel)
    (operators : ReadsOperators fuel) :
    ReadsExpressions (fuel + 1) := by
  intro compiler behind ahead chunk level precedence starts placed ended enough
  obtain ⟨token, rest, rfl⟩ := ended.exists_cons
  have tokenPlaced : 0 ≤ token.start := placed token (by simp)
  have restPlaced : Placed rest := fun other member => placed other (by simp [member])
  have belowPrimary : level.rank ≤ BindingLevel.primary.rank := level.rank_le_primary
  simp only [List.length_cons] at enough
  rw [parse_between]
  cases opens : token.kind.rule.opening? with
  | none =>
      exact meets_here_iff.mpr (meets_failAt _ tokenPlaced _ _)
  | some opening =>
      cases opening with
      | number =>
          have isNumber := TokenKind.isNumber_of_opening? opens
          have restEnded : Ended rest :=
            ended.tail (by
              intro same
              simp [same, TokenKind.isNumber] at isNumber)
          obtain ⟨next, following, rfl⟩ := restEnded.exists_cons
          refine (meets_here_iff.mpr
            (meets_number compiler behind _ chunk tokenPlaced)).bind ?_
          rintro _ ⟨admitted, rfl⟩
          exact operators compiler behind [token] following next chunk (.number token)
            level .primary precedence starts belowPrimary (.number isNumber) admitted
            (TokenKind.rank_rule_le_primary _) restPlaced restEnded
            (by simp only [List.length_cons] at enough ⊢; omega)
      | grouping =>
          have isParenthesis := TokenKind.eq_leftParenthesis_of_opening? opens
          have restEnded : Ended rest :=
            ended.tail (by simp [isParenthesis])
          refine (expressions compiler (token :: behind) rest chunk .equality .assignment
            .assignment restPlaced restEnded (by omega)).bind ?_
          rintro _ ⟨tokens, closing, following, inner, rfl, derived, _, admitted, rfl⟩
          have closingPlaced : 0 ≤ closing.start :=
            restPlaced closing (by simp)
          refine (meets_here_iff.mpr
            (meets_closeGroup compiler _ following _ closingPlaced)).bind ?_
          rintro _ ⟨closes, rfl⟩
          have followingEnded : Ended following :=
            (restEnded.of_append derived.kind_ne_endOfInput).tail (by simp [closes])
          obtain ⟨next, later, rfl⟩ := followingEnded.exists_cons
          have read :=
            operators compiler behind (token :: tokens ++ [closing]) later next chunk
              (.group token inner closing) level .primary precedence starts belowPrimary
              (.group isParenthesis derived closes) admitted
              (TokenKind.rank_rule_le_primary _)
              (fun other member => restPlaced other
                (List.mem_append_right _ (List.mem_cons_of_mem _ member)))
              followingEnded
              (by simp only [List.length_append, List.length_cons] at enough ⊢; omega)
          simpa [Chunk.withExpression, Expression.instructions, Expression.constants,
            Expression.literals] using read

/--
One more step behind an operand: an operator with its right operand, or the end.  Whatever binds at
a precedence is a sign, so no operator is refused here.
-/
theorem readsOperators_succ
    {fuel : Nat}
    (expressions : ReadsExpressions fuel)
    (operators : ReadsOperators fuel) :
    ReadsOperators (fuel + 1) := by
  intro compiler behind leftTokens ahead operator chunk left level current precedence
    starts looser leftDerived leftAdmitted follows placed ended enough
  have operatorPlaced : 0 ≤ operator.start := placed operator (by simp)
  have aheadPlaced : Placed ahead := fun other member => placed other (by simp [member])
  simp only [List.length_cons] at enough
  by_cases binds : precedence.rank ≤ operator.kind.rule.precedence.rank
  · obtain ⟨sign, shows⟩ :=
      TokenKind.exists_sign_of_binds
        (Int.lt_of_lt_of_le starts.positive binds)
    rw [shows, sign.rule_kind] at binds follows
    have aheadEnded : Ended ahead :=
      ended.tail (by rw [shows]; cases sign <;> simp [Sign.kind])
    rw [parseOperators_sign compiler _ ahead _ fuel shows binds]
    refine (expressions compiler _ ahead _ sign.level.tighter _ (.precedence _) aheadPlaced
      aheadEnded (by omega)).bind ?_
    rintro _ ⟨rightTokens, next, following, right, rfl, rightDerived, nextEnds,
      rightAdmitted, rfl⟩
    rw [emitOperator_between compiler _ _ _ shows, here_done, Outcome.done_bind,
      Chunk.withExpression_binary leftAdmitted]
    have stepsUp := BindingLevel.rank_tighter sign.level_ne_primary
    have nextFollows : next.kind.rule.precedence.rank ≤ sign.level.rank := by
      have nextBelow : next.kind.rule.precedence.rank < sign.level.tighter.rank := nextEnds
      omega
    have joined :
        Expression.Derives sign.level (leftTokens ++ operator :: rightTokens)
          (.binary left sign operator right) :=
      .binary (leftDerived.loosen follows) shows rfl rightDerived
    have read :=
      operators compiler behind (leftTokens ++ operator :: rightTokens) following next chunk
        (.binary left sign operator right) level sign.level precedence starts
        ((starts.admits_iff sign.level).mp binds) joined
        (Chunk.admits_append_iff.mpr ⟨leftAdmitted, rightAdmitted⟩) nextFollows
        (fun other member => aheadPlaced other (List.mem_append_right _ member))
        (aheadEnded.of_append rightDerived.kind_ne_endOfInput)
        (by simp only [List.length_append, List.length_cons] at enough ⊢; omega)
    simpa using read
  · have ends : operator.kind.rule.precedence.rank < precedence.rank := by
      omega
    rw [parseOperators_end compiler _ ahead _ fuel ends]
    refine (meets_here_iff.mpr
      (meets_refuseAssignment compiler _ ahead _ precedence operatorPlaced)).weaken ?_
    rintro _ rfl
    exact ⟨leftTokens, operator, ahead, left, rfl, leftDerived.loosen looser, ends,
      leftAdmitted, rfl⟩

/-- Enough fuel for the tokens to come reads expressions and operators. -/
theorem readsExpressions_and_operators
    (fuel : Nat) :
    ReadsExpressions fuel ∧ ReadsOperators fuel := by
  induction fuel with
  | zero =>
      constructor
      · intro _ _ _ _ _ _ _ _ _ enough
        omega
      · intro _ _ _ _ _ _ _ _ _ _ _ _ _ _ _ _ _ enough
        omega
  | succ fuel inductionHypothesis =>
      obtain ⟨expressions, operators⟩ := inductionHypothesis
      exact ⟨readsExpressions_succ expressions operators,
        readsOperators_succ expressions operators⟩

/--
A whole expression is read as the grammar derives it, or a problem is reported; reading is never
aborted.
-/
theorem meets_expression
    (placed : Placed ahead)
    (ended : Ended ahead) :
    (compiler.between behind ahead chunk).expression.Meets
      (compiler.HasRead behind ahead chunk .equality .assignment) :=
  (readsExpressions_and_operators _).1 compiler behind ahead chunk .equality .assignment
    .assignment placed ended (by simp [parseFuel, between])

end Compiler

end Reckon
