import Reckon.Token.Literal

namespace Reckon

/-!
# The grammar of programs

```text
Script     = Statement*
Statement  = "assert" Equality | Equality
Equality   = Comparison (("==" | "!=") Comparison)*
Comparison = Term (("<" | "<=" | ">" | ">=") Term)*
Term       = Factor (("+" | "-") Factor)*
Factor     = Power (("*" | "/" | "//") Power)*
Power      = Primary ("**" Primary)*
Primary    = number | "(" Equality ")"
```

The derivations below carry the syntax tree.  A repetition is read as left recursion, so that
every level groups to the left.
-/

/-- The levels of the grammar of expressions, the loosest first. -/
inductive BindingLevel where
  | equality
  | comparison
  | term
  | factor
  | power
  | primary
  deriving Repr, DecidableEq

namespace BindingLevel

/-- The level of the operands of a level; a primary expression has none. -/
def tighter : BindingLevel → BindingLevel
  | .equality => .comparison
  | .comparison => .term
  | .term => .factor
  | .factor => .power
  | .power | .primary => .primary

end BindingLevel

/-- The signs of the binary operators. -/
inductive Sign where
  | equal
  | notEqual
  | less
  | lessEqual
  | greater
  | greaterEqual
  | plus
  | minus
  | star
  | slash
  | slashSlash
  | starStar
  deriving Repr, DecidableEq

namespace Sign

/-- The kind of the tokens that show a sign. -/
def kind : Sign → TokenKind
  | .equal => .equal
  | .notEqual => .notEqual
  | .less => .less
  | .lessEqual => .lessEqual
  | .greater => .greater
  | .greaterEqual => .greaterEqual
  | .plus => .plus
  | .minus => .minus
  | .star => .star
  | .slash => .slash
  | .slashSlash => .slashSlash
  | .starStar => .starStar

/-- The level at which a sign joins operands. -/
def level : Sign → BindingLevel
  | .equal | .notEqual => .equality
  | .less | .lessEqual | .greater | .greaterEqual => .comparison
  | .plus | .minus => .term
  | .star | .slash | .slashSlash => .factor
  | .starStar => .power

end Sign

/-- Expressions with the tokens that they were read from. -/
inductive Expression where
  | number (token : Token)
  | group (opening : Token) (inner : Expression) (closing : Token)
  | binary (left : Expression) (sign : Sign) (operator : Token) (right : Expression)
  deriving Repr

namespace Expression

/-- The number tokens of an expression in their order. -/
def literals : Expression → List Token
  | .number token => [token]
  | .group _ inner _ => inner.literals
  | .binary left _ _ right => left.literals ++ right.literals

/-- The last token of an expression. -/
def last : Expression → Token
  | .number token => token
  | .group _ _ closing => closing
  | .binary _ _ _ right => right.last

/-- Tokens derive from a level of the grammar, with the tree of the derivation. -/
inductive Derives : BindingLevel → List Token → Expression → Prop where
  | number
      {token : Token}
      (isNumber : token.kind.isNumber = true) :
      Derives .primary [token] (.number token)
  | group
      {opening closing : Token}
      {tokens : List Token}
      {inner : Expression}
      (opens : opening.kind = .leftParenthesis)
      (derived : Derives .equality tokens inner)
      (closes : closing.kind = .rightParenthesis) :
      Derives .primary (opening :: tokens ++ [closing]) (.group opening inner closing)
  | operand
      {level : BindingLevel}
      {tokens : List Token}
      {expression : Expression}
      (derived : Derives level.tighter tokens expression) :
      Derives level tokens expression
  | binary
      {level : BindingLevel}
      {leftTokens rightTokens : List Token}
      {left right : Expression}
      {sign : Sign}
      {operator : Token}
      (leftDerived : Derives level leftTokens left)
      (shows : operator.kind = sign.kind)
      (joins : sign.level = level)
      (rightDerived : Derives level.tighter rightTokens right) :
      Derives level (leftTokens ++ operator :: rightTokens)
        (.binary left sign operator right)

namespace Derives

/-- No token of an expression ends the input. -/
theorem kind_ne_endOfInput
    {level : BindingLevel}
    {tokens : List Token}
    {expression : Expression}
    (derived : Derives level tokens expression) :
    ∀ token ∈ tokens, token.kind ≠ .endOfInput := by
  induction derived with
  | number isNumber =>
      intro token member same
      simp only [List.mem_singleton] at member
      subst member
      simp [TokenKind.isNumber, same] at isNumber
  | group opens _ closes inductionHypothesis =>
      intro token member
      simp only [List.cons_append, List.mem_cons, List.mem_append,
        List.not_mem_nil, or_false] at member
      rcases member with rfl | inside | rfl
      · simp [opens]
      · exact inductionHypothesis token inside
      · simp [closes]
  | operand _ inductionHypothesis =>
      exact inductionHypothesis
  | @binary _ _ _ _ _ sign _ _ shows _ _ leftHypothesis rightHypothesis =>
      intro token member
      simp only [List.mem_append, List.mem_cons] at member
      rcases member with inLeft | rfl | inRight
      · exact leftHypothesis token inLeft
      · rw [shows]
        cases sign <;> simp [Sign.kind]
      · exact rightHypothesis token inRight

/-- The literals of an expression are the number tokens that it derives from. -/
theorem literals_eq
    {level : BindingLevel}
    {tokens : List Token}
    {expression : Expression}
    (derived : Derives level tokens expression) :
    expression.literals = tokens.filter (·.kind.isNumber) := by
  induction derived with
  | number isNumber =>
      simp [literals, isNumber]
  | group opens _ closes inductionHypothesis =>
      simp [literals, inductionHypothesis, opens, closes, TokenKind.isNumber]
  | operand _ inductionHypothesis =>
      exact inductionHypothesis
  | @binary _ _ _ _ _ sign operator _ shows _ _ leftHypothesis rightHypothesis =>
      have notNumber : operator.kind.isNumber = false := by
        rw [shows]
        cases sign <;> rfl
      simp [literals, leftHypothesis, rightHypothesis, notNumber]

/-- An expression starts with a number or a parenthesis. -/
theorem exists_cons
    {level : BindingLevel}
    {tokens : List Token}
    {expression : Expression}
    (derived : Derives level tokens expression) :
    ∃ first rest,
      tokens = first :: rest ∧
        (first.kind.isNumber = true ∨ first.kind = .leftParenthesis) := by
  induction derived with
  | @number token isNumber =>
      exact ⟨token, [], rfl, Or.inl isNumber⟩
  | @group opening closing tokens _ opens _ _ _ =>
      exact ⟨opening, tokens ++ [closing], rfl, Or.inr opens⟩
  | operand _ inductionHypothesis =>
      exact inductionHypothesis
  | @binary _ _ rightTokens _ _ _ operator _ _ _ _ leftHypothesis _ =>
      obtain ⟨first, rest, tokensShape, starts⟩ := leftHypothesis
      exact ⟨first, rest ++ operator :: rightTokens, by simp [tokensShape], starts⟩

/-- The last token of the tree is the last one that the expression derives from. -/
theorem exists_append_last
    {level : BindingLevel}
    {tokens : List Token}
    {expression : Expression}
    (derived : Derives level tokens expression) :
    ∃ before, tokens = before ++ [expression.last] := by
  induction derived with
  | number _ =>
      exact ⟨[], rfl⟩
  | @group opening _ tokens _ _ _ _ _ =>
      exact ⟨opening :: tokens, rfl⟩
  | operand _ inductionHypothesis =>
      exact inductionHypothesis
  | @binary _ leftTokens _ _ _ _ operator _ _ _ _ _ rightHypothesis =>
      obtain ⟨before, tokensShape⟩ := rightHypothesis
      exact ⟨leftTokens ++ operator :: before, by simp [tokensShape, last]⟩

end Derives

end Expression

/-- Statements with the tokens that they were read from. -/
inductive Statement where
  | expression (value : Expression)
  | assertion (word : Token) (condition : Expression)
  deriving Repr

namespace Statement

/-- The expression of a statement. -/
def body : Statement → Expression
  | .expression value => value
  | .assertion _ condition => condition

/-- Tokens derive as a statement, with its tree. -/
inductive Derives : List Token → Statement → Prop where
  | expression
      {tokens : List Token}
      {value : Expression}
      (derived : value.Derives .equality tokens) :
      Derives tokens (.expression value)
  | assertion
      {word : Token}
      {tokens : List Token}
      {condition : Expression}
      (asserts : word.kind = .assertWord)
      (derived : condition.Derives .equality tokens) :
      Derives (word :: tokens) (.assertion word condition)

namespace Derives

/-- No token of a statement ends the input. -/
theorem kind_ne_endOfInput
    {tokens : List Token}
    {statement : Statement}
    (derived : Derives tokens statement) :
    ∀ token ∈ tokens, token.kind ≠ .endOfInput := by
  cases derived with
  | expression derived =>
      exact derived.kind_ne_endOfInput
  | assertion asserts derived =>
      intro token member
      rcases List.mem_cons.mp member with rfl | inside
      · simp [asserts]
      · exact derived.kind_ne_endOfInput token inside

/-- The literals of a statement are the number tokens that it derives from. -/
theorem literals_eq
    {tokens : List Token}
    {statement : Statement}
    (derived : Derives tokens statement) :
    statement.body.literals = tokens.filter (·.kind.isNumber) := by
  cases derived with
  | expression derived =>
      exact derived.literals_eq
  | assertion asserts derived =>
      simpa [body, asserts, TokenKind.isNumber] using derived.literals_eq

/-- A statement starts with a number, a parenthesis or the word that asserts. -/
theorem exists_cons
    {tokens : List Token}
    {statement : Statement}
    (derived : Derives tokens statement) :
    ∃ first rest,
      tokens = first :: rest ∧
        (first.kind.isNumber = true ∨ first.kind = .leftParenthesis ∨
          first.kind = .assertWord) := by
  cases derived with
  | expression derived =>
      obtain ⟨first, rest, tokensShape, starts⟩ := derived.exists_cons
      exact ⟨first, rest, tokensShape, starts.imp_right Or.inl⟩
  | @assertion word tokens _ asserts _ =>
      exact ⟨word, tokens, rfl, Or.inr (Or.inr asserts)⟩

end Derives

end Statement

/-- A program as a sequence of statements. -/
abbrev Script := List Statement

namespace Script

/-- The number tokens of a program in their order. -/
def literals (script : Script) : List Token :=
  script.flatMap (·.body.literals)

/-- Tokens derive as a program: statement by statement, with nothing between them. -/
inductive Derives : List Token → Script → Prop where
  | nil :
      Derives [] []
  | cons
      {tokens rest : List Token}
      {statement : Statement}
      {script : Script}
      (first : statement.Derives tokens)
      (following : Derives rest script) :
      Derives (tokens ++ rest) (statement :: script)

namespace Derives

/-- No token of a program ends the input. -/
theorem kind_ne_endOfInput
    {tokens : List Token}
    {script : Script}
    (derived : Derives tokens script) :
    ∀ token ∈ tokens, token.kind ≠ .endOfInput := by
  induction derived with
  | nil =>
      simp
  | cons first _ inductionHypothesis =>
      intro token member
      rcases List.mem_append.mp member with inFirst | inRest
      · exact first.kind_ne_endOfInput token inFirst
      · exact inductionHypothesis token inRest

/-- The literals of a program are the number tokens that it derives from. -/
theorem literals_eq
    {tokens : List Token}
    {script : Script}
    (derived : Derives tokens script) :
    literals script = tokens.filter (·.kind.isNumber) := by
  induction derived with
  | nil =>
      rfl
  | cons first _ inductionHypothesis =>
      rw [List.filter_append, ← inductionHypothesis, ← first.literals_eq]
      rfl

end Derives

end Script

end Reckon
