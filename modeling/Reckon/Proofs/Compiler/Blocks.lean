import Reckon.Compiler.Scope

namespace Reckon

/-!
# Blocks of names

Programs enter blocks, declare names in them and leave them.  The blocks that are open form a stack;
a name means its declaration in the innermost block that has one.  A run that leaves every block
that it enters gives back the blocks that were open before.
-/

/-- A local that can be read. -/
def Local.readable (depth : Int) (name : Token) : Local :=
  { name := name, depth := depth, captured := false }

theorem Local.exists_cons_append
    (inner : List Local)
    {rest : List Local}
    (more : rest ≠ []) :
    ∃ next others, inner ++ rest = next :: others :=
  List.exists_cons_of_ne_nil (List.append_ne_nil_of_right_ne_nil inner more)

/-- The blocks that are open, the innermost first, each with its names, the newest first. -/
abbrev Blocks := List (List Token)

namespace Blocks

/-- How many names can be declared at a time; the function itself has the slot that is left. -/
def capacity : Nat := 255

/-- A name of the block has the text. -/
def Declares (source : List Char) (block : List Token) (text : List Char) : Prop :=
  ∃ name ∈ block, name.text? source = some text

instance (source : List Char) (block : List Token) (text : List Char) :
    Decidable (Declares source block text) :=
  inferInstanceAs (Decidable (∃ name ∈ block, name.text? source = some text))

/-- A block declares the name of its newest token and those of the older ones. -/
theorem declares_cons_iff
    {source text : List Char}
    {newest : Token}
    {older : List Token} :
    Declares source (newest :: older) text ↔
      newest.text? source = some text ∨ Declares source older text := by
  simp [Declares]

/-- No name with the text can be declared in the innermost block. -/
def Refuses
    (source : List Char)
    (block : List Token)
    (outer : Blocks)
    (text : List Char) :
    Prop :=
  capacity ≤ (block :: outer).flatten.length ∨ Declares source block text

instance (source : List Char) (block : List Token) (outer : Blocks) (text : List Char) :
    Decidable (Refuses source block outer text) :=
  inferInstanceAs (Decidable (_ ∨ _))

/-- Declare a name in the innermost block, unless it is refused there. -/
def declare (source : List Char) (name : Token) : Blocks → Blocks
  | [] => []
  | block :: outer =>
      match name.text? source with
      | none => block :: outer
      | some text =>
          if Refuses source block outer text then
            block :: outer
          else
            (name :: block) :: outer

/-- Declaring a name leaves the outer blocks as they are. -/
theorem exists_declare_eq
    (source : List Char)
    (name : Token)
    (block : List Token)
    (outer : Blocks) :
    ∃ inner, declare source name (block :: outer) = inner :: outer := by
  unfold declare
  simp only
  split
  · exact ⟨_, rfl⟩
  · split <;> exact ⟨_, rfl⟩

/-- The place of a text among the names of a block, counted from the oldest on. -/
def place? (source text : List Char) : List Token → Option Nat
  | [] => none
  | newest :: older =>
      if newest.text? source = some text then
        some (older.length + 1)
      else
        place? source text older

/--
The slot of a text.  The innermost block that declares it counts, and slots are given in the order
in which names are declared.
-/
def slot? (source text : List Char) : Blocks → Option Nat
  | [] => none
  | block :: outer =>
      match place? source text block with
      | some place => some (outer.flatten.length + place)
      | none => slot? source text outer

/-- A place in a block is counted from one up to its length. -/
theorem place?_bounds
    {source text : List Char}
    {block : List Token}
    {place : Nat}
    (found : place? source text block = some place) :
    1 ≤ place ∧ place ≤ block.length := by
  induction block with
  | nil =>
      cases found
  | cons newest older inductionHypothesis =>
      rw [place?] at found
      rw [List.length_cons]
      split at found
      next =>
        cases found
        omega
      next =>
        have := inductionHypothesis found
        omega

/-- Slots are counted from one on, and there are no more of them than names. -/
theorem slot?_bounds
    {source text : List Char}
    {blocks : Blocks}
    {slot : Nat}
    (found : slot? source text blocks = some slot) :
    1 ≤ slot ∧ slot ≤ blocks.flatten.length := by
  induction blocks with
  | nil =>
      cases found
  | cons block outer inductionHypothesis =>
      rw [slot?] at found
      rw [List.flatten_cons, List.length_append]
      split at found
      next place placed =>
        have := place?_bounds placed
        cases found
        omega
      next =>
        have := inductionHypothesis found
        omega

/-- A name has no place in the blocks that do not declare it. -/
theorem place?_eq_none_iff
    {source text : List Char}
    {block : List Token} :
    place? source text block = none ↔ ¬ Declares source block text := by
  induction block with
  | nil =>
      simp [place?, Declares]
  | cons newest older inductionHypothesis =>
      rw [place?, declares_cons_iff, not_or, ← inductionHypothesis]
      split
      next same =>
        simp [same]
      next other =>
        simp [other]

/-- A text has no slot if no block declares it. -/
theorem slot?_eq_none_iff
    {source text : List Char}
    {blocks : Blocks} :
    slot? source text blocks = none ↔ ∀ block ∈ blocks, ¬ Declares source block text := by
  induction blocks with
  | nil =>
      simp [slot?]
  | cons block outer inductionHypothesis =>
      rw [slot?, List.forall_mem_cons, ← place?_eq_none_iff, ← inductionHypothesis]
      cases place? source text block <;> simp

/-- The locals of the blocks; the outermost block has depth one. -/
def locals : Blocks → List Local
  | [] => [Local.callee]
  | block :: outer =>
      block.map (Local.readable (outer.length + 1)) ++ locals outer

/-- There is a local for each name, and one for the function itself. -/
theorem length_locals
    (blocks : Blocks) :
    blocks.locals.length = blocks.flatten.length + 1 := by
  induction blocks with
  | nil =>
      rfl
  | cons block outer inductionHypothesis =>
      rw [locals, List.length_append, List.length_map, inductionHypothesis, List.flatten_cons,
        List.length_append, Nat.add_assoc]

/-- There is always a local for the function itself. -/
theorem locals_ne_nil
    (blocks : Blocks) :
    blocks.locals ≠ [] := by
  rw [← List.length_pos_iff, length_locals]
  exact Nat.succ_pos _

end Blocks

/-- What a program does to the blocks of a compiler. -/
inductive ScopeAction where
  | enter
  | leave
  | declare (name : Token)
  deriving Repr, DecidableEq

namespace ScopeAction

/--
How many blocks are open after some actions, given how many are open before.  A block can only be
left, and a name only be declared, if one is open.
-/
def opened? : Nat → List ScopeAction → Option Nat
  | opened, [] => some opened
  | opened, .enter :: actions => opened? (opened + 1) actions
  | opened + 1, .leave :: actions => opened? opened actions
  | opened + 1, .declare _ :: actions => opened? (opened + 1) actions
  | 0, _ => none

/-- The blocks after an action. -/
def onBlocks (source : List Char) (blocks : Blocks) : ScopeAction → Blocks
  | .enter => [] :: blocks
  | .leave => blocks.tail
  | .declare name => Blocks.declare source name blocks

/-- The blocks after actions one after the other. -/
def perform (source : List Char) (blocks : Blocks) (actions : List ScopeAction) : Blocks :=
  actions.foldl (onBlocks source) blocks

/-- An allowed run is an allowed action and an allowed run of the blocks behind it. -/
theorem opened?_cons
    {blocks : Blocks}
    {action : ScopeAction}
    {actions : List ScopeAction}
    {opened : Nat}
    (source : List Char)
    (allowed : opened? blocks.length (action :: actions) = some opened) :
    (action = .enter ∨ blocks ≠ []) ∧
      opened? (onBlocks source blocks action).length actions = some opened := by
  cases action with
  | enter =>
      exact ⟨Or.inl rfl, allowed⟩
  | leave =>
      cases blocks with
      | nil =>
          cases allowed
      | cons block outer =>
          exact ⟨Or.inr (List.cons_ne_nil _ _), allowed⟩
  | declare name =>
      cases blocks with
      | nil =>
          cases allowed
      | cons block outer =>
          obtain ⟨inner, declared⟩ := Blocks.exists_declare_eq source name block outer
          refine ⟨Or.inr (List.cons_ne_nil _ _), ?_⟩
          rw [onBlocks, declared]
          exact allowed

/-- Further blocks around those that are open do not matter. -/
theorem opened?_add
    {before opened : Nat}
    {actions : List ScopeAction}
    (allowed : opened? before actions = some opened)
    (outer : Nat) :
    opened? (before + outer) actions = some (opened + outer) := by
  induction actions generalizing before with
  | nil =>
      cases allowed
      rfl
  | cons action actions inductionHypothesis =>
      cases action with
      | enter =>
          have onward := inductionHypothesis allowed
          rw [Nat.add_right_comm] at onward
          exact onward
      | leave =>
          cases before with
          | zero =>
              cases allowed
          | succ before =>
              rw [Nat.add_right_comm]
              exact @inductionHypothesis before allowed
      | declare name =>
          cases before with
          | zero =>
              cases allowed
          | succ before =>
              have onward := @inductionHypothesis (before + 1) allowed
              rw [Nat.add_right_comm] at onward ⊢
              exact onward

/-- What a run does, it does to the blocks that it has opened. -/
theorem exists_perform_append
    {source : List Char}
    {inner : Blocks}
    {actions : List ScopeAction}
    {opened : Nat}
    (allowed : opened? inner.length actions = some opened)
    (outer : Blocks) :
    ∃ left : Blocks,
      perform source (inner ++ outer) actions = left ++ outer ∧ left.length = opened := by
  induction actions generalizing inner with
  | nil =>
      cases allowed
      exact ⟨inner, rfl, rfl⟩
  | cons action actions inductionHypothesis =>
      cases action with
      | enter =>
          exact @inductionHypothesis ([] :: inner) allowed
      | leave =>
          cases inner with
          | nil =>
              cases allowed
          | cons block inner =>
              exact @inductionHypothesis inner allowed
      | declare name =>
          cases inner with
          | nil =>
              cases allowed
          | cons block inner =>
              obtain ⟨changed, declared⟩ :=
                Blocks.exists_declare_eq source name block (inner ++ outer)
              have onward := @inductionHypothesis (changed :: inner) allowed
              rw [List.cons_append, ← declared] at onward
              exact onward

end ScopeAction

end Reckon
