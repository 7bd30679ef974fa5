namespace Reckon

/-!
# Tries

A trie holds lexemes character by character, so that the longest lexeme at the front of a text is
found in one walk.  The children of a node form a forest, written as the first child with what is
below it and what is beside it.
-/

/-- The trees below a node: a first tree, what hangs below its root, and the trees beside it. -/
inductive Forest (α : Type) where
  | empty
  | tree (char : Char) (kind? : Option α) (below beside : Forest α)
  deriving Repr, DecidableEq

/-- A node: the kind of the lexeme that ends at it, if one does, and the trees below. -/
structure Trie (α : Type) where
  kind? : Option α
  below : Forest α
  deriving Repr, DecidableEq

namespace Forest

variable {α : Type}

/-- The root of the tree that a character leads to. -/
def child? (forest : Forest α) (char : Char) : Option (Trie α) :=
  match forest with
  | .empty => none
  | .tree label kind? below beside =>
      if label = char then some { kind? := kind?, below := below } else beside.child? char

/-- The forest that holds one lexeme only, given by its first character and the rest. -/
def single (kind : α) : Char → List Char → Forest α
  | char, [] => .tree char (some kind) .empty .empty
  | char, next :: rest => .tree char none (single kind next rest) .empty

/-- Add a lexeme, given by its first character and the rest. -/
def insert
    (kind : α) :
    Forest α → Char → List Char → Forest α
  | .empty, char, rest => single kind char rest
  | .tree label kind? below beside, char, rest =>
      if label = char then
        match rest with
        | [] => .tree label (some kind) below beside
        | next :: rest => .tree label kind? (below.insert kind next rest) beside
      else
        .tree label kind? below (beside.insert kind char rest)

end Forest

namespace Trie

variable {α : Type}

/-- A trie without lexemes. -/
def empty : Trie α :=
  { kind? := none, below := .empty }

/-- Add a lexeme of a kind, in place of an equal lexeme that was there. -/
def insert
    (trie : Trie α)
    (lexeme : List Char)
    (kind : α) :
    Trie α :=
  match lexeme with
  | [] => { trie with kind? := some kind }
  | char :: rest => { trie with below := trie.below.insert kind char rest }

/-- The trie of a table of lexemes. -/
def ofList (table : List (String × α)) : Trie α :=
  table.foldl (fun trie entry => trie.insert entry.1.toList entry.2) empty

/-- The node that a character leads to. -/
def child? (trie : Trie α) (char : Char) : Option (Trie α) :=
  trie.below.child? char

/-- The node that a sequence of characters leads to. -/
def walk? (trie : Trie α) : List Char → Option (Trie α)
  | [] => some trie
  | char :: rest => do
      let child ← trie.child? char
      child.walk? rest

/-- The kind and length of the deepest lexeme on the way, beside the best one found so far. -/
def deepest
    (trie : Trie α)
    (depth : Nat)
    (best : Option (α × Nat)) :
    List Char → Option (α × Nat)
  | [] => best
  | char :: rest =>
      match trie.child? char with
      | none => best
      | some child =>
          let found :=
            match child.kind? with
            | some kind => some (kind, depth + 1)
            | none => best
          child.deepest (depth + 1) found rest

/-- The kind and length of the longest lexeme, other than the empty one, at the front of a text. -/
def longestMatch (trie : Trie α) (text : List Char) : Option (α × Nat) :=
  trie.deepest 0 none text

/--
The longest lexeme at a position of a text.  There is no answer at all for a position before the
first character.
-/
def longestMatchAt?
    (trie : Trie α)
    (text : List Char)
    (position : Int) :
    Option (Option (α × Nat)) :=
  match position with
  | .ofNat before => some (trie.longestMatch (text.drop before))
  | .negSucc _ => none

end Trie

end Reckon
