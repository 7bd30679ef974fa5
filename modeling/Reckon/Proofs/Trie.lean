import Reckon.Trie

namespace Reckon

/-!
# What tries find

A trie built from a table holds the lexemes of the table and no others, and the walk over a text
ends with the longest of them at its front.
-/

namespace Forest

variable {α : Type}

/-- Adding a lexeme changes the tree of its first character only. -/
theorem child?_insert
    (forest : Forest α)
    (kind : α)
    (char : Char)
    (rest : List Char)
    (other : Char) :
    (forest.insert kind char rest).child? other =
      if char = other then
        some (((forest.child? other).getD .empty).insert rest kind)
      else
        forest.child? other := by
  induction forest generalizing char rest with
  | empty =>
      cases rest with
      | nil =>
          simp [insert, single, child?, Trie.insert, Trie.empty]
      | cons next rest =>
          simp [insert, single, child?, Trie.insert, Trie.empty]
  | tree label kind? below beside _ besideHypothesis =>
      rw [insert.eq_def]
      simp only
      by_cases here : label = char
      · subst here
        by_cases same : label = other
        · cases rest <;> simp [child?, same, Trie.insert]
        · cases rest <;> simp [child?, same]
      · rw [if_neg here]
        by_cases same : label = other
        · subst same
          simp [child?, Ne.symm here]
        · simp only [child?, if_neg same, besideHypothesis]

end Forest

namespace Trie

variable {α : Type}

/-- The kind of a lexeme of the trie. -/
def find? (trie : Trie α) (lexeme : List Char) : Option α :=
  (trie.walk? lexeme).bind (·.kind?)

/-- A lexeme is looked up below its first character. -/
theorem find?_cons
    (trie : Trie α)
    (char : Char)
    (rest : List Char) :
    trie.find? (char :: rest) = (trie.child? char).bind (·.find? rest) := by
  simp only [find?, walk?, bind]
  cases trie.child? char <;> rfl

@[simp] theorem find?_empty
    (lexeme : List Char) :
    (empty : Trie α).find? lexeme = none := by
  cases lexeme <;> rfl

/-- Adding a lexeme changes the node of its first character only. -/
theorem child?_insert_cons
    (trie : Trie α)
    (char : Char)
    (rest : List Char)
    (kind : α)
    (other : Char) :
    (trie.insert (char :: rest) kind).child? other =
      if char = other then
        some (((trie.child? other).getD empty).insert rest kind)
      else
        trie.child? other :=
  trie.below.child?_insert kind char rest other

/-- A lexeme that is added is there, and all others are as they were. -/
theorem find?_insert
    (trie : Trie α)
    (lexeme : List Char)
    (kind : α)
    (other : List Char) :
    (trie.insert lexeme kind).find? other =
      if lexeme = other then some kind else trie.find? other := by
  induction lexeme generalizing trie other with
  | nil =>
      cases other with
      | nil => rfl
      | cons char rest => rfl
  | cons char rest inductionHypothesis =>
      cases other with
      | nil => rfl
      | cons next more =>
          rw [find?_cons, find?_cons, child?_insert_cons]
          by_cases same : char = next
          · subst same
            rw [if_pos rfl, Option.bind_some, inductionHypothesis]
            cases trie.child? char with
            | none => simp
            | some child => simp
          · simp [same]

/--
The trie of a table holds the entries of the table.  Each is added to a trie that lacks it, so none
is replaced.
-/
theorem find?_ofList_eq_some_iff
    {table : List (String × α)}
    (distinct : (table.map (·.1)).Nodup)
    {lexeme : List Char}
    {kind : α} :
    (ofList table).find? lexeme = some kind ↔ (String.ofList lexeme, kind) ∈ table := by
  suffices
      ∀ trie : Trie α,
        (∀ entry ∈ table, trie.find? entry.1.toList = none) →
        ((table.foldl (fun trie entry => trie.insert entry.1.toList entry.2) trie).find? lexeme =
            some kind ↔
          trie.find? lexeme = some kind ∨ (String.ofList lexeme, kind) ∈ table) by
    simpa [ofList] using this empty
  induction table with
  | nil =>
      simp
  | cons entry table inductionHypothesis =>
      intro trie fresh
      obtain ⟨unlisted, distinctRest⟩ := List.nodup_cons.mp distinct
      have freshRest :
          ∀ other ∈ table, (trie.insert entry.1.toList entry.2).find? other.1.toList = none := by
        intro other member
        have differ : entry.1.toList ≠ other.1.toList := by
          intro same
          rw [String.toList_inj] at same
          exact unlisted (List.mem_map.mpr ⟨other, member, same.symm⟩)
        rw [find?_insert, if_neg differ]
        exact fresh other (List.mem_cons_of_mem _ member)
      rw [List.foldl_cons, inductionHypothesis distinctRest _ freshRest, find?_insert]
      by_cases same : entry.1.toList = lexeme
      · subst same
        have absent := fresh entry List.mem_cons_self
        simp [absent, Prod.ext_iff, eq_comm]
      · have differ : String.ofList lexeme ≠ entry.1 := by
          rintro named
          rw [← named, String.toList_ofList] at same
          exact same rfl
        simp [same, Prod.ext_iff, differ]

/-- The lexeme is the longest one of the trie, other than the empty one, at the front of a text. -/
structure FindsLongest
    (trie : Trie α)
    (text lexeme : List Char)
    (kind : α) :
    Prop where
  present : lexeme ≠ []
  front : lexeme <+: text
  found : trie.find? lexeme = some kind
  longest :
    ∀ other,
      other <+: text →
      (trie.find? other).isSome = true →
      other.length ≤ lexeme.length

/-- No lexeme of the trie but the empty one is at the front of a text. -/
def FindsNone (trie : Trie α) (text : List Char) : Prop :=
  ∀ lexeme, lexeme <+: text → lexeme ≠ [] → trie.find? lexeme = none

section Below

variable
  {trie child : Trie α}
  {char : Char}
  {rest : List Char}
  (below : ∀ more, trie.find? (char :: more) = child.find? more)

include below

/-- The longest match below a character is the longest with the character in front. -/
theorem FindsLongest.cons
    {lexeme : List Char}
    {kind : α}
    (longest : child.FindsLongest rest lexeme kind) :
    trie.FindsLongest (char :: rest) (char :: lexeme) kind where
  present := List.cons_ne_nil _ _
  front := List.cons_prefix_cons.mpr ⟨rfl, longest.front⟩
  found := (below lexeme).trans longest.found
  longest := by
    rintro (_ | ⟨next, more⟩) front found
    · exact Nat.zero_le _
    · obtain ⟨rfl, frontBelow⟩ := List.cons_prefix_cons.mp front
      rw [below] at found
      exact Nat.succ_le_succ (longest.longest more frontBelow found)

/-- A lexeme of one character is the longest one if none goes on behind it. -/
theorem FindsNone.findsLongest_cons
    (noneBelow : child.FindsNone rest)
    {kind : α}
    (here : child.kind? = some kind) :
    trie.FindsLongest (char :: rest) [char] kind where
  present := List.cons_ne_nil _ _
  front := List.cons_prefix_cons.mpr ⟨rfl, List.nil_prefix⟩
  found := (below []).trans here
  longest := by
    rintro (_ | ⟨next, more⟩) front found
    · exact Nat.zero_le _
    · obtain ⟨rfl, frontBelow⟩ := List.cons_prefix_cons.mp front
      rw [below] at found
      by_cases ends : more = []
      · subst ends
        exact Nat.le_refl _
      · simp [noneBelow more frontBelow ends] at found

theorem FindsNone.cons
    (noneBelow : child.FindsNone rest)
    (here : child.kind? = none) :
    trie.FindsNone (char :: rest) := by
  rintro (_ | ⟨next, more⟩) front present
  · exact (present rfl).elim
  · obtain ⟨rfl, frontBelow⟩ := List.cons_prefix_cons.mp front
    rw [below]
    by_cases ends : more = []
    · subst ends
      exact here
    · exact noneBelow more frontBelow ends

end Below

/-- A walk ends with the longest lexeme on the way, or with what it started from. -/
theorem deepest_cases
    (trie : Trie α)
    (depth : Nat)
    (best : Option (α × Nat))
    (text : List Char) :
    (∃ lexeme kind,
        trie.FindsLongest text lexeme kind ∧
          trie.deepest depth best text = some (kind, depth + lexeme.length)) ∨
      trie.FindsNone text ∧ trie.deepest depth best text = best := by
  induction text generalizing trie depth best with
  | nil =>
      refine Or.inr ⟨fun lexeme front present => ?_, rfl⟩
      exact (present (List.prefix_nil.mp front)).elim
  | cons char rest inductionHypothesis =>
      rw [deepest]
      cases reached : trie.child? char with
      | none =>
          refine Or.inr ⟨fun lexeme front present => ?_, rfl⟩
          obtain ⟨next, more, rfl⟩ := List.exists_cons_of_ne_nil present
          obtain ⟨rfl, _⟩ := List.cons_prefix_cons.mp front
          rw [find?_cons, reached, Option.bind_none]
      | some child =>
          simp only
          have below :
              ∀ more, trie.find? (char :: more) = child.find? more := by
            intro more
            rw [find?_cons, reached, Option.bind_some]
          rcases inductionHypothesis child (depth + 1) _ with
            ⟨lexeme, kind, longest, found⟩ | ⟨noneBelow, found⟩
          · refine Or.inl ⟨char :: lexeme, kind, longest.cons below, ?_⟩
            rw [found, List.length_cons, Nat.add_assoc, Nat.add_comm 1]
          · rw [found]
            cases here : child.kind? with
            | some kind =>
                exact Or.inl ⟨[char], kind, noneBelow.findsLongest_cons below here, rfl⟩
            | none =>
                exact Or.inr ⟨noneBelow.cons below here, rfl⟩

/-- The longest match is the longest lexeme at the front of a text. -/
theorem findsLongest_of_longestMatch
    {trie : Trie α}
    {text : List Char}
    {kind : α}
    {length : Nat}
    (matched : trie.longestMatch text = some (kind, length)) :
    trie.FindsLongest text (text.take length) kind := by
  rcases trie.deepest_cases 0 none text with ⟨lexeme, found, longest, walked⟩ | ⟨_, walked⟩
  · obtain ⟨rfl, rfl⟩ := Prod.mk.inj (Option.some.inj (matched.symm.trans walked))
    rw [Nat.zero_add, ← List.prefix_iff_eq_take.mp longest.front]
    exact longest
  · cases matched.symm.trans walked

/-- Nothing matches where no match is found. -/
theorem findsNone_of_longestMatch
    {trie : Trie α}
    {text : List Char}
    (unmatched : trie.longestMatch text = none) :
    trie.FindsNone text := by
  rcases trie.deepest_cases 0 none text with ⟨lexeme, kind, _, walked⟩ | ⟨findsNone, _⟩
  · cases unmatched.symm.trans walked
  · exact findsNone

end Trie

end Reckon
