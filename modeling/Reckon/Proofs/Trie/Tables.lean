import Reckon.Proofs.Trie

namespace Reckon

/-!
# Tries of tables

A trie is built by adding the entries of a table one after the other.  Adding a lexeme opens the
way along it and leaves every other way as it was, so that the order of the entries does not show:
the fronts of the lexemes are reached and nothing else, and the longest match is the longest entry.
-/

namespace Trie

variable {α : Type}

/-! ### The ways of a trie -/

/-- No character leads anywhere in a trie without lexemes. -/
theorem isSome_walk?_empty_iff
    {word : List Char} :
    ((empty : Trie α).walk? word).isSome = true ↔ word = [] := by
  cases word with
  | nil => simp [walk?]
  | cons char rest => simp [walk?, child?, empty, Forest.child?]

/--
Adding a lexeme opens the way along it, and closes none.  Below a new node, the way goes along the
rest of the lexeme only.
-/
theorem isSome_walk?_insert_iff
    {trie : Trie α}
    {lexeme word : List Char}
    {kind : α} :
    ((trie.insert lexeme kind).walk? word).isSome = true ↔
      (trie.walk? word).isSome = true ∨ word <+: lexeme := by
  induction lexeme generalizing trie word with
  | nil =>
      cases word with
      | nil => simp [walk?]
      | cons char rest =>
          have same : (trie.insert [] kind).walk? (char :: rest) = trie.walk? (char :: rest) := rfl
          simp [same]
  | cons char rest inductionHypothesis =>
      cases word with
      | nil => simp [walk?]
      | cons next more =>
          rw [walk?, walk?, child?_insert_cons, List.cons_prefix_cons]
          by_cases same : char = next
          · subst same
            rw [if_pos rfl, Option.bind_eq_bind, Option.bind_some, inductionHypothesis]
            cases trie.child? char with
            | none =>
                have newBelow : more = [] ∨ more <+: rest ↔ more <+: rest := by
                  refine or_iff_right_of_imp ?_
                  rintro rfl
                  exact List.nil_prefix
                simp [isSome_walk?_empty_iff, newBelow]
            | some child => simp
          · simp [same, Ne.symm same]

/-- In the trie of a table, the fronts of the lexemes are reached, and nothing else. -/
theorem isSome_walk?_ofList_iff
    {table : List (String × α)}
    {word : List Char} :
    ((ofList table).walk? word).isSome = true ↔
      word = [] ∨ ∃ entry ∈ table, word <+: entry.1.toList := by
  suffices
      ∀ trie : Trie α,
        ((table.foldl (fun trie entry => trie.insert entry.1.toList entry.2) trie).walk?
            word).isSome = true ↔
          (trie.walk? word).isSome = true ∨ ∃ entry ∈ table, word <+: entry.1.toList by
    rw [ofList, this, isSome_walk?_empty_iff]
  induction table with
  | nil => simp
  | cons entry table inductionHypothesis =>
      intro trie
      rw [List.foldl_cons, inductionHypothesis, isSome_walk?_insert_iff]
      simp only [List.mem_cons, exists_eq_or_imp, or_assoc]

/-! ### The longest match -/

/-- Two lexemes of a trie that are the longest at the front of one text are the same. -/
theorem FindsLongest.unique
    {trie : Trie α}
    {text lexeme other : List Char}
    {kind otherKind : α}
    (longest : trie.FindsLongest text lexeme kind)
    (alsoLongest : trie.FindsLongest text other otherKind) :
    lexeme = other ∧ kind = otherKind := by
  have atMost := alsoLongest.longest lexeme longest.front (by rw [longest.found]; rfl)
  have atLeast := longest.longest other alsoLongest.front (by rw [alsoLongest.found]; rfl)
  have same : lexeme = other :=
    (List.prefix_of_prefix_length_le longest.front alsoLongest.front atMost).eq_of_length_le
      atLeast
  subst same
  exact ⟨rfl, Option.some.inj (longest.found.symm.trans alsoLongest.found)⟩

/-- The longest match is there if some lexeme but the empty one is at the front of the text. -/
theorem isSome_longestMatch_iff
    {trie : Trie α}
    {text : List Char} :
    (trie.longestMatch text).isSome = true ↔
      ∃ lexeme, lexeme ≠ [] ∧ lexeme <+: text ∧ (trie.find? lexeme).isSome = true := by
  constructor
  · intro matched
    obtain ⟨⟨kind, length⟩, matched⟩ := Option.isSome_iff_exists.mp matched
    have longest := findsLongest_of_longestMatch matched
    exact ⟨_, longest.present, longest.front, by rw [longest.found]; rfl⟩
  · rintro ⟨lexeme, present, front, found⟩
    cases matched : trie.longestMatch text with
    | some => rfl
    | none => simp [findsNone_of_longestMatch matched lexeme front present] at found

/-- What is matched is the longest lexeme at the front, with its length. -/
theorem longestMatch_eq_some_iff
    {trie : Trie α}
    {text : List Char}
    {kind : α}
    {length : Nat} :
    trie.longestMatch text = some (kind, length) ↔
      ∃ lexeme, trie.FindsLongest text lexeme kind ∧ lexeme.length = length := by
  rcases trie.deepest_cases 0 none text with
    ⟨found, foundKind, longest, walked⟩ | ⟨findsNone, walked⟩
  · rw [longestMatch, walked, Nat.zero_add]
    constructor
    · rintro ⟨⟩
      exact ⟨found, longest, rfl⟩
    · rintro ⟨lexeme, alsoLongest, rfl⟩
      obtain ⟨rfl, rfl⟩ := longest.unique alsoLongest
      rfl
  · rw [longestMatch, walked]
    constructor
    · rintro ⟨⟩
    · rintro ⟨lexeme, longest, _⟩
      cases (findsNone lexeme longest.front longest.present).symm.trans longest.found

/-! ### Tables -/

/-- The entry is the longest one of a table, the empty lexeme apart, at the front of a text. -/
structure LongestEntry
    (table : List (String × α))
    (text : List Char)
    (lexeme : String)
    (kind : α) :
    Prop where
  listed : (lexeme, kind) ∈ table
  present : lexeme ≠ ""
  front : lexeme.toList <+: text
  longest :
    ∀ other ∈ table,
      other.1.toList <+: text →
      other.1.length ≤ lexeme.length

/-- The longest entry does not depend on the order of the table. -/
theorem LongestEntry.perm
    {table order : List (String × α)}
    {text : List Char}
    {lexeme : String}
    {kind : α}
    (entry : LongestEntry table text lexeme kind)
    (ordered : table.Perm order) :
    LongestEntry order text lexeme kind :=
  { entry with
    listed := ordered.mem_iff.mp entry.listed
    longest := fun other member => entry.longest other (ordered.mem_iff.mpr member) }

section Distinct

variable
  {table : List (String × α)}
  (distinct : (table.map (·.1)).Nodup)

include distinct

/-- Every entry of a table is found. -/
theorem find?_ofList_of_mem
    {entry : String × α}
    (member : entry ∈ table) :
    (ofList table).find? entry.1.toList = some entry.2 := by
  rw [find?_ofList_eq_some_iff distinct, String.ofList_toList]
  exact member

/-- What a trie finds longest is the longest entry of the table that it is built from. -/
theorem findsLongest_ofList_iff
    {text : List Char}
    {lexeme : String}
    {kind : α} :
    (ofList table).FindsLongest text lexeme.toList kind ↔ LongestEntry table text lexeme kind := by
  constructor
  · intro longest
    have listed := (find?_ofList_eq_some_iff distinct).mp longest.found
    rw [String.ofList_toList] at listed
    refine
      { listed := listed
        present := fun absent => longest.present (by rw [absent]; rfl)
        front := longest.front
        longest := fun other member front => ?_ }
    have found := find?_ofList_of_mem distinct member
    have atMost := longest.longest other.1.toList front (by rw [found]; rfl)
    rwa [String.length_toList, String.length_toList] at atMost
  · intro entry
    refine
      { present := fun absent => entry.present (String.toList_eq_nil_iff.mp absent)
        front := entry.front
        found := find?_ofList_of_mem distinct entry.listed
        longest := fun other front found => ?_ }
    obtain ⟨otherKind, found⟩ := Option.isSome_iff_exists.mp found
    have listed := (find?_ofList_eq_some_iff distinct).mp found
    have atMost := entry.longest _ listed (by rwa [String.toList_ofList])
    rwa [String.length_ofList, ← String.length_toList] at atMost

/-- Something is matched if an entry with characters stands at the front. -/
theorem isSome_longestMatch_ofList_iff
    {text : List Char} :
    ((ofList table).longestMatch text).isSome = true ↔
      ∃ entry ∈ table, entry.1 ≠ "" ∧ entry.1.toList <+: text := by
  rw [isSome_longestMatch_iff]
  constructor
  · rintro ⟨lexeme, present, front, found⟩
    obtain ⟨kind, found⟩ := Option.isSome_iff_exists.mp found
    refine ⟨_, (find?_ofList_eq_some_iff distinct).mp found, ?_, ?_⟩
    · simpa using present
    · rwa [String.toList_ofList]
  · rintro ⟨entry, member, present, front⟩
    refine ⟨_, fun absent => present (String.toList_eq_nil_iff.mp absent), front, ?_⟩
    rw [find?_ofList_of_mem distinct member]
    rfl

/-- What is matched is the longest entry of the table, with its length. -/
theorem longestMatch_ofList_eq_some_iff
    {text : List Char}
    {kind : α}
    {length : Nat} :
    (ofList table).longestMatch text = some (kind, length) ↔
      ∃ lexeme, LongestEntry table text lexeme kind ∧ lexeme.length = length := by
  rw [longestMatch_eq_some_iff]
  constructor
  · rintro ⟨lexeme, longest, rfl⟩
    refine ⟨String.ofList lexeme, (findsLongest_ofList_iff distinct).mp ?_, String.length_ofList⟩
    rwa [String.toList_ofList]
  · rintro ⟨lexeme, entry, rfl⟩
    exact ⟨_, (findsLongest_ofList_iff distinct).mpr entry, String.length_toList⟩

/-- The node at the end of a word has the kind that the table gives to the word. -/
theorem kind?_of_walk?_ofList
    {word : List Char}
    {node : Trie α}
    (reached : (ofList table).walk? word = some node)
    {kind : α} :
    node.kind? = some kind ↔ (String.ofList word, kind) ∈ table := by
  rw [← find?_ofList_eq_some_iff distinct, find?, reached, Option.bind_some]

end Distinct

/--
In whatever order the entries of a table are added, the search at a position finds something
exactly when a lexeme other than the empty one stands there, and then it gives the length and the
kind of the longest.  A walk from the root goes on exactly along the fronts of the lexemes, and
the node at its end carries a kind exactly when the word is a lexeme of that kind.
-/
theorem ofList_answers_as_table
    {table order : List (String × α)}
    (distinct : (table.map (·.1)).Nodup)
    (ordered : order.Perm table) :
    (∀ (text : List Char) (position : Nat),
      ∃ found,
        (ofList order).longestMatchAt? text position = some found ∧
          (found.isSome = true ↔
            ∃ entry ∈ table, entry.1 ≠ "" ∧ entry.1.toList <+: text.drop position) ∧
          ∀ kind length,
            found = some (kind, length) ↔
              ∃ lexeme,
                LongestEntry table (text.drop position) lexeme kind ∧ lexeme.length = length) ∧
      ∀ word : List Char,
        (((ofList order).walk? word).isSome = true ↔
          word = [] ∨ ∃ entry ∈ table, word <+: entry.1.toList) ∧
        ∀ node,
          (ofList order).walk? word = some node →
          ∀ kind, node.kind? = some kind ↔ (String.ofList word, kind) ∈ table := by
  have orderDistinct : (order.map (·.1)).Nodup := (ordered.map _).nodup_iff.mpr distinct
  constructor
  · intro text position
    refine ⟨(ofList order).longestMatch (text.drop position), rfl, ?_, ?_⟩
    · simp only [isSome_longestMatch_ofList_iff orderDistinct, ordered.mem_iff]
    · intro kind length
      rw [longestMatch_ofList_eq_some_iff orderDistinct]
      constructor
      · rintro ⟨lexeme, entry, sized⟩
        exact ⟨lexeme, entry.perm ordered, sized⟩
      · rintro ⟨lexeme, entry, sized⟩
        exact ⟨lexeme, entry.perm ordered.symm, sized⟩
  · intro word
    constructor
    · simp only [isSome_walk?_ofList_iff, ordered.mem_iff]
    · intro node reached kind
      rw [kind?_of_walk?_ofList orderDistinct reached, ordered.mem_iff]

/-- Lexemes of which one is empty and one is the front of another, with a node between the two. -/
def overlapping : List (String × Nat) :=
  [("", 0), ("a", 1), ("abc", 2), ("é", 3)]

theorem overlapping_answers_backwards :
    (overlapping.map (·.1)).Nodup ∧
      overlapping.reverse.Perm overlapping ∧
        (ofList overlapping.reverse).longestMatchAt? ['x', 'a', 'b', 'd'] 1 = some (some (1, 1)) ∧
          ∃ node,
            (ofList overlapping.reverse).walk? ['a', 'b'] = some node ∧ node.kind? = none := by
  have distinct : (overlapping.map (·.1)).Nodup := by
    decide
  have ordered : overlapping.reverse.Perm overlapping := List.reverse_perm _
  obtain ⟨searched, walked⟩ := ofList_answers_as_table distinct ordered
  have longest : LongestEntry overlapping ['a', 'b', 'd'] "a" 1 :=
    { listed := by decide
      present := by decide
      front := by decide
      longest := by decide }
  obtain ⟨found, answered, _, finds⟩ := searched ['x', 'a', 'b', 'd'] 1
  rw [(finds 1 1).mpr ⟨"a", longest, rfl⟩] at answered
  obtain ⟨reaches, ends⟩ := walked ['a', 'b']
  obtain ⟨node, reached⟩ :=
    Option.isSome_iff_exists.mp (reaches.mpr (Or.inr ⟨("abc", 2), by decide, by decide⟩))
  refine ⟨distinct, ordered, answered, node, reached, ?_⟩
  cases here : node.kind? with
  | none => rfl
  | some kind =>
      have listed := (ends node reached kind).mp here
      simp [overlapping] at listed

end Trie

end Reckon
