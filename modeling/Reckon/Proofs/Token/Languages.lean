import Mathlib.Computability.Language
import Mathlib.Data.Char
import Mathlib.Data.List.TakeWhile
import Reckon.Proofs.Token.Blanks

namespace Reckon

open scoped Computability

/-!
# Languages of lexemes

Numbers and words are regular languages, and operators are those of a table.

`Lexeme.Takes` says that a length measures the longest text of a language at the front of any text.
Parts that follow one another are measured one by one, because no character inside one part can
begin the next.  Numbers are measured in this way.
-/

namespace Lexeme

/-! ### Languages -/

/-- The texts of a single character. -/
def one (members : Set Char) : Language Char :=
  {text | ∃ char ∈ members, text = [char]}

def digits : Set Char :=
  Set.Icc '0' '9'

def letters : Set Char :=
  Set.Icc 'a' 'z' ∪ Set.Icc 'A' 'Z' ∪ {'_'}

/-- Digits within a number, between which underscores may stand. -/
def digitRuns : Language Char :=
  (one (digits ∪ {'_'}))∗

def fractions : Language Char :=
  one {'.'} * digitRuns

/-- An exponent need not have any digits. -/
def exponents : Language Char :=
  one {'e', 'E'} * ((1 + one {'+', '-'}) * digitRuns)

def units : Language Char :=
  one {'j', 'J'}

def numbers : Language Char :=
  one digits * digitRuns * (1 + fractions) * (1 + exponents) * (1 + units)

def words : Language Char :=
  one letters * (one (letters ∪ digits))∗

/-- The lexemes of a table. -/
def listed (table : List (String × TokenKind)) : Language Char :=
  {text | ∃ kind, (String.ofList text, kind) ∈ table}

/-- The texts that tokens stand for. -/
def lexemes : Language Char :=
  numbers + words + listed TokenKind.operators

/-- The kind of a number. -/
def numberKind (text : List Char) : TokenKind :=
  if text.getLast? = some 'j' ∨ text.getLast? = some 'J' then
    .complex
  else if '.' ∈ text then
    .float
  else
    .integer

/-- The text is a lexeme of the kind. -/
inductive Spells : List Char → TokenKind → Prop where
  | number
      {text : List Char}
      (member : text ∈ numbers) :
      Spells text (numberKind text)
  | keyword
      {text : List Char}
      {kind : TokenKind}
      (member : text ∈ words)
      (reserved : (String.ofList text, kind) ∈ TokenKind.keywords) :
      Spells text kind
  | identifier
      {text : List Char}
      (member : text ∈ words)
      (unreserved : text ∉ listed TokenKind.keywords) :
      Spells text .identifier
  | operator
      {text : List Char}
      {kind : TokenKind}
      (entry : (String.ofList text, kind) ∈ TokenKind.operators) :
      Spells text kind

/-- A text begins with one of the characters and goes on in the language. -/
theorem mem_one_mul_iff
    {members : Set Char}
    {language : Language Char}
    {text : List Char} :
    text ∈ one members * language ↔
      ∃ char ∈ members, ∃ rest ∈ language, text = char :: rest := by
  rw [Language.mem_mul]
  constructor
  · rintro ⟨_, ⟨char, member, rfl⟩, rest, inside, rfl⟩
    exact ⟨char, member, rest, inside, rfl⟩
  · rintro ⟨char, member, rest, inside, rfl⟩
    exact ⟨[char], ⟨char, member, rfl⟩, rest, inside, rfl⟩

/-- A run of characters holds no others. -/
theorem mem_kstar_one_iff
    {members : Set Char}
    {text : List Char} :
    text ∈ (one members)∗ ↔ ∀ char ∈ text, char ∈ members := by
  rw [Language.mem_kstar]
  constructor
  · rintro ⟨parts, rfl, single⟩ char inside
    obtain ⟨part, member, inPart⟩ := List.mem_flatten.mp inside
    obtain ⟨only, admitted, rfl⟩ := single part member
    rwa [List.mem_singleton.mp inPart]
  · intro admitted
    refine ⟨text.map ([·]), (List.flatMap_singleton' text).symm, ?_⟩
    intro part member
    obtain ⟨char, inside, rfl⟩ := List.mem_map.mp member
    exact ⟨char, admitted char inside, rfl⟩

/-! ### Measuring parts -/

/--
The length measures the longest text of the language at the front of any text.  The language has
the empty text; its characters are in the alphabet, and those at the front among the starts.
-/
structure Takes
    (length : List Char → Nat)
    (language : Language Char)
    (alphabet starts : Set Char) :
    Prop where
  le_length : ∀ text, length text ≤ text.length
  member : ∀ text : List Char, text.take (length text) ∈ language
  longest :
    ∀ text part,
      part <+: text →
      part ∈ language →
      part.length ≤ length text
  uses : ∀ text ∈ language, ∀ char ∈ text, char ∈ alphabet
  begins : ∀ char rest, char :: rest ∈ language → char ∈ starts

namespace Takes

variable
  {length following : List Char → Nat}
  {language followingLanguage : Language Char}
  {alphabet starts followingAlphabet followingStarts marks : Set Char}

/-- Measuring a run takes the longest run. -/
theorem runLength
    {condition : Char → Bool}
    (decides : ∀ char, condition char = true ↔ char ∈ marks) :
    Takes (Lexeme.runLength condition) (one marks)∗ marks marks where
  le_length text :=
    (List.takeWhile_prefix condition).length_le
  member text := by
    rw [Lexeme.runLength, ← List.prefix_iff_eq_take.mp (List.takeWhile_prefix condition),
      mem_kstar_one_iff]
    exact fun char inside => (decides char).mp (List.mem_takeWhile_imp inside)
  longest text part front member := by
    obtain ⟨more, rfl⟩ := front
    have admitted : ∀ char ∈ part, condition char = true :=
      fun char inside => (decides char).mpr (mem_kstar_one_iff.mp member char inside)
    rw [Lexeme.runLength, List.takeWhile_append_of_pos admitted, List.length_append]
    exact Nat.le_add_right _ _
  uses text member :=
    mem_kstar_one_iff.mp member
  begins char rest member :=
    mem_kstar_one_iff.mp member char List.mem_cons_self

theorem zero :
    Takes (fun _ => 0) 1 ∅ ∅ where
  le_length _ := Nat.zero_le _
  member _ := Language.nil_mem_one
  longest _ _ _ member := by simp [(Language.mem_one _).mp member]
  uses text member := by simp [(Language.mem_one _).mp member]
  begins char rest member := by simp [Language.mem_one] at member

/-- A part that a mark begins may be missing. -/
theorem behind
    {condition : Char → Bool}
    (decides : ∀ char, condition char = true ↔ char ∈ marks)
    (takes : Takes following followingLanguage followingAlphabet followingStarts)
    (empty : length [] = 0)
    (shape :
      ∀ char rest, length (char :: rest) = if condition char then 1 + following rest else 0) :
    Takes length (1 + one marks * followingLanguage) (marks ∪ followingAlphabet) marks where
  le_length text := by
    cases text with
    | nil =>
        rw [empty]
        exact Nat.le_refl 0
    | cons char rest =>
        have bound := takes.le_length rest
        rw [shape, List.length_cons]
        split <;> omega
  member text := by
    rw [Language.mem_add, Language.mem_one, mem_one_mul_iff]
    cases text with
    | nil =>
        exact Or.inl List.take_nil
    | cons char rest =>
        rw [shape]
        split
        next mark =>
          refine Or.inr ⟨char, (decides char).mp mark, _, takes.member rest, ?_⟩
          rw [Nat.add_comm, List.take_succ_cons]
        next =>
          exact Or.inl rfl
  longest text part front member := by
    rw [Language.mem_add, Language.mem_one, mem_one_mul_iff] at member
    rcases member with rfl | ⟨char, mark, rest, inside, rfl⟩
    · exact Nat.zero_le _
    · obtain ⟨more, rfl⟩ := front
      have bound := takes.longest (rest ++ more) rest (List.prefix_append _ _) inside
      rw [List.cons_append, shape, if_pos ((decides char).mpr mark), List.length_cons]
      omega
  uses text member char inside := by
    rw [Language.mem_add, Language.mem_one, mem_one_mul_iff] at member
    rcases member with rfl | ⟨first, mark, rest, isRest, rfl⟩
    · cases inside
    · rcases List.mem_cons.mp inside with rfl | inRest
      · exact Or.inl mark
      · exact Or.inr (takes.uses rest isRest char inRest)
  begins char rest member := by
    rw [Language.mem_add, Language.mem_one, mem_one_mul_iff] at member
    rcases member with isNil | ⟨first, mark, _, _, shape⟩
    · cases isNil
    · rw [(List.cons.inj shape).1]
      exact mark

/-- Two parts are measured one behind the other if none of the first can begin the second. -/
theorem andThen
    (takes : Takes length language alphabet starts)
    (followingTakes : Takes following followingLanguage followingAlphabet followingStarts)
    (apart : ∀ char ∈ alphabet, char ∉ followingStarts) :
    Takes
      (fun text => length text + following (text.drop (length text)))
      (language * followingLanguage)
      (alphabet ∪ followingAlphabet)
      (starts ∪ followingStarts) where
  le_length text := by
    have first := takes.le_length text
    have second := followingTakes.le_length (text.drop (length text))
    rw [List.length_drop] at second
    omega
  member text := by
    rw [List.take_add]
    exact Language.append_mem_mul (takes.member text) (followingTakes.member _)
  longest text part front member := by
    obtain ⟨first, inFirst, second, inSecond, rfl⟩ := Language.mem_mul.mp member
    obtain ⟨more, rfl⟩ := front
    have firstBound :=
      takes.longest (first ++ second ++ more) first (by simp [List.append_assoc]) inFirst
    rw [List.length_append]
    rcases Nat.lt_or_eq_of_le firstBound with shorter | same
    · cases second with
      | nil =>
          simp only [List.length_nil]
          omega
      | cons char rest =>
          have inside : char ∈ (first ++ char :: rest ++ more).take
              (length (first ++ char :: rest ++ more)) := by
            rw [List.mem_take_iff_getElem]
            refine ⟨first.length, by simpa using shorter, ?_⟩
            simp
          have used := takes.uses _ (takes.member _) char inside
          exact (apart char used (followingTakes.begins char rest inSecond)).elim
    · have secondBound :=
        followingTakes.longest (second ++ more) second (List.prefix_append _ _) inSecond
      rw [← same, List.append_assoc, List.drop_left]
      omega
  uses text member char inside := by
    obtain ⟨first, inFirst, second, inSecond, rfl⟩ := Language.mem_mul.mp member
    rcases List.mem_append.mp inside with inside | inside
    · exact Or.inl (takes.uses first inFirst char inside)
    · exact Or.inr (followingTakes.uses second inSecond char inside)
  begins char rest member := by
    obtain ⟨first, inFirst, second, inSecond, shape⟩ := Language.mem_mul.mp member
    cases first with
    | nil =>
        rw [List.nil_append] at shape
        rw [shape] at inSecond
        exact Or.inr (followingTakes.begins char rest inSecond)
    | cons other more =>
        rw [List.cons_append] at shape
        obtain ⟨rfl, _⟩ := List.cons.inj shape
        exact Or.inl (takes.begins other more inFirst)

theorem take_ne_nil_iff
    (takes : Takes length language alphabet starts)
    (text : List Char) :
    text.take (length text) ≠ [] ↔ 0 < length text := by
  rw [← List.length_pos_iff, List.length_take_of_le (takes.le_length text)]

end Takes

/-! ### Numbers -/

theorem isDigit_iff
    (char : Char) :
    isDigit char = true ↔ char ∈ digits := by
  simp [isDigit, digits]

theorem isLetter_iff
    (char : Char) :
    isLetter char = true ↔ char ∈ letters := by
  simp [isLetter, letters, or_comm]

theorem isNumberPart_iff
    (char : Char) :
    isNumberPart char = true ↔ char ∈ digits ∪ {'_'} := by
  simp [isNumberPart, isDigit_iff, or_comm]

theorem isWordPart_iff
    (char : Char) :
    isWordPart char = true ↔ char ∈ letters ∪ digits := by
  simp [isWordPart, isDigit_iff, isLetter_iff]

theorem takes_digitRuns :
    Takes (runLength isNumberPart) digitRuns (digits ∪ {'_'}) (digits ∪ {'_'}) :=
  .runLength isNumberPart_iff

theorem takes_fraction :
    Takes fractionLength (1 + fractions) ({'.'} ∪ (digits ∪ {'_'})) {'.'} :=
  .behind (by simp) takes_digitRuns rfl fractionLength_cons

theorem takes_sign :
    Takes signLength (1 + one {'+', '-'}) {'+', '-'} {'+', '-'} := by
  have takes : Takes signLength (1 + one {'+', '-'} * 1) ({'+', '-'} ∪ ∅) {'+', '-'} :=
    .behind (by simp) .zero rfl signLength_cons
  rwa [mul_one, Set.union_empty] at takes

theorem takes_exponent :
    Takes
      exponentLength
      (1 + exponents)
      ({'e', 'E'} ∪ ({'+', '-'} ∪ (digits ∪ {'_'})))
      {'e', 'E'} := by
  refine .behind (by simp) (takes_sign.andThen takes_digitRuns ?_) rfl exponentLength_cons
  rintro char (rfl | rfl) <;> simp [digits]

theorem takes_unit :
    Takes unitLength (1 + units) {'j', 'J'} {'j', 'J'} := by
  have takes : Takes unitLength (1 + one {'j', 'J'} * 1) ({'j', 'J'} ∪ ∅) {'j', 'J'} :=
    .behind (by simp) .zero rfl unitLength_cons
  rwa [mul_one, Set.union_empty] at takes

/-- The length of a number up to its unit. -/
def realLength (text : List Char) : Nat :=
  let whole := runLength isNumberPart text
  let fraction := fractionLength (text.drop whole)
  whole + fraction + exponentLength (text.drop (whole + fraction))

/-- The characters of a number up to its unit. -/
def realAlphabet : Set Char :=
  digits ∪ {'_'} ∪ ({'.'} ∪ (digits ∪ {'_'})) ∪ ({'e', 'E'} ∪ ({'+', '-'} ∪ (digits ∪ {'_'})))

/-- Measuring a real number takes its digits, fraction and exponent. -/
theorem takes_real :
    Takes
      realLength
      (digitRuns * (1 + fractions) * (1 + exponents))
      realAlphabet
      (digits ∪ {'_'} ∪ {'.'} ∪ {'e', 'E'}) := by
  refine (takes_digitRuns.andThen takes_fraction ?_).andThen takes_exponent ?_
  · rintro char used rfl
    simp [digits] at used
  · rintro char used (rfl | rfl) <;> simp [digits] at used

theorem not_unit_of_mem_realAlphabet
    {char : Char}
    (used : char ∈ realAlphabet) :
    char ∉ ({'j', 'J'} : Set Char) := by
  rintro (rfl | rfl) <;> simp [realAlphabet, digits] at used

/-- Measuring a number takes its real part and its unit. -/
theorem takes_number :
    Takes
      (fun text => (number text).length)
      (digitRuns * (1 + fractions) * (1 + exponents) * (1 + units))
      (realAlphabet ∪ {'j', 'J'})
      (digits ∪ {'_'} ∪ {'.'} ∪ {'e', 'E'} ∪ {'j', 'J'}) :=
  takes_real.andThen takes_unit fun _ => not_unit_of_mem_realAlphabet

/-- A digit with a run of digits behind it is a run of digits. -/
theorem mem_digitRuns_of_mem_mul
    {text : List Char}
    (member : text ∈ one digits * digitRuns) :
    text ∈ digitRuns := by
  obtain ⟨first, isDigit, rest, isRest, rfl⟩ := mem_one_mul_iff.mp member
  rw [digitRuns, mem_kstar_one_iff] at isRest ⊢
  exact List.forall_mem_cons.mpr ⟨Or.inl isDigit, isRest⟩

/-- A number has a point in it exactly if it has a fraction. -/
theorem mem_point_iff
    {whole fraction exponent : List Char}
    (isRun : whole ∈ digitRuns)
    (isFraction : fraction ∈ 1 + fractions)
    (isExponent : exponent ∈ 1 + exponents) :
    '.' ∈ whole ++ fraction ++ exponent ↔ fraction ≠ [] := by
  have notWhole : '.' ∉ whole := by
    intro inside
    simpa [digits] using takes_digitRuns.uses whole isRun '.' inside
  have notExponent : '.' ∉ exponent := by
    intro inside
    simpa [digits] using takes_exponent.uses exponent isExponent '.' inside
  rw [fractions, Language.mem_add, Language.mem_one, mem_one_mul_iff] at isFraction
  rcases isFraction with rfl | ⟨first, rfl, rest, _, rfl⟩
  · simp [notWhole, notExponent]
  · simp

/-- The kind of a number tells which of its parts are there. -/
theorem numberKind_append
    {whole fraction exponent unit : List Char}
    (isWhole : whole ∈ one digits * digitRuns)
    (isFraction : fraction ∈ 1 + fractions)
    (isExponent : exponent ∈ 1 + exponents)
    (isUnit : unit ∈ 1 + units) :
    numberKind (whole ++ fraction ++ exponent ++ unit) =
      if unit ≠ [] then .complex else if fraction ≠ [] then .float else .integer := by
  have isRun := mem_digitRuns_of_mem_mul isWhole
  rw [units, Language.mem_add, Language.mem_one] at isUnit
  rcases isUnit with rfl | ⟨mark, isMark, rfl⟩
  · have isReal := Language.append_mem_mul (Language.append_mem_mul isRun isFraction) isExponent
    have ends :
        ∀ char, (whole ++ fraction ++ exponent).getLast? = some char →
          char ∉ ({'j', 'J'} : Set Char) := by
      intro char isLast
      have used := takes_real.uses _ isReal char (List.mem_of_getLast? isLast)
      exact not_unit_of_mem_realAlphabet used
    have notComplex :
        ¬ ((whole ++ fraction ++ exponent).getLast? = some 'j' ∨
          (whole ++ fraction ++ exponent).getLast? = some 'J') := by
      rintro (isLast | isLast)
      · exact ends 'j' isLast (Or.inl rfl)
      · exact ends 'J' isLast (Or.inr rfl)
    simp only [List.append_nil, numberKind, if_neg notComplex, ne_eq, not_true_eq_false, ↓reduceIte,
      mem_point_iff isRun isFraction isExponent]
  · rcases isMark with rfl | rfl <;> simp [numberKind]

/-- A number is measured as one, and its kind is that of its text. -/
theorem spells_number
    {char : Char}
    (digit : isDigit char = true)
    (rest : List Char) :
    Spells ((char :: rest).take (number (char :: rest)).length) (number (char :: rest)).kind := by
  have part : isNumberPart char = true := by
    simp [isNumberPart, digit]
  have isWhole :
      (char :: rest).take (runLength isNumberPart (char :: rest)) ∈ one digits * digitRuns := by
    rw [runLength, List.takeWhile_cons_of_pos part, List.length_cons, List.take_succ_cons,
      mem_one_mul_iff]
    exact ⟨char, (isDigit_iff char).mp digit, _, takes_digitRuns.member rest, rfl⟩
  generalize char :: rest = text at isWhole ⊢
  have isFraction := takes_fraction.member (text.drop (runLength isNumberPart text))
  have isExponent :=
    takes_exponent.member
      (text.drop
        (runLength isNumberPart text +
          fractionLength (text.drop (runLength isNumberPart text))))
  have isUnit := takes_unit.member (text.drop (realLength text))
  have kind := numberKind_append isWhole isFraction isExponent isUnit
  have member :=
    Language.append_mem_mul
      (Language.append_mem_mul (Language.append_mem_mul isWhole isFraction) isExponent)
      isUnit
  simp only [takes_fraction.take_ne_nil_iff, takes_unit.take_ne_nil_iff, realLength,
    ← List.take_add] at kind member
  have spells := Spells.number member
  rw [kind] at spells
  exact spells

/-- No number at the front of a text is longer than the one that is taken. -/
theorem length_le_number
    {text part : List Char}
    (front : part <+: text)
    (member : part ∈ numbers) :
    part.length ≤ (number text).length := by
  have wider : one digits * digitRuns ≤ digitRuns :=
    fun _ => mem_digitRuns_of_mem_mul
  have member :=
    mul_le_mul_left (mul_le_mul_left (mul_le_mul_left wider _) _) _ member
  exact takes_number.longest text part front member

end Lexeme

end Reckon
