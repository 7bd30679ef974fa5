import Reckon.Bytecode.Listing
import Reckon.Proofs.Bytecode.Boundaries
import Reckon.Proofs.Text.Lines

namespace Reckon

/-!
# What listings show

A line of a listing shows the instruction at an offset, or says why there is none.  The entries of
a listing are what its lines show, each with the text that it has by its columns.  The listing of
any code has an entry for each offset that it comes by, in steps of one unit, or of two behind a
constant, from the beginning to the end.  Over checked code these are the boundaries, and none of
the lines reports an error.
-/

/-- The operand of an instruction that is shown, with the constant that it refers to. -/
structure ListedOperand where
  index : UInt8
  constant? : Option Value

/-- What a line shows: an instruction, with its line unless it is that of the unit before. -/
inductive ListingEntry where
  | instruction
      (offset : Nat)
      (line? : Option Int64)
      (opcode : Opcode)
      (operand? : Option ListedOperand)
  | error (offset : Nat) (message : String)

namespace ListingEntry

/-- The offset that an entry is for. -/
def offset : ListingEntry → Nat
  | .instruction offset _ _ _ => offset
  | .error offset _ => offset

/-- The opcode of the instruction that is shown. -/
def opcode? : ListingEntry → Option Opcode
  | .instruction _ _ opcode _ => some opcode
  | .error _ _ => none

/-- How far the next entry is: two units behind a constant, and one behind all else. -/
def width (entry : ListingEntry) : Nat :=
  if entry.opcode?.map Opcode.name = some "OpConstant" then 2 else 1

/-- The offset in at least four digits. -/
def offsetColumn (offset : Nat) : String :=
  String.ofList ((Nat.toDigits 10 offset).leftpad 4 '0')

/-- The line in at least four places, or a bar. -/
def lineColumn : Option Int64 → String
  | some line => String.ofList ((toString line.toInt).toList.leftpad 4 ' ')
  | none => "   |"

/-- The operand, with the constant in parentheses. -/
def operandColumn : Option ListedOperand → String
  | none => ""
  | some { index, constant? := none } => " " ++ toString index.toNat
  | some { index, constant? := some constant } =>
      " " ++ toString index.toNat ++ " (" ++ constant.text ++ ")"

/-- The line of an entry. -/
def text : ListingEntry → String
  | .instruction offset line? opcode operand? =>
      offsetColumn offset ++ " " ++ lineColumn line? ++ " " ++ opcode.name ++
        operandColumn operand?
  | .error offset message => offsetColumn offset ++ " ERROR: " ++ message

end ListingEntry

/-- The number at the front of a line. -/
def printedOffset (line : String) : Nat :=
  Nat.ofDigitChars 10 (line.toList.takeWhile Char.isDigit) 0

/-- The line reports an error: the word behind its number says so. -/
def IsErrorLine (line : String) : Prop :=
  [' ', 'E', 'R', 'R', 'O', 'R', ':', ' '] <+: line.toList.dropWhile Char.isDigit

namespace Chunk

/-- The line of the unit at an offset, zero if unknown, unless it is that of the unit before. -/
def newLine? (chunk : Chunk) (offset : Nat) : Option Int64 :=
  if 0 < offset ∧ chunk.lines[offset]?.getD 0 = chunk.lines[offset - 1]?.getD 0 then
    none
  else
    some (chunk.lines[offset]?.getD 0)

/-- The entry says what is at its offset of the code. -/
inductive Shows (chunk : Chunk) : ListingEntry → Prop where
  | constant
      {offset : Nat}
      {unit operand : CodeUnit}
      (read : chunk.code[offset]? = some unit)
      (isOpcode : unit.kind = .opcode)
      (isConstant : Opcode.ofByte? unit.byte = some .constant)
      (follows : chunk.code[offset + 1]? = some operand) :
      Shows chunk
        (.instruction offset (chunk.newLine? offset) .constant
          (some
            { index := operand.byte
              constant? := chunk.constants[operand.byte.toNat]? }))
  | plain
      {offset : Nat}
      {unit : CodeUnit}
      {opcode : Opcode}
      (read : chunk.code[offset]? = some unit)
      (isOpcode : unit.kind = .opcode)
      (isDefined : Opcode.ofByte? unit.byte = some opcode)
      (notConstant : opcode ≠ .constant) :
      Shows chunk (.instruction offset (chunk.newLine? offset) opcode none)
  | operandFound
      {offset : Nat}
      {unit : CodeUnit}
      (read : chunk.code[offset]? = some unit)
      (noOpcode : unit.kind ≠ .opcode) :
      Shows chunk (.error offset (unit.text ++ " where an opcode was expected"))
  | undefined
      {offset : Nat}
      {unit : CodeUnit}
      (read : chunk.code[offset]? = some unit)
      (isOpcode : unit.kind = .opcode)
      (isUndefined : Opcode.ofByte? unit.byte = none) :
      Shows chunk (.error offset ("opcode " ++ toString unit.byte.toNat ++ " undefined"))
  | operandMissing
      {offset : Nat}
      {unit : CodeUnit}
      (read : chunk.code[offset]? = some unit)
      (isOpcode : unit.kind = .opcode)
      (isConstant : Opcode.ofByte? unit.byte = some .constant)
      (ends : chunk.code[offset + 1]? = none) :
      Shows chunk (.error offset "OpConstant is missing its operand")

end Chunk

/-- From an offset to the end of the code, each entry is as far behind the last as that is wide. -/
def Covers (length : Nat) : Nat → List ListingEntry → Prop
  | offset, [] => offset = length
  | offset, entry :: rest =>
      entry.offset = offset ∧ offset < length ∧ Covers length (offset + entry.width) rest

namespace ListingEntry

/-! ### Reading lines -/

/-- An entry is as wide as the instruction that it shows. -/
theorem width_eq
    {entry : ListingEntry}
    {opcode : Opcode}
    (shown : entry.opcode? = some opcode) :
    entry.width = 1 + opcode.width := by
  rw [width, shown]
  cases opcode <;> rfl

/-- Every entry takes up at least one unit. -/
theorem width_pos
    (entry : ListingEntry) :
    0 < entry.width := by
  unfold width
  split <;> decide

/-- The column of an offset holds nothing but digits. -/
theorem isDigit_of_mem_offsetColumn
    {offset : Nat}
    {char : Char}
    (member : char ∈ (offsetColumn offset).toList) :
    char.isDigit = true := by
  rw [offsetColumn, String.toList_ofList, List.leftpad, List.mem_append] at member
  rcases member with inFill | inDigits
  · rw [List.eq_of_mem_replicate inFill]
    rfl
  · exact Nat.isDigit_of_mem_toDigits (by decide) (by decide) inDigits

/-- The digits of an offset are all that is read before a blank. -/
theorem span_offsetColumn
    (offset : Nat)
    (rest : List Char) :
    ((offsetColumn offset).toList ++ ' ' :: rest).takeWhile Char.isDigit =
        (offsetColumn offset).toList ∧
      ((offsetColumn offset).toList ++ ' ' :: rest).dropWhile Char.isDigit = ' ' :: rest := by
  have digits : ∀ char ∈ (offsetColumn offset).toList, char.isDigit = true :=
    fun _ => isDigit_of_mem_offsetColumn
  constructor
  · rw [List.takeWhile_append_of_pos digits, List.takeWhile_cons_of_neg (by decide),
      List.append_nil]
  · rw [List.dropWhile_append_of_pos digits, List.dropWhile_cons_of_neg (by decide)]

/-- The digits of the column of an offset are those of the offset. -/
theorem ofDigitChars_offsetColumn
    (offset : Nat) :
    Nat.ofDigitChars 10 (offsetColumn offset).toList 0 = offset := by
  rw [offsetColumn, String.toList_ofList, List.leftpad, Nat.ofDigitChars_append,
    Nat.ofDigitChars_replicate_zero, Nat.mul_zero, Nat.ofDigitChars_ten_toDigits]

/-- Behind the digits of its offset, an entry goes on with a blank. -/
theorem toList_text_instruction
    (offset : Nat)
    (line? : Option Int64)
    (opcode : Opcode)
    (operand? : Option ListedOperand) :
    (instruction offset line? opcode operand?).text.toList =
      (offsetColumn offset).toList ++
        ' ' :: ((lineColumn line?).toList ++ ' ' ::
          (opcode.name.toList ++ (operandColumn operand?).toList)) := by
  simp [text, String.toList_append]

/-- The text of an error, character by character up to its message. -/
theorem toList_text_error
    (offset : Nat)
    (message : String) :
    (error offset message).text.toList =
      (offsetColumn offset).toList ++
        ' ' :: ('E' :: 'R' :: 'R' :: 'O' :: 'R' :: ':' :: ' ' :: message.toList) := by
  simp [text, String.toList_append]

/-- The number at the front of a line is the offset of its entry. -/
theorem printedOffset_text
    (entry : ListingEntry) :
    printedOffset entry.text = entry.offset := by
  cases entry with
  | instruction offset line? opcode operand? =>
      rw [printedOffset, toList_text_instruction, (span_offsetColumn offset _).1,
        ofDigitChars_offsetColumn, ListingEntry.offset]
  | error offset message =>
      rw [printedOffset, toList_text_error, (span_offsetColumn offset _).1,
        ofDigitChars_offsetColumn, ListingEntry.offset]

/-- The column of a line holds blanks and a number, or a bar. -/
theorem of_mem_lineColumn
    {line? : Option Int64}
    {char : Char}
    (member : char ∈ (lineColumn line?).toList) :
    char ∈ [' ', '|', '-'] ∨ char.isDigit = true := by
  cases line? with
  | none =>
      have blankOrBar : char = ' ' ∨ char = '|' := by
        simpa [lineColumn] using member
      rcases blankOrBar with rfl | rfl
      · exact Or.inl (by decide)
      · exact Or.inl (by decide)
  | some line =>
      rw [lineColumn, String.toList_ofList, List.leftpad, List.mem_append] at member
      rcases member with inFill | inNumber
      · rw [List.eq_of_mem_replicate inFill]
        exact Or.inl (by decide)
      · rcases Text.eq_or_isDigit_of_mem_toString inNumber with rfl | isDigit
        · exact Or.inl (by decide)
        · exact Or.inr isDigit

/-- The column of a line begins with no letter. -/
theorem lineColumn_head
    (line? : Option Int64) :
    ∃ first rest, (lineColumn line?).toList = first :: rest ∧ first ≠ 'E' := by
  have present : (lineColumn line?).toList ≠ [] := by
    cases line? with
    | none => decide
    | some line =>
        rw [lineColumn, String.toList_ofList, ← List.length_pos_iff, List.length_leftpad]
        omega
  obtain ⟨first, rest, shape⟩ := List.exists_cons_of_ne_nil present
  refine ⟨first, rest, shape, ?_⟩
  rintro rfl
  have plain := of_mem_lineColumn (shape ▸ List.mem_cons_self)
  revert plain
  decide

theorem onOneLine_offsetColumn
    (offset : Nat) :
    Text.OnOneLine (offsetColumn offset) := by
  intro member
  cases isDigit_of_mem_offsetColumn member

theorem onOneLine_lineColumn
    (line? : Option Int64) :
    Text.OnOneLine (lineColumn line?) := by
  intro member
  have plain := of_mem_lineColumn member
  revert plain
  decide

/-- Operands are listed without a line break. -/
theorem onOneLine_operandColumn
    (operand? : Option ListedOperand) :
    Text.OnOneLine (operandColumn operand?) := by
  match operand? with
  | none => decide
  | some { index, constant? := none } =>
      exact Text.onOneLine_append_iff.mpr ⟨by decide, Text.onOneLine_toString index.toNat⟩
  | some { index, constant? := some constant } =>
      simp only [operandColumn, Text.onOneLine_append_iff, Text.onOneLine_toString,
        constant.onOneLine_text]
      decide

/-- An instruction is shown on one line, whatever the constant is that it loads. -/
theorem onOneLine_instruction
    (offset : Nat)
    (line? : Option Int64)
    (opcode : Opcode)
    (operand? : Option ListedOperand) :
    Text.OnOneLine (instruction offset line? opcode operand?).text := by
  simp only [text, Text.onOneLine_append_iff, onOneLine_offsetColumn, onOneLine_lineColumn,
    opcode.onOneLine_name, onOneLine_operandColumn]
  decide

/-- An error whose message has no line break is listed without one. -/
theorem onOneLine_error
    (offset : Nat)
    {message : String}
    (line : Text.OnOneLine message) :
    Text.OnOneLine (error offset message).text := by
  simp only [text, Text.onOneLine_append_iff, onOneLine_offsetColumn, line]
  decide

/-- The lines that report an error are those of the entries without an instruction. -/
theorem isErrorLine_text_iff
    (entry : ListingEntry) :
    IsErrorLine entry.text ↔ entry.opcode? = none := by
  cases entry with
  | instruction offset line? opcode operand? =>
      obtain ⟨first, rest, shape, noLetter⟩ := lineColumn_head line?
      rw [IsErrorLine, toList_text_instruction, (span_offsetColumn offset _).2, shape]
      simp [opcode?, Ne.symm noLetter]
  | error offset message =>
      rw [IsErrorLine, toList_text_error, (span_offsetColumn offset _).2]
      simp [opcode?]

end ListingEntry

namespace Chunk

/-! ### The lines of a chunk -/

/-- The columns before the name of an instruction. -/
theorem placeText_eq
    (chunk : Chunk)
    (offset : Nat) :
    chunk.placeText offset =
      ListingEntry.offsetColumn offset ++ " " ++
        ListingEntry.lineColumn (chunk.newLine? offset) ++ " " := by
  unfold placeText newLine? lineAt
  simp only
  rw [Text.zeroPadded_natCast, Text.padLeft_eq_leftpad, Text.integer_eq_toString]
  split
  · rw [String.append_assoc, String.append_assoc]
    rfl
  · rfl

/-- The column of an operand that is an index of a constant. -/
theorem operandText_constantIndex
    (chunk : Chunk)
    (index : UInt8) :
    chunk.operandText .constantIndex index =
      ListingEntry.operandColumn
        (some { index := index, constant? := chunk.constants[index.toNat]? }) := by
  unfold operandText
  simp only [↓reduceIte, Text.integer_eq_toString]
  cases chunk.constants[index.toNat]? with
  | none => rfl
  | some constant => rfl

/-- The line of an instruction with an operand. -/
theorem instructionLine_constant
    {chunk : Chunk}
    {offset : Nat}
    {operand : CodeUnit}
    (follows : chunk.code[offset + 1]? = some operand) :
    chunk.instructionLine offset .constant =
      (ListingEntry.instruction offset (chunk.newLine? offset) .constant
        (some
          { index := operand.byte
            constant? := chunk.constants[operand.byte.toNat]? })).text := by
  have operands :
      Opcode.constant.readOperands (chunk.code.drop (offset + 1)) = [operand.byte] := by
    simp [Opcode.readOperands, Opcode.width, Opcode.operandKinds, List.getElem?_drop, follows]
  rw [instructionLine, operands, placeText_eq, ListingEntry.text, ← operandText_constantIndex]
  simp [Opcode.operandKinds, String.join]

/-- The line of an instruction without operands. -/
theorem instructionLine_plain
    (chunk : Chunk)
    (offset : Nat)
    {opcode : Opcode}
    (notConstant : opcode ≠ .constant) :
    chunk.instructionLine offset opcode =
      (ListingEntry.instruction offset (chunk.newLine? offset) opcode none).text := by
  have noOperands : opcode.operandKinds = [] := by
    cases opcode <;> first | rfl | exact (notConstant rfl).elim
  rw [instructionLine, noOperands, placeText_eq, ListingEntry.text]
  simp [String.join, ListingEntry.operandColumn]

/-- A problem is reported in its place, and the next line is for the unit behind. -/
theorem instructionLines_of_failed
    {chunk : Chunk}
    {offset : Nat}
    {problem : ListingProblem}
    (refused : chunk.instructionAt offset = .failed problem)
    (count : Nat) :
    chunk.instructionLines (count + 1) offset =
      (ListingEntry.error offset problem.message).text ::
        chunk.instructionLines count (offset + 1) := by
  simp only [instructionLines, refused, Text.zeroPadded_natCast]
  rfl

namespace Shows

variable
  {chunk : Chunk}
  {entry : ListingEntry}

/-- A line of a listing is the text of what it shows, and the next one is as far behind. -/
theorem instructionLines_succ
    (shows : chunk.Shows entry)
    (count : Nat) :
    chunk.instructionLines (count + 1) entry.offset =
      entry.text :: chunk.instructionLines count (entry.offset + entry.width) := by
  cases shows with
  | @constant offset unit operand read isOpcode isConstant follows =>
      obtain ⟨inside, _⟩ := List.getElem?_eq_some_iff.mp follows
      have shown : chunk.instructionAt offset = .done .constant := by
        have fits : ¬ chunk.code.length < offset + 1 + Opcode.constant.width :=
          Nat.not_lt.mpr inside
        simp [instructionAt, read, isOpcode, isConstant, fits]
      simp only [instructionLines, ListingEntry.offset, shown, instructionLine_constant follows]
      rfl
  | @plain offset unit opcode read isOpcode isDefined notConstant =>
      obtain ⟨inside, _⟩ := List.getElem?_eq_some_iff.mp read
      have narrow : opcode.width = 0 := by
        rw [Opcode.width_eq, if_neg notConstant]
      have shown : chunk.instructionAt offset = .done opcode := by
        have fits : ¬ chunk.code.length < offset + 1 + opcode.width := by
          rw [narrow]
          exact Nat.not_lt.mpr inside
        simp [instructionAt, read, isOpcode, isDefined, fits]
      have moved :
          (ListingEntry.instruction offset (chunk.newLine? offset) opcode none).width = 1 := by
        rw [ListingEntry.width_eq rfl, narrow]
      simp only [instructionLines, ListingEntry.offset, shown,
        instructionLine_plain chunk offset notConstant, moved, narrow, Nat.add_zero]
  | @operandFound offset unit read noOpcode =>
      have refused : chunk.instructionAt offset = .failed (.expectedOpcode unit) := by
        simp [instructionAt, read, noOpcode]
      exact instructionLines_of_failed refused count
  | @undefined offset unit read isOpcode isUndefined =>
      have refused : chunk.instructionAt offset = .failed (.undefinedOpcode unit.byte) := by
        simp [instructionAt, read, isOpcode, isUndefined]
      exact instructionLines_of_failed refused count
  | @operandMissing offset unit read isOpcode isConstant ends =>
      have refused : chunk.instructionAt offset = .failed (.missingOperand .constant) := by
        have cut : chunk.code.length < offset + 1 + Opcode.constant.width :=
          Nat.lt_succ_of_le (List.getElem?_eq_none_iff.mp ends)
        simp [instructionAt, read, isOpcode, isConstant, cut]
      exact instructionLines_of_failed refused count

/-- An entry does not reach over the end of the code. -/
theorem add_width_le
    (shows : chunk.Shows entry) :
    entry.offset + entry.width ≤ chunk.code.length := by
  cases shows with
  | constant _ _ _ follows => exact (List.getElem?_eq_some_iff.mp follows).1
  | plain read _ _ notConstant =>
      rw [ListingEntry.width_eq rfl, Opcode.width_eq, if_neg notConstant]
      exact (List.getElem?_eq_some_iff.mp read).1
  | operandFound read _ => exact (List.getElem?_eq_some_iff.mp read).1
  | undefined read _ _ => exact (List.getElem?_eq_some_iff.mp read).1
  | operandMissing read _ _ _ => exact (List.getElem?_eq_some_iff.mp read).1

/-- What is shown is shown on one line. -/
theorem onOneLine_text
    (shows : chunk.Shows entry) :
    Text.OnOneLine entry.text := by
  cases shows with
  | constant _ _ _ _ => exact ListingEntry.onOneLine_instruction _ _ _ _
  | plain _ _ _ _ => exact ListingEntry.onOneLine_instruction _ _ _ _
  | @operandFound _ unit _ _ =>
      apply ListingEntry.onOneLine_error
      exact Text.onOneLine_append_iff.mpr ⟨unit.onOneLine_text, by decide⟩
  | @undefined _ unit _ _ _ =>
      apply ListingEntry.onOneLine_error
      simp only [Text.onOneLine_append_iff, Text.onOneLine_toString]
      decide
  | operandMissing _ _ _ _ =>
      apply ListingEntry.onOneLine_error
      decide

end Shows

/-- There is something to show at each offset of the code. -/
theorem exists_shows
    {chunk : Chunk}
    {offset : Nat}
    (inside : offset < chunk.code.length) :
    ∃ entry, chunk.Shows entry ∧ entry.offset = offset := by
  have read := List.getElem?_eq_getElem inside
  generalize chunk.code[offset] = unit at read
  by_cases isOpcode : unit.kind = .opcode
  · cases found : Opcode.ofByte? unit.byte with
    | none => exact ⟨_, .undefined read isOpcode found, rfl⟩
    | some opcode =>
        by_cases isConstant : opcode = .constant
        · subst isConstant
          cases following : chunk.code[offset + 1]? with
          | none => exact ⟨_, .operandMissing read isOpcode found following, rfl⟩
          | some operand => exact ⟨_, .constant read isOpcode found following, rfl⟩
        · exact ⟨_, .plain read isOpcode found isConstant, rfl⟩
  · exact ⟨_, .operandFound read isOpcode, rfl⟩

/-- From any offset on, entries follow one another to the end of the code. -/
theorem exists_covers
    (chunk : Chunk)
    (offset : Nat)
    (inside : offset ≤ chunk.code.length) :
    ∃ entries, Covers chunk.code.length offset entries ∧ ∀ entry ∈ entries, chunk.Shows entry := by
  by_cases atEnd : offset = chunk.code.length
  · exact ⟨[], atEnd, by simp⟩
  · have before : offset < chunk.code.length := by
      omega
    obtain ⟨entry, shows, rfl⟩ := exists_shows before
    have wide := entry.width_pos
    obtain ⟨rest, covers, restShows⟩ :=
      exists_covers chunk (entry.offset + entry.width) shows.add_width_le
    exact
      ⟨entry :: rest, ⟨rfl, before, covers⟩, List.forall_mem_cons.mpr ⟨shows, restShows⟩⟩
termination_by chunk.code.length - offset

/-- With room for as many lines as there are units left, the lines are those of the entries. -/
theorem instructionLines_eq
    {chunk : Chunk}
    {offset : Nat}
    {entries : List ListingEntry}
    (covers : Covers chunk.code.length offset entries)
    (shows : ∀ entry ∈ entries, chunk.Shows entry)
    {count : Nat}
    (enough : chunk.code.length ≤ offset + count) :
    chunk.instructionLines count offset = entries.map (·.text) := by
  induction entries generalizing offset count with
  | nil =>
      obtain rfl : offset = chunk.code.length := covers
      cases count with
      | zero => rfl
      | succ count => simp [instructionLines, instructionAt]
  | cons entry rest inductionHypothesis =>
      obtain ⟨rfl, inside, following⟩ := covers
      obtain ⟨entryShows, restShows⟩ := List.forall_mem_cons.mp shows
      have wide := entry.width_pos
      cases count with
      | zero => omega
      | succ count =>
          rw [entryShows.instructionLines_succ,
            inductionHypothesis following restShows (by omega), List.map_cons]

/-- Where there is a whole instruction, it is shown. -/
theorem Shows.opcode?_eq
    {chunk : Chunk}
    {entry : ListingEntry}
    (shows : chunk.Shows entry)
    {opcode : Opcode}
    (instruction : chunk.HasInstruction entry.offset opcode) :
    entry.opcode? = some opcode := by
  obtain ⟨unit, present, isOpcode, isDefined⟩ := instruction.read
  cases shows with
  | constant read _ isConstant _ =>
      cases present.symm.trans read
      exact isConstant.symm.trans isDefined
  | plain read _ isPlain _ =>
      cases present.symm.trans read
      exact isPlain.symm.trans isDefined
  | operandFound read noOpcode =>
      cases present.symm.trans read
      exact (noOpcode isOpcode).elim
  | undefined read _ isUndefined =>
      cases present.symm.trans read
      cases isUndefined.symm.trans isDefined
  | operandMissing read _ isConstant ends =>
      cases present.symm.trans read
      cases isConstant.symm.trans isDefined
      obtain ⟨index, _, follows, _⟩ := instruction.operand rfl
      cases ends.symm.trans follows

/-- Where the code is made of instructions, there is an entry for each of them. -/
theorem Partitions.offsets_eq
    {chunk : Chunk}
    {offset : Nat}
    {offsets : List Nat}
    (partitions : chunk.Partitions offset offsets)
    {entries : List ListingEntry}
    (covers : Covers chunk.code.length offset entries)
    (shows : ∀ entry ∈ entries, chunk.Shows entry) :
    entries.map (·.offset) = offsets := by
  induction partitions generalizing entries with
  | done =>
      cases entries with
      | nil => rfl
      | cons entry rest => exact (Nat.lt_irrefl _ covers.2.1).elim
  | @next offset opcode offsets instruction _ inductionHypothesis =>
      cases entries with
      | nil =>
          obtain ⟨unit, present, _⟩ := instruction.read
          obtain ⟨inside, _⟩ := List.getElem?_eq_some_iff.mp present
          exact (Nat.lt_irrefl _ (covers ▸ inside)).elim
      | cons entry rest =>
          obtain ⟨rfl, _, following⟩ := covers
          obtain ⟨entryShows, restShows⟩ := List.forall_mem_cons.mp shows
          have moved : entry.width = 1 + opcode.width :=
            ListingEntry.width_eq (entryShows.opcode?_eq instruction)
          rw [moved, ← Nat.add_assoc] at following
          rw [List.map_cons, inductionHypothesis following restShows]

end Chunk

namespace Function

/-! ### Listings -/

/--
The listing of a function shows the entries, each on a line of its own: what is at an offset of the
code, one offset after the other from the first to the end.  The offset of an entry can be read at
the front of its line, and whether there is an instruction behind it.
-/
structure ListsAs
    (function : Function)
    (chunk : Chunk)
    (entries : List ListingEntry) :
    Prop where
  listing :
    function.listing? =
      some
        (String.join
          ((function.listingHead chunk ++
              ("Instructions (" ++ toString chunk.code.length ++ " units):") ::
                entries.map (·.text)).map (· ++ "\n")))
  lines : ∀ entry ∈ entries, Text.OnOneLine entry.text
  shows : ∀ entry ∈ entries, chunk.Shows entry
  covers : Covers chunk.code.length 0 entries
  offsets : ∀ entry ∈ entries, printedOffset entry.text = entry.offset
  errors : ∀ entry ∈ entries, IsErrorLine entry.text ↔ entry.opcode? = none

/-- The lines of a listing are one for each boundary, and each shows the instruction there. -/
structure ListsBoundaries (chunk : Chunk) (entries : List ListingEntry) : Prop where
  boundaries : entries.map (fun entry => printedOffset entry.text) = chunk.boundaries
  instructions :
    ∀ entry ∈ entries,
      ∃ opcode,
        chunk.HasInstruction entry.offset opcode ∧
          entry.opcode? = some opcode ∧ ¬ IsErrorLine entry.text

/-- The listing of any code comes to its end. -/
theorem exists_listsAs
    {function : Function}
    {chunk : Chunk}
    (defined : function.chunk? = some chunk) :
    ∃ entries, function.ListsAs chunk entries := by
  obtain ⟨entries, covers, shows⟩ := chunk.exists_covers 0 (Nat.zero_le _)
  have shown := Chunk.instructionLines_eq covers shows (Nat.le_of_eq (Nat.zero_add _).symm)
  exact
    ⟨entries,
      { listing := by
          simp only [listing?, defined, Option.map_some, shown, Text.integer_natCast]
        lines := fun entry member => (shows entry member).onOneLine_text
        shows := shows
        covers := covers
        offsets := fun entry _ => entry.printedOffset_text
        errors := fun entry _ => entry.isErrorLine_text_iff }⟩

/-- The listing of checked code shows its boundaries. -/
theorem ListsAs.listsBoundaries
    {function : Function}
    {chunk : Chunk}
    {entries : List ListingEntry}
    (lists : function.ListsAs chunk entries)
    (valid : chunk.validate = .ok ()) :
    ListsBoundaries chunk entries := by
  have partitions := Chunk.partitions_boundaries valid
  have visited := partitions.offsets_eq lists.covers lists.shows
  constructor
  · rw [← visited]
    exact List.map_congr_left lists.offsets
  · intro entry member
    obtain ⟨opcode, instruction⟩ :=
      partitions.exists_hasInstruction (visited ▸ List.mem_map_of_mem member)
    have shown := (lists.shows entry member).opcode?_eq instruction
    refine ⟨opcode, instruction, shown, ?_⟩
    rw [lists.errors entry member, shown]
    exact Option.some_ne_none opcode

end Function

end Reckon
