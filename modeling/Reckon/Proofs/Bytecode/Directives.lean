import Reckon.Proofs.Bytecode.ImageVerification

namespace Reckon

/-!
# Code that was asked for

Code is written one instruction after the other, each of which is asked for by the number of an
opcode and some operands.  The check of a chunk accepts exactly the code that comes from asking
for whole instructions with constants of the chunk.  Such code was asked for in one way only:
reading it from the front, by looking numbers up and taking operands, gives back what was asked
for.
-/

/-- An instruction that is asked for, with any number for its opcode and any operands. -/
structure Directive where
  number : UInt8
  operands : List Int
  deriving Repr, DecidableEq

namespace Directive

/-- The units that are written for a directive. -/
def units (directive : Directive) : List CodeUnit :=
  Opcode.makeByte directive.number directive.operands

/-- The units that are written for several directives. -/
def code (directives : List Directive) : List CodeUnit :=
  directives.flatMap units

/--
The number stands for an opcode.  Loading has the index of one of so many constants for its
operand, and no other opcode has an operand.
-/
def Fits (constants : Nat) (directive : Directive) : Prop :=
  match Opcode.ofByte? directive.number with
  | none => False
  | some .constant =>
      ∃ index, directive.operands = [index] ∧ 0 ≤ index ∧ index < (constants : Int)
  | some _ => directive.operands = []

/--
The directives that some code reads as.  Each begins with a unit whose byte is looked up, whatever
the unit's kind, and goes on with as many units as the opcode takes operands.
-/
def read? : List CodeUnit → Option (List Directive)
  | [] => some []
  | unit :: rest =>
      match Opcode.ofByte? unit.byte with
      | none => none
      | some opcode =>
          (read? (rest.drop opcode.width)).map fun directives =>
            { number := unit.byte
              operands := (opcode.readOperands rest).map fun byte => (byte.toNat : Int) } ::
              directives
termination_by code => code.length

/-- The directive that asks for an instruction. -/
def ofInstruction (instruction : Instruction) : Directive where
  number := instruction.opcode.byte
  operands := instruction.operands

/-- The directive of an instruction has the units of the instruction. -/
@[simp] theorem units_ofInstruction
    (instruction : Instruction) :
    (ofInstruction instruction).units = instruction.units := by
  rw [units, Opcode.makeByte, ofInstruction, Opcode.ofByte?_byte]
  rfl

/-- Instructions and their directives have the same code. -/
theorem code_map_ofInstruction
    (instructions : List Instruction) :
    code (instructions.map ofInstruction) = Instruction.code instructions := by
  simp [code, Instruction.code, List.flatMap_map]

section Fitting

variable
  {constants : Nat}

/-- A valid instruction is asked for by a directive that fits. -/
theorem fits_ofInstruction
    {instruction : Instruction}
    (valid : instruction.Valid constants) :
    (ofInstruction instruction).Fits constants := by
  cases valid with
  | @plain opcode short line =>
      cases opcode with
      | constant => cases short
      | _ => rfl
  | @load index inRange line =>
      exact ⟨index, rfl, Int.natCast_nonneg index, Int.ofNat_lt.mpr inRange⟩

/-- A directive that fits asks for a valid instruction. -/
theorem Fits.exists_instruction
    {directive : Directive}
    (fits : directive.Fits constants) :
    ∃ instruction, instruction.Valid constants ∧ directive = ofInstruction instruction := by
  obtain ⟨number, operands⟩ := directive
  unfold Fits at fits
  split at fits
  next => exact fits.elim
  next isConstant =>
    obtain ⟨index, rfl, nonnegative, inRange⟩ := fits
    obtain rfl := Opcode.byte_of_ofByte? isConstant
    lift index to Nat using nonnegative
    exact ⟨.load index 0, .load (Int.ofNat_lt.mp inRange) 0, rfl⟩
  next opcode notConstant isDefined =>
    obtain rfl : operands = [] := fits
    obtain rfl := Opcode.byte_of_ofByte? isDefined
    have short : opcode.operandKinds = [] := by
      cases opcode with
      | constant => exact absurd rfl notConstant
      | _ => rfl
    exact ⟨.plain opcode 0, .plain short 0, rfl⟩

/-- Directives that fit ask for valid instructions. -/
theorem exists_instructions_of_fits
    {directives : List Directive}
    (fit : ∀ directive ∈ directives, directive.Fits constants) :
    ∃ instructions : List Instruction,
      directives = instructions.map ofInstruction ∧
        ∀ instruction ∈ instructions, instruction.Valid constants := by
  induction directives with
  | nil =>
      exact ⟨[], rfl, by simp⟩
  | cons first rest inductionHypothesis =>
      obtain ⟨instruction, valid, rfl⟩ := (fit first List.mem_cons_self).exists_instruction
      obtain ⟨instructions, rfl, restValid⟩ :=
        inductionHypothesis fun directive member => fit directive (List.mem_cons_of_mem _ member)
      exact
        ⟨instruction :: instructions, rfl, List.forall_mem_cons.mpr ⟨valid, restValid⟩⟩

/--
Reading comes over a directive that fits to what is behind it, with its index as it was given.
-/
theorem read?_units_append
    (counted : constants ≤ Chunk.maxConstants)
    {instruction : Instruction}
    (valid : instruction.Valid constants)
    (rest : List CodeUnit) :
    read? (instruction.units ++ rest) =
      (read? rest).map fun directives => ofInstruction instruction :: directives := by
  cases valid with
  | @plain opcode short line =>
      have narrow : opcode.width = 0 := by
        rw [Opcode.width, short]
        rfl
      rw [Instruction.units_plain short, List.singleton_append, read?]
      simp [Opcode.ofByte?_byte, narrow, Opcode.readOperands, ofInstruction, Instruction.plain]
  | @load index inRange line =>
      have uncut := Chunk.toNat_index (Nat.lt_of_lt_of_le inRange counted)
      rw [Instruction.units_load, List.cons_append, List.singleton_append, read?]
      simp [Opcode.ofByte?_byte, Opcode.width, Opcode.operandKinds, Opcode.readOperands, uncut,
        ofInstruction, Instruction.load, List.range_succ]

/-- Code reads as the directives that it was asked for with. -/
theorem read?_code
    (counted : constants ≤ Chunk.maxConstants)
    {directives : List Directive}
    (fit : ∀ directive ∈ directives, directive.Fits constants) :
    read? (code directives) = some directives := by
  obtain ⟨instructions, rfl, valid⟩ := exists_instructions_of_fits fit
  rw [code_map_ofInstruction]
  clear fit
  induction instructions with
  | nil =>
      rw [Instruction.code_nil, read?, List.map_nil]
  | cons first rest inductionHypothesis =>
      obtain ⟨firstValid, restValid⟩ := List.forall_mem_cons.mp valid
      rw [Instruction.code_cons, read?_units_append counted firstValid,
        inductionHypothesis restValid, Option.map_some, List.map_cons]

end Fitting

end Directive

namespace Chunk

/-- The code of a chunk was asked for by these directives, which fit the constants. -/
structure AskedFor (chunk : Chunk) (directives : List Directive) : Prop where
  fit : ∀ directive ∈ directives, directive.Fits chunk.constants.length
  code : chunk.code = Directive.code directives

section Asked

variable
  {chunk : Chunk}

/--
A chunk is whole if some directives ask for it, its lines match its code and its constants fit.
-/
theorem isWhole_iff_askedFor :
    chunk.IsWhole ↔
      chunk.lines.length = chunk.code.length ∧
        chunk.constants.length ≤ maxConstants ∧
          ∃ directives, chunk.AskedFor directives := by
  constructor
  · rintro ⟨lineCount, constantCount, instructions, codeShape, valid⟩
    refine ⟨lineCount, constantCount, instructions.map Directive.ofInstruction, ?_, ?_⟩
    · exact List.forall_mem_map.mpr fun instruction member =>
        Directive.fits_ofInstruction (valid instruction member)
    · rw [Directive.code_map_ofInstruction, codeShape]
  · rintro ⟨lineCount, constantCount, directives, fit, codeShape⟩
    obtain ⟨instructions, rfl, valid⟩ := Directive.exists_instructions_of_fits fit
    rw [Directive.code_map_ofInstruction] at codeShape
    exact ⟨lineCount, constantCount, instructions, codeShape, valid⟩

/-- The directives that ask for a chunk are read back from its code. -/
theorem AskedFor.read?_code
    {directives : List Directive}
    (asked : chunk.AskedFor directives)
    (counted : chunk.constants.length ≤ maxConstants) :
    Directive.read? chunk.code = some directives := by
  rw [asked.code]
  exact Directive.read?_code counted asked.fit

end Asked

/--
The check of a chunk accepts exactly the code that was asked for by directives that fit, with a
line for each unit and no more constants than a byte tells apart.  There is only one way in which
such code was asked for, and it reads as that.
-/
theorem validate_accepts_exactly_asked
    (chunk : Chunk) :
    (chunk.validate = .ok () ↔
        chunk.lines.length = chunk.code.length ∧
          chunk.constants.length ≤ 256 ∧
            ∃ directives, chunk.AskedFor directives) ∧
      (chunk.validate = .ok () →
        ∃ directives,
          chunk.AskedFor directives ∧
            (∀ others, chunk.AskedFor others → others = directives) ∧
              Directive.read? chunk.code = some directives) := by
  refine ⟨validate_eq_ok_iff.trans isWhole_iff_askedFor, fun valid => ?_⟩
  obtain ⟨_, counted, directives, asked⟩ :=
    isWhole_iff_askedFor.mp (validate_eq_ok_iff.mp valid)
  refine ⟨directives, asked, fun others otherwise => ?_, asked.read?_code counted⟩
  have same := (otherwise.read?_code counted).symm.trans (asked.read?_code counted)
  exact Option.some.inj same

/-- Two loads and a return, where the byte of the first index is also the number of an opcode. -/
def twiceLoading : Chunk where
  code :=
    [⟨.opcode, Opcode.constant.byte⟩, ⟨.constantIndex, Opcode.true.byte⟩,
      ⟨.opcode, Opcode.constant.byte⟩, ⟨.constantIndex, Opcode.constant.byte⟩,
      ⟨.opcode, Opcode.return.byte⟩]
  lines := [1, 1, 2, 2, 2]
  constants := [.integer 7, .bool false]

theorem twiceLoading_read :
    twiceLoading.validate = .ok () ∧
      Directive.read? twiceLoading.code =
        some
          [⟨Opcode.constant.byte, [1]⟩, ⟨Opcode.constant.byte, [0]⟩, ⟨Opcode.return.byte, []⟩] := by
  have valid : twiceLoading.validate = .ok () := rfl
  have asked :
      twiceLoading.AskedFor
        [⟨Opcode.constant.byte, [1]⟩, ⟨Opcode.constant.byte, [0]⟩, ⟨Opcode.return.byte, []⟩] := by
    refine ⟨?_, rfl⟩
    simp only [List.forall_mem_cons, List.not_mem_nil, false_implies, implies_true, and_true]
    exact ⟨⟨1, rfl, by decide, by decide⟩, ⟨0, rfl, by decide, by decide⟩, rfl⟩
  obtain ⟨directives, _, unique, read⟩ := (validate_accepts_exactly_asked twiceLoading).2 valid
  exact ⟨valid, unique _ asked ▸ read⟩

end Chunk

end Reckon
