import Reckon.Bytecode.Image
import Reckon.Proofs.Bytecode.Validity
import Reckon.Proofs.Machine.Activation
import Reckon.Proofs.Value.Results

namespace Reckon

/-!
# Only verified images are read

Whatever the bytes are, a function that is read from them has stood in an envelope of this format
with the right digest, is made of whole instructions that refer to constants of its own, and has
truth values and numbers for constants.
-/

namespace Chunk

/--
Code that passes the check is made of valid instructions, as the check goes on past a whole
instruction each time.
-/
theorem exists_instructions_of_checkCode
    {constants position : Nat}
    {code : List CodeUnit}
    (checked : checkCode constants position code = .ok ()) :
    ∃ instructions,
      code = Instruction.code instructions ∧
        ∀ instruction ∈ instructions, instruction.Valid constants := by
  fun_induction checkCode constants position code with
  | case1 => exact ⟨[], rfl, by simp⟩
  | case2 => cases checked
  | case3 => cases checked
  | case4 => cases checked
  | case5 => cases checked
  | case6 => cases checked
  | case7 position unit isOpcode isConstant operand rest isIndex inRange inductionHypothesis =>
      obtain ⟨instructions, restShape, valid⟩ := inductionHypothesis checked
      refine ⟨.load operand.byte.toNat 0 :: instructions, ?_, ?_⟩
      · obtain ⟨unitKind, unitByte⟩ := unit
        obtain ⟨operandKind, operandByte⟩ := operand
        obtain rfl : unitKind = .opcode := Decidable.not_not.mp isOpcode
        obtain rfl : operandKind = .constantIndex := Decidable.not_not.mp isIndex
        obtain rfl : Opcode.constant.byte = unitByte := Opcode.byte_of_ofByte? isConstant
        have sameByte : operandByte.toNat.toUInt8 = operandByte := by
          simp
        rw [Instruction.code_cons, Instruction.units_load, ← restShape, sameByte]
        rfl
      · intro instruction member
        rcases List.mem_cons.mp member with rfl | inRest
        · exact .load (Nat.not_le.mp inRange) 0
        · exact valid instruction inRest
  | case8 position unit rest isOpcode opcode notConstant isDefined inductionHypothesis =>
      obtain ⟨instructions, restShape, valid⟩ := inductionHypothesis checked
      have short : opcode.operandKinds = [] := by
        cases opcode <;> first | rfl | exact absurd rfl notConstant
      refine ⟨.plain opcode 0 :: instructions, ?_, ?_⟩
      · obtain ⟨unitKind, unitByte⟩ := unit
        obtain rfl : unitKind = .opcode := Decidable.not_not.mp isOpcode
        obtain rfl : opcode.byte = unitByte := Opcode.byte_of_ofByte? isDefined
        rw [Instruction.code_cons, Instruction.units_plain short, ← restShape]
        rfl
      · intro instruction member
        rcases List.mem_cons.mp member with rfl | inRest
        · exact .plain short 0
        · exact valid instruction inRest

/-- What a chunk is checked for. -/
structure IsWhole (chunk : Chunk) : Prop where
  lineCount : chunk.lines.length = chunk.code.length
  constantCount : chunk.constants.length ≤ maxConstants
  instructions :
    ∃ instructions,
      chunk.code = Instruction.code instructions ∧
        ∀ instruction ∈ instructions, instruction.Valid chunk.constants.length

/-- The check accepts the chunks that are whole, and no others. -/
theorem validate_eq_ok_iff
    {chunk : Chunk} :
    chunk.validate = .ok () ↔ chunk.IsWhole := by
  unfold validate
  constructor
  · intro valid
    split at valid
    next => cases valid
    next sameLength =>
      split at valid
      next => cases valid
      next fewConstants =>
        exact
          { lineCount := Decidable.not_not.mp sameLength
            constantCount := Nat.not_lt.mp fewConstants
            instructions := exists_instructions_of_checkCode valid }
  · rintro ⟨lineCount, constantCount, instructions, codeShape, valid⟩
    rw [if_neg (not_not_intro lineCount), if_neg (Nat.not_lt.mpr constantCount), codeShape]
    exact checkCode_code constantCount valid 0

end Chunk

namespace Image

/-- The constants that an image holds are data. -/
theorem isData_of_constantValues
    {index : Nat}
    {fields : List ConstantFields}
    {values : List Value}
    (read : constantValues index fields = .ok values) :
    ∀ value ∈ values, value.IsData := by
  induction fields generalizing index values with
  | nil =>
      cases read
      simp
  | cons first rest inductionHypothesis =>
      rw [constantValues] at read
      cases found : constantValue? first with
      | none =>
          rw [found] at read
          cases read
      | some value =>
          rw [found] at read
          cases others : constantValues (index + 1) rest with
          | error problem =>
              rw [others] at read
              cases read
          | ok more =>
              rw [others] at read
              cases read
              intro other member
              rcases List.mem_cons.mp member with rfl | inMore
              · unfold constantValue? at found
                split at found <;> cases found
                all_goals simp
              · exact inductionHypothesis others other inMore

/-- The function was read from a payload whose envelope is intact, and can be run. -/
structure Verified (bytes : List UInt8) (function : Function) (chunk : Chunk) : Prop where
  envelope :
    ∃ envelope,
      readEnvelope? bytes = some envelope ∧
        envelope.magic = magic.toList ∧
          envelope.version = version ∧
            envelope.sum = digest envelope.payload ∧
              decodePayload envelope.payload = .ok function
  defined : function.chunk? = some chunk
  whole : chunk.IsWhole
  constants : ∀ constant ∈ chunk.constants, constant.IsData

/-- A function is read from the fields of a payload, and its chunk has passed the check. -/
theorem whole_of_decodePayload
    {bytes : List UInt8}
    {function : Function}
    (decoded : decodePayload bytes = .ok function) :
    ∃ payload chunk,
      readPayload? bytes = some payload ∧
        function.name = String.ofList payload.name ∧
          function.chunk? = some chunk ∧
            chunk.lines = payload.lines.map Int64.ofInt ∧
              chunk.IsWhole ∧ ∀ constant ∈ chunk.constants, constant.IsData := by
  unfold decodePayload at decoded
  split at decoded
  next => cases decoded
  next payload found =>
    split at decoded
    next => cases decoded
    next =>
      cases read : constantValues 0 payload.constants with
      | error problem =>
          rw [read] at decoded
          cases decoded
      | ok constants =>
          simp only [read, bind, Except.bind] at decoded
          split at decoded
          next => cases decoded
          next valid =>
            cases decoded
            exact
              ⟨payload, _, found, rfl, rfl, rfl, Chunk.validate_eq_ok_iff.mp valid,
                isData_of_constantValues read⟩

/-- Every function that is read from an image is verified. -/
theorem verified_of_decode
    {bytes : List UInt8}
    {function : Function}
    (decoded : decode bytes = .ok function) :
    ∃ chunk, Verified bytes function chunk := by
  unfold decode at decoded
  split at decoded
  next => cases decoded
  next envelope found =>
    split at decoded
    next => cases decoded
    next sameMagic =>
      split at decoded
      next => cases decoded
      next sameVersion =>
        split at decoded
        next => cases decoded
        next sameSum =>
          obtain ⟨_, chunk, _, _, defined, _, whole, constants⟩ := whole_of_decodePayload decoded
          refine ⟨chunk, ⟨envelope, found, ?_, ?_, ?_, decoded⟩, defined, whole, constants⟩
          · exact Decidable.not_not.mp sameMagic
          · exact Decidable.not_not.mp sameVersion
          · exact (Decidable.not_not.mp sameSum).symm

end Image

end Reckon
