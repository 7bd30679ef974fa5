import Reckon.Proofs.Bytecode.Validity

namespace Reckon

/-!
# Where instructions lie

The check of a chunk walks over its code and visits the offsets at which instructions begin.  In a
chunk that passes, each of them has a whole instruction, and the walk ends with the code.
-/

namespace Opcode

/-- Loading a constant is the one instruction with an operand. -/
theorem width_eq
    (opcode : Opcode) :
    opcode.width = if opcode = .constant then 1 else 0 := by
  cases opcode <;> rfl

end Opcode

namespace Chunk

/-- The offsets that the check of a chunk visits. -/
def boundaries (chunk : Chunk) : List Nat :=
  (visitCode chunk.constants.length 0 chunk.code).1

/-- There is a whole instruction at an offset, with the constant that it refers to. -/
structure HasInstruction (chunk : Chunk) (offset : Nat) (opcode : Opcode) : Prop where
  read :
    ∃ unit,
      chunk.code[offset]? = some unit ∧
        unit.kind = .opcode ∧ Opcode.ofByte? unit.byte = some opcode
  operand :
    opcode = .constant →
    ∃ index value,
      chunk.code[offset + 1]? = some index ∧
        index.kind = .constantIndex ∧ chunk.constants[index.byte.toNat]? = some value

/-- From an offset on, the code is made of instructions that begin at the given offsets. -/
inductive Partitions (chunk : Chunk) : Nat → List Nat → Prop where
  | done :
      Partitions chunk chunk.code.length []
  | next
      {offset : Nat}
      {opcode : Opcode}
      {rest : List Nat}
      (instruction : chunk.HasInstruction offset opcode)
      (following : Partitions chunk (offset + 1 + opcode.width) rest) :
      Partitions chunk offset (offset :: rest)

section Checks

variable
  {chunk : Chunk}

/-- The unit that the rest of the code begins with is the one at its offset. -/
theorem getElem?_of_drop_eq_cons
    {code rest : List CodeUnit}
    {position : Nat}
    {unit : CodeUnit}
    (left : code.drop position = unit :: rest) :
    code[position]? = some unit ∧ code.drop (position + 1) = rest := by
  constructor
  · rw [← List.head?_drop, left]
    rfl
  · rw [← List.tail_drop, left]
    rfl

/-- The offsets that a passing check visits part the code that it checks. -/
theorem partitions_of_visitCode
    {position : Nat}
    {code : List CodeUnit}
    (inside : position ≤ chunk.code.length)
    (left : chunk.code.drop position = code)
    (passed : (visitCode chunk.constants.length position code).2 = .ok ()) :
    chunk.Partitions position (visitCode chunk.constants.length position code).1 := by
  fun_induction visitCode chunk.constants.length position code with
  | case1 position =>
      obtain rfl : position = chunk.code.length :=
        Nat.le_antisymm inside (List.drop_eq_nil_iff.mp left)
      exact .done
  | case2 => cases passed
  | case3 => cases passed
  | case4 => cases passed
  | case5 => cases passed
  | case6 => cases passed
  | case7 position unit isOpcode isConstant operand rest isIndex inRange visited found shape
      inductionHypothesis =>
      obtain ⟨present, leftBehind⟩ := getElem?_of_drop_eq_cons left
      obtain ⟨operandPresent, restLeft⟩ := getElem?_of_drop_eq_cons leftBehind
      obtain ⟨operandInside, _⟩ := List.getElem?_eq_some_iff.mp operandPresent
      rw [shape] at inductionHypothesis
      exact .next
        { read := ⟨unit, present, Decidable.not_not.mp isOpcode, isConstant⟩
          operand := fun _ =>
            ⟨operand, _, operandPresent, Decidable.not_not.mp isIndex,
              List.getElem?_eq_getElem (Nat.not_le.mp inRange)⟩ }
        (inductionHypothesis operandInside restLeft passed)
  | case8 position unit rest isOpcode opcode notConstant isDefined visited found shape
      inductionHypothesis =>
      obtain ⟨present, restLeft⟩ := getElem?_of_drop_eq_cons left
      obtain ⟨unitInside, _⟩ := List.getElem?_eq_some_iff.mp present
      have differs : opcode ≠ .constant := notConstant
      have narrow : opcode.width = 0 := by
        simp [opcode.width_eq, differs]
      rw [shape] at inductionHypothesis
      refine .next
        { read := ⟨unit, present, Decidable.not_not.mp isOpcode, isDefined⟩
          operand := fun isConstant => (differs isConstant).elim } ?_
      rw [narrow]
      exact inductionHypothesis unitInside restLeft passed

/-- The boundaries of a chunk that passes its check part its code. -/
theorem partitions_boundaries
    (valid : chunk.validate = .ok ()) :
    chunk.Partitions 0 chunk.boundaries := by
  refine partitions_of_visitCode (Nat.zero_le _) rfl ?_
  rw [visitCode_snd]
  unfold validate at valid
  split at valid
  · cases valid
  · split at valid
    · cases valid
    · exact valid

/-- There is an instruction at each of the offsets that part the code. -/
theorem Partitions.exists_hasInstruction
    {offset boundary : Nat}
    {offsets : List Nat}
    (partitions : chunk.Partitions offset offsets)
    (member : boundary ∈ offsets) :
    ∃ opcode, chunk.HasInstruction boundary opcode := by
  induction partitions with
  | done =>
      cases member
  | next instruction _ inductionHypothesis =>
      rcases List.mem_cons.mp member with rfl | inRest
      · exact ⟨_, instruction⟩
      · exact inductionHypothesis inRest

end Checks

end Chunk

end Reckon
