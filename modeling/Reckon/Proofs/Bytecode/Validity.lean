import Reckon.Proofs.Syntax.Postfix

namespace Reckon

/-!
# Valid code

A chunk made of whole instructions, none of which refers to a constant that is not there, passes
its check.  The postfix code of a program is made of such instructions.
-/

/-- An instruction that may stand beside so many constants. -/
inductive Instruction.Valid (constants : Nat) : Instruction → Prop where
  | plain
      {opcode : Opcode}
      (short : opcode.operandKinds = [])
      (line : Int64) :
      Valid constants (.plain opcode line)
  | load
      {index : Nat}
      (inRange : index < constants)
      (line : Int64) :
      Valid constants (.load index line)

namespace Chunk

variable
  {constants : Nat}

/-- The check goes on past an instruction without operands. -/
theorem checkCode_plain
    {opcode : Opcode}
    (short : opcode.operandKinds = [])
    (line : Int64)
    (position : Nat)
    (rest : List CodeUnit) :
    checkCode constants position ((Instruction.plain opcode line).units ++ rest) =
      checkCode constants (position + 1) rest := by
  rw [Instruction.units_plain short, List.singleton_append, checkCode.eq_def]
  simp only [ne_eq, not_true_eq_false, ↓reduceIte, Opcode.ofByte?_byte]
  split
  next undefined =>
    cases undefined
  next isConstant =>
    cases Option.some.inj isConstant
    cases short
  next =>
    rfl

/-- The check goes on past an instruction that loads a constant there is. -/
theorem checkCode_load
    (counted : constants ≤ maxConstants)
    {index : Nat}
    (inRange : index < constants)
    (line : Int64)
    (position : Nat)
    (rest : List CodeUnit) :
    checkCode constants position ((Instruction.load index line).units ++ rest) =
      checkCode constants (position + 2) rest := by
  have inByte := toNat_index (Nat.lt_of_lt_of_le inRange counted)
  have present : ¬ constants ≤ index := by
    omega
  rw [Instruction.units_load, List.cons_append, List.singleton_append, checkCode.eq_def]
  simp only [Opcode.ofByte?_byte, inByte, present, ne_eq, not_true_eq_false, ↓reduceIte]

/-- The check passes over valid instructions. -/
theorem checkCode_code
    (counted : constants ≤ maxConstants)
    {instructions : List Instruction}
    (valid : ∀ instruction ∈ instructions, instruction.Valid constants)
    (position : Nat) :
    checkCode constants position (Instruction.code instructions) = .ok () := by
  induction instructions generalizing position with
  | nil =>
      rfl
  | cons first rest inductionHypothesis =>
      have restValid := fun instruction member =>
        valid instruction (List.mem_cons_of_mem first member)
      rw [Instruction.code_cons]
      cases valid first (List.mem_cons_self ..) with
      | plain short line =>
          rw [checkCode_plain short]
          exact inductionHypothesis restValid (position + 1)
      | load inRange line =>
          rw [checkCode_load counted inRange]
          exact inductionHypothesis restValid (position + 2)

/-- What `checkCode` finds, and the offsets that it visits on the way. -/
def visitCode
    (constants : Nat) :
    Nat → List CodeUnit → List Nat × Except ChunkProblem Unit
  | _, [] => ([], .ok ())
  | position, unit :: rest =>
      if unit.kind ≠ .opcode then
        ([position], .error (.expectedOpcode position unit))
      else
        match Opcode.ofByte? unit.byte with
        | none => ([position], .error (.undefinedOpcode position unit.byte))
        | some .constant =>
            match rest with
            | [] => ([position], .error (.missingOperand position .constant))
            | operand :: rest =>
                if operand.kind ≠ .constantIndex then
                  ([position], .error (.wrongOperand (position + 1) .constantIndex operand))
                else if constants ≤ operand.byte.toNat then
                  ([position], .error (.constantRange (position + 1) operand.byte constants))
                else
                  let (visited, found) := visitCode constants (position + 2) rest
                  (position :: visited, found)
        | some _ =>
            let (visited, found) := visitCode constants (position + 1) rest
            (position :: visited, found)

/-- Noting the offsets changes nothing about the check. -/
theorem visitCode_snd
    (constants position : Nat)
    (code : List CodeUnit) :
    (visitCode constants position code).2 = checkCode constants position code := by
  fun_induction visitCode constants position code <;> rw [checkCode.eq_def] <;> grind

end Chunk

namespace Expression

/-- The code of an expression refers to the constants of its literals only. -/
theorem valid_instructions
    {expression : Expression}
    {constants first : Nat}
    (enough : first + expression.literals.length ≤ constants) :
    ∀ instruction ∈ expression.instructions first, instruction.Valid constants := by
  induction expression generalizing first with
  | number token =>
      intro instruction member
      rw [List.mem_singleton.mp member]
      exact .load enough token.line
  | group _ _ _ inductionHypothesis =>
      exact inductionHypothesis enough
  | binary left sign operator right leftHypothesis rightHypothesis =>
      simp only [literals, List.length_append] at enough
      intro instruction member
      simp only [instructions, List.mem_append, List.mem_singleton] at member
      rcases member with (inLeft | inRight) | rfl
      · exact leftHypothesis (by omega) instruction inLeft
      · exact rightHypothesis (by omega) instruction inRight
      · exact .plain sign.operandKinds_opcode operator.line

end Expression

namespace Script

/-- The code of a program is valid if there are constants for all of its literals. -/
theorem valid_closed
    {script : Script}
    {constants first : Nat}
    (enough : first + (literals script).length ≤ constants) :
    ∀ instruction ∈ closed first script, instruction.Valid constants := by
  induction script generalizing first with
  | nil =>
      simp [closed]
  | cons statement rest inductionHypothesis =>
      simp only [literals, List.flatMap_cons, List.length_append] at enough
      intro instruction member
      simp only [closed, Statement.instructions, List.mem_append, List.mem_singleton] at member
      rcases member with (inBody | rfl) | inRest
      · exact Expression.valid_instructions (by omega) instruction inBody
      · cases statement <;> exact .plain rfl _
      · exact inductionHypothesis (by simp only [literals]; omega) instruction inRest

/-- The code of a program refers to the constants of its literals only. -/
theorem valid_instructions
    {script : Script}
    {constants : Nat}
    (enough : (literals script).length ≤ constants)
    (line : Int64) :
    ∀ instruction ∈ instructions line script, instruction.Valid constants := by
  have closedValid := @valid_closed script constants 0 (by omega)
  intro instruction member
  unfold instructions at member
  split at member
  next =>
    rcases List.mem_append.mp member with inside | atEnd
    · exact closedValid instruction (List.dropLast_subset _ inside)
    · rw [List.mem_singleton.mp atEnd]
      exact .plain rfl line
  next =>
    rcases List.mem_append.mp member with inside | atEnd
    · exact closedValid instruction inside
    · simp only [List.mem_cons, List.not_mem_nil, or_false] at atEnd
      rcases atEnd with rfl | rfl <;> exact .plain rfl line

end Script

end Reckon
