import Reckon.Interpreter.Basic
import Reckon.Proofs.Bytecode.ImageRoundTrip
import Reckon.Proofs.Machine.History
import Reckon.Proofs.Machine.Operands
import Reckon.Proofs.Machine.Safety

namespace Reckon

/-!
# Running images

Bytes that are no image are refused before the machine sees them.  What is left is verified code,
which computes with truth values and numbers only and leaves the machine as it was, unless it comes
to an undefined power.
-/

namespace Interpreter

/-- The run of a verified function, by what it can do to the interpreter. -/
structure RunsSafely
    (interpreter : Interpreter)
    (function : Function)
    (ended : Result Value) : Prop where
  aborts :
    ended.1 = .aborted ↔
      ∃ state ∈ interpreter.machine.invocationStates function [], state.AtUndefinedPower
  clears : ended.1 ≠ .aborted → ended.2.machine.stack = [] ∧ ended.2.machine.frames = []
  keeps : interpreter.machine.Keeps ended.2.machine
  /-- The only handle on the stack is the one that the machine itself made for the function. -/
  handles :
    ∀ state ∈ interpreter.machine.invocationStates function [],
      state.RunsOnData (interpreter.machine.hold function).1
  returns : ∀ value, ended.1 = .done value → value.IsData

/-- What is verified in an image runs safely. -/
theorem runsSafely_execute
    {interpreter : Interpreter}
    (atRest : interpreter.machine.AtRest)
    {bytes : List UInt8}
    {function : Function}
    {chunk : Chunk}
    (verified : Image.Verified bytes function chunk) :
    interpreter.RunsSafely function (interpreter.execute function) := by
  have noArguments : ∀ argument ∈ ([] : List Value), argument.IsData := by
    simp
  have executed :
      interpreter.execute function =
        ((interpreter.machine.invoke (some function) []).1.mapFailure .runtime,
          { interpreter with machine := (interpreter.machine.invoke (some function) []).2 }) :=
    rfl
  obtain ⟨stack, frames, invoked, cleared⟩ := atRest.invoke_eq verified.defined []
  have abortedOutcome :
      (interpreter.execute function).1 = .aborted ↔
        Routine.invoke interpreter.machine.options verified.defined [] = .aborted := by
    rw [executed, invoked]
    cases Routine.invoke interpreter.machine.options verified.defined [] <;>
      simp [Outcome.mapFailure]
  refine ⟨?_, ?_, ?_, ?_, ?_⟩
  · rw [abortedOutcome]
    exact atRest.invoke_eq_aborted_iff verified.defined []
  · intro ends
    rw [executed, invoked]
    exact cleared (mt abortedOutcome.mpr ends)
  · rw [executed, invoked]
    exact atRest.keeps function stack frames
  · exact
      atRest.runsOnData_of_mem_invocationStates verified.defined verified.constants noArguments
  · intro value returned
    apply atRest.isData_of_invoke verified.defined verified.constants noArguments
    rw [executed] at returned
    cases outcome : (interpreter.machine.invoke (some function) []).1 with
    | done result =>
        simp only [outcome, Outcome.mapFailure, Outcome.done.injEq] at returned
        rw [returned]
    | failed error => simp [outcome, Outcome.mapFailure] at returned
    | aborted => simp [outcome, Outcome.mapFailure] at returned

/--
Bytes are refused with the interpreter untouched, or hold a verified function whose run is safe
but for undefined powers.
-/
theorem runImage_refuses_or_runs_verified
    {interpreter : Interpreter}
    (atRest : interpreter.machine.AtRest)
    (bytes : List UInt8) :
    (∃ problem detail,
        Image.decode bytes = .error problem ∧
          problem.message = "bad chunk image: " ++ detail ∧
            interpreter.runImage bytes = (.failed (.image problem), interpreter)) ∨
      ∃ function chunk,
        Image.decode bytes = .ok function ∧
          Image.Verified bytes function chunk ∧
            interpreter.RunsSafely function (interpreter.runImage bytes) := by
  unfold runImage
  cases decoded : Image.decode bytes with
  | error problem =>
      exact Or.inl ⟨problem, problem.detail, rfl, rfl, rfl⟩
  | ok function =>
      obtain ⟨chunk, verified⟩ := Image.verified_of_decode decoded
      exact Or.inr ⟨function, chunk, rfl, verified, runsSafely_execute atRest verified⟩

theorem runImage_returnsOne :
    ∃ image,
      Image.encode (some Machine.returnsOne) = .ok image ∧
        (new .standard).machine.AtRest ∧
          (∃ chunk, Image.Verified image Machine.returnsOne chunk) ∧
            ((new .standard).runImage image).1 = .done (.integer 1) ∧
              ((new .standard).runImage image).2.machine.stack = [] ∧
                (new .standard).machine.Keeps ((new .standard).runImage image).2.machine := by
  obtain ⟨image, written, _, read⟩ :=
    @Image.exists_exact_image Machine.returnsOne _
      ⟨rfl, rfl, by simp, by decide, by decide⟩
      (by simp [Value.HoldsNegativeZero])
  have atRest : (new .standard).machine.AtRest := Machine.atRest_new _
  have outcome : ((new .standard).runImage image).1 = .done (.integer 1) := by
    simp only [runImage, read]
    rfl
  refine ⟨image, written, atRest, ?_⟩
  rcases runImage_refuses_or_runs_verified atRest image with
    ⟨problem, _, refused, _⟩ | ⟨function, chunk, decoded, verified, runs⟩
  · rw [read] at refused
    cases refused
  · obtain rfl : Machine.returnsOne = function := Except.ok.inj (read.symm.trans decoded)
    refine ⟨⟨chunk, verified⟩, outcome, (runs.clears ?_).1, runs.keeps⟩
    simp [outcome]

/-- A verified image may hold an undefined power, which aborts the run. -/
theorem runImage_negatesAfterPower :
    ∃ image,
      Image.encode (some Machine.negatesAfterPower) = .ok image ∧
        (∃ chunk, Image.Verified image Machine.negatesAfterPower chunk) ∧
          ((new .standard).runImage image).1 = .aborted ∧
            ((new .standard).runImage image).2.machine.stack.length = 1 ∧
              ((new .standard).runImage image).2.machine.frames.length = 1 := by
  have unsignedZeros :
      ∀ constant ∈
          [Value.complex ⟨0, 0⟩, .complex ⟨Binary64.nan, Binary64.infinity false⟩],
        ¬ constant.HoldsNegativeZero := by
    intro constant member
    simp only [List.mem_cons, List.not_mem_nil, or_false] at member
    rcases member with rfl | rfl
    all_goals
      rintro (realZero | imagZero)
      · exact absurd (congrArg Binary64.shape realZero) (by decide)
      · exact absurd (congrArg Binary64.shape imagZero) (by decide)
  obtain ⟨image, written, _, read⟩ :=
    @Image.exists_exact_image Machine.negatesAfterPower _
      ⟨rfl, rfl, by simp, by decide, by decide⟩
      unsignedZeros
  refine ⟨image, written, Image.verified_of_decode read, ?_⟩
  simp only [runImage, read]
  exact ⟨rfl, rfl, rfl⟩

end Interpreter

end Reckon
