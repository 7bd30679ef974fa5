import Reckon.Proofs.Machine.Fetching

namespace Reckon

/-!
# Runs come to their end

No action leaves a machine with more to do, and reading an opcode leaves it with less.  With as
many steps as its bound or more, a run is therefore the same, so that a run is its first step and
the run after it, whatever the code.
-/

namespace Frame

/-- Moving a frame on leaves it with no more units to read. -/
theorem stepBound_le_of_onward
    (frame : Frame)
    {position : Nat}
    (onward : frame.position ≤ position) :
    { frame with position := position }.stepBound ≤ frame.stepBound := by
  cases defined : frame.function.chunk? with
  | none =>
      simp only [stepBound, defined]
      exact Nat.le_refl _
  | some chunk =>
      simp only [stepBound, defined]
      omega

/-- Moving a frame on inside its code leaves it with fewer units to read. -/
theorem stepBound_lt_of_onward
    {frame : Frame}
    {chunk : Chunk}
    (defined : frame.function.chunk? = some chunk)
    (inside : frame.position < chunk.code.length)
    {position : Nat}
    (onward : frame.position < position) :
    { frame with position := position }.stepBound < frame.stepBound := by
  simp only [stepBound, defined]
  omega

end Frame

namespace Machine

/-- There is always a step left for the end of a run. -/
theorem stepBound_pos
    (machine : Machine) :
    0 < machine.stepBound := by
  unfold stepBound
  induction machine.frames with
  | nil =>
      exact Nat.one_pos
  | cons frame outer inductionHypothesis =>
      exact Nat.lt_of_lt_of_le inductionHypothesis (Nat.le_add_left ..)

/-- The bound is about the frames alone. -/
theorem stepBound_congr
    {machine other : Machine}
    (sameFrames : machine.frames = other.frames) :
    machine.stepBound = other.stepBound := by
  unfold stepBound
  rw [sameFrames]

end Machine

namespace Action

/-- However the action ends, it leaves no more steps to take than there were. -/
def Bounded {α : Type} (action : Action α) : Prop :=
  ∀ machine, (action machine).2.stepBound ≤ machine.stepBound

/-- An action that leaves the frames alone leaves the same steps to take. -/
theorem InFrame.bounded
    {α : Type}
    {action : Action α}
    (inFrame : action.InFrame) :
    action.Bounded :=
  fun machine => Nat.le_of_eq (Machine.stepBound_congr (inFrame.frames machine))

namespace Bounded

variable {α β : Type}

/-- Actions one after the other leave no more steps, if each of them does. -/
theorem next
    {action : Action α}
    {following : α → Action β}
    (first : action.Bounded)
    (rest : ∀ value, (following value).Bounded) :
    (action.next following).Bounded := by
  intro machine
  have atFirst := first machine
  simp only [Action.next]
  split
  next value after ended =>
    rw [ended] at atFirst
    exact Nat.le_trans (rest value after) atFirst
  next ended =>
    rwa [ended] at atFirst
  next ended =>
    rwa [ended] at atFirst

theorem fail
    (fault : Fault) :
    (Action.fail fault : Action α).Bounded :=
  fun _ => Nat.le_refl _

theorem inner
    {action : Action Unit}
    (bounded : action.Bounded) :
    (Action.inner action).Bounded :=
  bounded.next fun _ => (InFrame.result none).bounded

theorem skip
    (count : Nat) :
    (Action.skip count).Bounded := by
  intro machine
  unfold Action.skip
  split
  next frame outer shape =>
    simp only [Machine.stepBound, shape, List.foldr_cons]
    exact Nat.add_le_add_right (frame.stepBound_le_of_onward (Nat.le_add_right ..)) _
  next =>
    exact Nat.le_refl _

theorem leave :
    Action.leave.Bounded := by
  intro machine
  unfold Action.leave
  split
  next =>
    exact Nat.le_refl _
  next frame outer shape =>
    have fewer :
        { machine with frames := outer }.stepBound ≤ machine.stepBound := by
      simp only [Machine.stepBound, shape, List.foldr_cons]
      exact Nat.le_add_left ..
    simp only
    split
    · exact fewer
    · exact fewer

theorem constant
    (chunk : Chunk)
    (index? : Option CodeUnit) :
    (Action.constant chunk index?).Bounded := by
  unfold Action.constant
  split
  · exact fail _
  · split
    · exact fail _
    · refine (skip 1).next fun _ => ?_
      split
      · exact fail _
      · exact (InFrame.push _).bounded

theorem returnTop :
    Action.returnTop.Bounded := by
  refine (InFrame.require 1).bounded.next fun _ => InFrame.pop.bounded.next fun value =>
    leave.next fun _ => ?_
  intro machine
  simp only
  split
  · exact Nat.le_refl _
  · exact ((InFrame.push value).next fun _ => InFrame.result none).bounded machine

/-- No instruction leaves more steps than there were. -/
theorem execute
    (chunk : Chunk)
    (position : Nat)
    (opcode : Opcode) :
    (Action.execute chunk position opcode).Bounded := by
  cases opcode with
  | constant =>
      exact (constant chunk _).inner
  | true | false =>
      exact (InFrame.push _).inner.bounded
  | add | subtract | multiply | divide | quotient | power | equal | notEqual | greater
  | greaterEqual | less | lessEqual =>
      exact (InFrame.binary _).inner.bounded
  | not | negate =>
      exact (InFrame.unary _).inner.bounded
  | noop =>
      exact (InFrame.result none).bounded
  | pop =>
      exact InFrame.discard.inner.bounded
  | «return» =>
      exact returnTop
  | assert =>
      exact InFrame.assertTop.inner.bounded

end Bounded

end Action

/-- What a run gives after its first step. -/
def Step.run : Step → Outcome RuntimeError Value × Machine
  | .next after => after.run
  | .returned value after => (.done value, after)
  | .failed error after => (.failed error, after)
  | .aborted after => (.aborted, after)

/-- The states of a run after its first step. -/
def Step.states : Step → List Machine
  | .next after => after.states
  | .returned _ _ | .failed _ _ | .aborted _ => []

namespace Machine

/-- Reading an opcode leaves fewer steps to take, and executing it leaves no more. -/
theorem stepBound_lt_of_dispatch_eq_next
    {machine after : Machine}
    {frame : Frame}
    {outer : List Frame}
    {chunk : Chunk}
    {unit : CodeUnit}
    (framesShape : machine.frames = frame :: outer)
    (defined : frame.function.chunk? = some chunk)
    (inside : frame.position < chunk.code.length)
    (dispatched : machine.dispatch frame chunk unit = .next after) :
    after.stepBound < machine.stepBound := by
  let moved : Machine :=
    { machine with frames := { frame with position := frame.position + 1 } :: outer }
  have shorter : moved.stepBound < machine.stepBound := by
    simp only [moved, stepBound, framesShape, List.foldr_cons]
    exact Nat.add_lt_add_right
      (Frame.stepBound_lt_of_onward defined inside (Nat.lt_succ_self _)) _
  unfold dispatch at dispatched
  cases decoded : Opcode.ofByte? unit.byte with
  | none =>
      simp [decoded, bind, Action.next, Action.skip, framesShape, Action.fail] at dispatched
  | some opcode =>
      have bounded := Action.Bounded.execute chunk frame.position opcode moved
      simp only [decoded, bind, Action.next, Action.skip, framesShape] at dispatched
      split at dispatched <;> cases dispatched
      next ended =>
        rw [ended] at bounded
        exact Nat.lt_of_le_of_lt bounded shorter

/-- A step that does not end the run leaves fewer steps to take. -/
theorem stepBound_lt_of_step_eq_next
    {machine after : Machine}
    (stepped : machine.step = .next after) :
    after.stepBound < machine.stepBound := by
  unfold step at stepped
  split at stepped
  next =>
    cases stepped
  next frame outer framesShape =>
    split at stepped
    next =>
      cases stepped
    next chunk defined =>
      split at stepped
      next =>
        cases stepped
      next unit read =>
        have inside : frame.position < chunk.code.length := by
          unfold Frame.opcodeAt at read
          split at read
          next =>
            cases read
          next present =>
            exact (List.getElem?_eq_some_iff.mp present).1
        exact stepBound_lt_of_dispatch_eq_next framesShape defined inside stepped

/-- With as many steps as the bound or more, a run has the same end and the same states. -/
theorem enough_steps
    {machine : Machine}
    {steps more : Nat}
    (enough : machine.stepBound ≤ steps)
    (alsoEnough : machine.stepBound ≤ more) :
    machine.runFor steps = machine.runFor more ∧
      machine.statesFor steps = machine.statesFor more := by
  have positive := machine.stepBound_pos
  induction steps generalizing machine more with
  | zero =>
      omega
  | succ steps inductionHypothesis =>
      obtain ⟨fewer, rfl⟩ : ∃ fewer, more = fewer + 1 :=
        Nat.exists_eq_succ_of_ne_zero (by omega)
      simp only [runFor, statesFor]
      cases stepped : machine.step with
      | next after =>
          have shorter := stepBound_lt_of_step_eq_next stepped
          obtain ⟨sameEnd, sameStates⟩ :=
            @inductionHypothesis after fewer (by omega) (by omega) after.stepBound_pos
          exact ⟨sameEnd, congrArg (machine :: ·) sameStates⟩
      | returned value after =>
          exact ⟨rfl, rfl⟩
      | failed error after =>
          exact ⟨rfl, rfl⟩
      | aborted after =>
          exact ⟨rfl, rfl⟩

section Runs

variable
  (machine : Machine)

/-- A run is its first step and the run after it. -/
theorem run_eq :
    machine.run = machine.step.run := by
  unfold run
  obtain ⟨steps, bound⟩ := Nat.exists_eq_succ_of_ne_zero machine.stepBound_pos.ne'
  rw [bound, runFor]
  cases stepped : machine.step with
  | next after =>
      have shorter := stepBound_lt_of_step_eq_next stepped
      exact (enough_steps (by omega) (Nat.le_refl _)).1
  | _ =>
      rfl

/-- The states of a run are the first one and those of the run after its step. -/
theorem states_eq :
    machine.states = machine :: machine.step.states := by
  unfold states
  obtain ⟨steps, bound⟩ := Nat.exists_eq_succ_of_ne_zero machine.stepBound_pos.ne'
  rw [bound, statesFor]
  cases stepped : machine.step with
  | next after =>
      have shorter := stepBound_lt_of_step_eq_next stepped
      exact congrArg (machine :: ·) (enough_steps (by omega) (Nat.le_refl _)).2
  | _ =>
      rfl

end Runs

end Machine

end Reckon
