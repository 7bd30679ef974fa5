import Reckon.Proofs.Machine.Invocation

namespace Reckon

/-!
# Machines with a history

A machine that was used before answers the next invocation as a new one would: every operation
clears the stack behind it, and what it leaves on the heap is out of the reach of code.  An
invocation that is aborted is the exception, because its frame stays.  The frame goes on once a
later invocation returns into it, unless the machine is reset first.
-/

namespace Action

/-- However the action ends, it changes nothing of a machine but its operands and frames. -/
def OnStack {α : Type} (action : Action α) : Prop :=
  ∀ machine,
    ∃ stack frames, (action machine).2 = { machine with stack := stack, frames := frames }

namespace OnStack

variable {α β : Type}

/-- Actions one after the other change the stack only, if each of them does. -/
theorem next
    {action : Action α}
    {following : α → Action β}
    (first : action.OnStack)
    (rest : ∀ value, (following value).OnStack) :
    (action.next following).OnStack := by
  intro machine
  obtain ⟨stack, frames, shape⟩ := first machine
  rcases ended : action machine with ⟨outcome, after⟩
  rw [ended] at shape
  cases outcome with
  | done value =>
      obtain ⟨laterStack, laterFrames, laterShape⟩ := rest value after
      refine ⟨laterStack, laterFrames, ?_⟩
      obtain rfl : after = _ := shape
      simp only [Action.next, ended, laterShape]
  | failed fault =>
      exact ⟨stack, frames, by simpa only [Action.next, ended] using shape⟩
  | aborted =>
      exact ⟨stack, frames, by simpa only [Action.next, ended] using shape⟩

theorem result
    (value : α) :
    (Action.result value).OnStack := by
  intro machine
  exact ⟨machine.stack, machine.frames, rfl⟩

theorem fail
    (fault : Fault) :
    (Action.fail fault : Action α).OnStack := by
  intro machine
  exact ⟨machine.stack, machine.frames, rfl⟩

theorem arithmetic
    (outcome : Outcome ArithmeticFault α) :
    (Action.arithmetic outcome).OnStack := by
  intro machine
  exact ⟨machine.stack, machine.frames, rfl⟩

theorem push
    (value : Value) :
    (Action.push value).OnStack := by
  intro machine
  unfold Action.push
  split
  · exact ⟨machine.stack, machine.frames, rfl⟩
  · exact ⟨value :: machine.stack, machine.frames, rfl⟩

theorem pop :
    Action.pop.OnStack := by
  intro machine
  unfold Action.pop
  split
  · exact ⟨_, machine.frames, rfl⟩
  · exact ⟨machine.stack, machine.frames, rfl⟩

theorem require
    (count : Int64) :
    (Action.require count).OnStack := by
  intro machine
  unfold Action.require
  split <;> exact ⟨machine.stack, machine.frames, rfl⟩

theorem skip
    (count : Nat) :
    (Action.skip count).OnStack := by
  intro machine
  unfold Action.skip
  split
  · exact ⟨machine.stack, _, rfl⟩
  · exact ⟨machine.stack, machine.frames, rfl⟩

theorem leave :
    Action.leave.OnStack := by
  intro machine
  unfold Action.leave
  split
  · exact ⟨machine.stack, machine.frames, rfl⟩
  · simp only
    split
    · exact ⟨machine.stack, _, rfl⟩
    · exact ⟨_, _, rfl⟩

theorem inner
    {action : Action Unit}
    (onStack : action.OnStack) :
    (Action.inner action).OnStack :=
  onStack.next fun _ => result none

theorem constant
    (chunk : Chunk)
    (index? : Option CodeUnit) :
    (Action.constant chunk index?).OnStack := by
  unfold Action.constant
  split
  · exact fail _
  · split
    · exact fail _
    · refine (skip 1).next fun _ => ?_
      split
      · exact fail _
      · exact push _

theorem binary
    (operator : Operator) :
    (Action.binary operator).OnStack :=
  (require 2).next fun _ => pop.next fun _ => pop.next fun _ =>
    (arithmetic _).next fun value => push value

theorem unary
    (function : Value → Except ArithmeticFault Value) :
    (Action.unary function).OnStack :=
  (require 1).next fun _ => pop.next fun _ => (arithmetic _).next fun value => push value

theorem discard :
    Action.discard.OnStack :=
  (require 1).next fun _ => pop.next fun _ => result ()

theorem assertTop :
    Action.assertTop.OnStack := by
  refine (require 1).next fun _ => pop.next fun condition => ?_
  split
  · exact result ()
  · exact fail _
  · exact fail _

theorem returnTop :
    Action.returnTop.OnStack := by
  refine (require 1).next fun _ => pop.next fun value => leave.next fun _ => ?_
  intro machine
  simp only
  split
  · exact ⟨machine.stack, machine.frames, rfl⟩
  · exact (push value).next (fun _ => result none) machine

/-- Every instruction changes the stack only. -/
theorem execute
    (chunk : Chunk)
    (position : Nat)
    (opcode : Opcode) :
    (Action.execute chunk position opcode).OnStack := by
  cases opcode with
  | constant =>
      exact (constant chunk _).inner
  | true | false =>
      exact (push _).inner
  | add | subtract | multiply | divide | quotient | power | equal | notEqual | greater
  | greaterEqual | less | lessEqual =>
      exact (binary _).inner
  | not | negate =>
      exact (unary _).inner
  | noop =>
      exact result none
  | pop =>
      exact discard.inner
  | «return» =>
      exact returnTop
  | assert =>
      exact assertTop.inner

theorem call
    (function : Function)
    (count : Int64) :
    (Action.call function count).OnStack := by
  intro machine
  unfold Action.call
  split
  · exact ⟨machine.stack, machine.frames, rfl⟩
  · split
    · exact ⟨machine.stack, machine.frames, rfl⟩
    · exact ⟨machine.stack, _, rfl⟩

theorem callValue
    (callee : Value)
    (count : Int64) :
    (Action.callValue callee count).OnStack := by
  intro machine
  unfold Action.callValue
  split
  · split
    · exact ⟨machine.stack, machine.frames, rfl⟩
    · exact call _ count machine
    · exact ⟨machine.stack, machine.frames, rfl⟩
  · exact ⟨machine.stack, machine.frames, rfl⟩

theorem pushAll
    (values : List Value) :
    (Action.pushAll values).OnStack := by
  induction values with
  | nil =>
      exact result ()
  | cons value rest inductionHypothesis =>
      exact (push value).next fun _ => inductionHypothesis

theorem enter
    (callee : Value)
    (arguments : List Value) :
    (Action.enter callee arguments).OnStack :=
  (push callee).next fun _ => (pushAll arguments).next fun _ => callValue callee _

end OnStack

end Action

/-- The machine behind a step. -/
def Step.machine : Step → Machine
  | .next after => after
  | .returned _ after => after
  | .failed _ after => after
  | .aborted after => after

namespace Machine

section AnyMachine

variable (machine : Machine)

/-- Dispatching a unit of code changes nothing but operands and frames. -/
theorem dispatch_onStack
    (frame : Frame)
    (chunk : Chunk)
    (unit : CodeUnit) :
    ∃ stack frames,
      (machine.dispatch frame chunk unit).machine =
        { machine with stack := stack, frames := frames } := by
  have settled
      {action : Action (Option Value)}
      (onStack : action.OnStack)
      {outcome : Outcome Fault (Option Value)}
      {after : Machine}
      (ended : action machine = (outcome, after)) :
      ∃ stack frames, after = { machine with stack := stack, frames := frames } := by
    obtain ⟨stack, frames, shape⟩ := onStack machine
    rw [ended] at shape
    exact ⟨stack, frames, shape⟩
  unfold dispatch
  cases Opcode.ofByte? unit.byte with
  | none =>
      simp only
      split
      all_goals
        next ended => exact settled ((Action.OnStack.skip 1).next fun _ => .fail _) ended
  | some opcode =>
      simp only
      split
      all_goals
        next ended =>
          exact settled ((Action.OnStack.skip 1).next fun _ => .execute chunk _ opcode) ended

/-- A step changes nothing of a machine but its operands and frames. -/
theorem step_onStack :
    ∃ stack frames,
      machine.step.machine = { machine with stack := stack, frames := frames } := by
  unfold step
  split
  · exact ⟨machine.stack, machine.frames, rfl⟩
  · split
    · exact ⟨machine.stack, machine.frames, rfl⟩
    · split
      · exact ⟨machine.stack, machine.frames, rfl⟩
      · exact machine.dispatch_onStack _ _ _

/-- A run changes nothing but operands and frames, however long it is. -/
theorem runFor_onStack
    (steps : Nat) :
    ∃ stack frames,
      (machine.runFor steps).2 = { machine with stack := stack, frames := frames } := by
  induction steps generalizing machine with
  | zero =>
      exact ⟨machine.stack, machine.frames, rfl⟩
  | succ steps inductionHypothesis =>
      obtain ⟨stack, frames, shape⟩ := machine.step_onStack
      unfold runFor
      cases stepped : machine.step with
      | next after =>
          rw [stepped] at shape
          obtain rfl : after = _ := shape
          exact inductionHypothesis _
      | returned _ after | failed _ after | aborted after =>
          rw [stepped] at shape
          exact ⟨stack, frames, shape⟩

/-- However a call ends, it changes nothing of a machine but its operands and frames. -/
theorem callHeld_onStack
    (handle : Handle)
    (arguments : List Value) :
    ∃ stack frames,
      (machine.callHeld handle arguments).2 =
        { machine with stack := stack, frames := frames } := by
  obtain ⟨stack, frames, shape⟩ := Action.OnStack.enter (.object handle) arguments machine
  unfold callHeld
  rcases entered : Action.enter (.object handle) arguments machine with ⟨outcome, after⟩
  obtain rfl : after = _ := by simpa only [entered] using shape
  cases outcome with
  | done =>
      obtain ⟨laterStack, laterFrames, laterShape⟩ :=
        runFor_onStack { machine with stack := stack, frames := frames }
          (stepBound { machine with stack := stack, frames := frames })
      simp only [run]
      rcases ran : runFor _ { machine with stack := stack, frames := frames } with
        ⟨outcome, last⟩
      rw [ran] at laterShape
      obtain rfl : last = _ := laterShape
      cases outcome with
      | done value =>
          exact ⟨laterStack, laterFrames, rfl⟩
      | failed error =>
          exact ⟨[], [], rfl⟩
      | aborted =>
          exact ⟨laterStack, laterFrames, rfl⟩
  | failed fault =>
      exact ⟨[], [], rfl⟩
  | aborted =>
      exact ⟨stack, frames, rfl⟩

/-- An invocation takes its function through the heap, and leaves the rest of a machine alone. -/
theorem invoke_onStack
    (function? : Option Function)
    (arguments : List Value) :
    ∃ stack frames heap,
      (machine.invoke function? arguments).2 =
          { machine with stack := stack, frames := frames, heap := heap } ∧
        (heap = machine.heap ∨
          ∃ object,
            heap = (machine.heap.allocate object).2.release (machine.heap.allocate object).1) := by
  unfold invoke
  split
  next name arity chunk =>
    let function : Function := { name, arity, chunk? := some chunk }
    obtain ⟨stack, frames, shape⟩ :=
      (machine.hold function).2.callHeld_onStack (machine.hold function).1 arguments
    refine ⟨stack, frames, _, ?_, Or.inr ⟨.function function, rfl⟩⟩
    simp only [function] at shape
    simp only [shape]
    rfl
  next =>
    exact ⟨machine.stack, machine.frames, machine.heap, rfl, Or.inl rfl⟩

/-- Remembering a name touches the names only. -/
theorem intern_eq
    (name : String) :
    ∃ names, machine.intern name = { machine with interned := names } := by
  unfold intern
  split
  · exact ⟨machine.interned, rfl⟩
  · exact ⟨_, rfl⟩

/-- Setting a global changes nothing but the names and the globals. -/
theorem setGlobal_eq
    (name : String)
    (value : Value) :
    ∃ names globals,
      machine.setGlobal name value = { machine with interned := names, globals := globals } := by
  obtain ⟨names, interned⟩ := machine.intern_eq name
  exact ⟨names, _, by simp only [setGlobal, interned]; rfl⟩

end AnyMachine

/-- What a host can do with a machine. -/
inductive Operation where
  | invoke (function? : Option Function) (arguments : List Value)
  | interpret (function? : Option Function)
  | setGlobal (name : String) (value : Value)
  | deleteGlobal (name : String)
  | intern (name : String)
  | allocate (object : HeapObject)
  | free (handle : Handle)
  | mark (handle : Handle)
  | clearHeap
  | reset

namespace Operation

/-- The machine after an operation. -/
def apply : Operation → Machine → Machine
  | .invoke function? arguments, machine => (machine.invoke function? arguments).2
  | .interpret function?, machine => (machine.interpret function?).2
  | .setGlobal name value, machine => machine.setGlobal name value
  | .deleteGlobal name, machine => machine.deleteGlobal name
  | .intern name, machine => machine.intern name
  | .allocate object, machine => { machine with heap := (machine.heap.allocate object).2 }
  | .free handle, machine => machine.release handle
  | .mark handle, machine =>
      { machine with heap := (machine.heap.mark? handle).getD machine.heap }
  | .clearHeap, machine => { machine with heap := machine.heap.clear }
  | .reset, machine => machine.reset

/-- The operation is an invocation that comes to no end. -/
def Aborts : Operation → Machine → Prop
  | .invoke function? arguments, machine => (machine.invoke function? arguments).1 = .aborted
  | .interpret function?, machine => (machine.interpret function?).1 = .aborted
  | _, _ => False

end Operation

/-- The machine after operations one after the other. -/
def after (machine : Machine) (history : List Operation) : Machine :=
  history.foldl (fun machine operation => operation.apply machine) machine

/-- Every invocation that is aborted is followed by a reset. -/
def Recovers : Machine → List Operation → Prop
  | _, [] => True
  | machine, operation :: rest =>
      (operation.Aborts machine → .reset ∈ rest) ∧ Recovers (operation.apply machine) rest

/-- What operations keep of a machine: its limits, and a heap of which they know every slot. -/
structure Precedes (before after : Machine) : Prop where
  options : after.options = before.options
  reached : before.heap.Reachable → after.heap.Reachable
  slots : before.heap.slots.length ≤ after.heap.slots.length

namespace Precedes

theorem refl
    (machine : Machine) :
    machine.Precedes machine :=
  ⟨rfl, id, Nat.le_refl _⟩

theorem trans
    {first second third : Machine}
    (start : first.Precedes second)
    (rest : second.Precedes third) :
    first.Precedes third :=
  ⟨rest.options.trans start.options, rest.reached ∘ start.reached,
    Nat.le_trans start.slots rest.slots⟩

/-- An invocation keeps the limits and the slots of the heap. -/
theorem invoke
    (machine : Machine)
    (function? : Option Function)
    (arguments : List Value) :
    machine.Precedes (machine.invoke function? arguments).2 := by
  obtain ⟨stack, frames, heap, shape, unchanged | ⟨object, passed⟩⟩ :=
    machine.invoke_onStack function? arguments
  · rw [shape, unchanged]
    exact ⟨rfl, id, Nat.le_refl _⟩
  · rw [shape, passed]
    refine ⟨rfl, fun reached => (reached.allocate object).release _, ?_⟩
    rw [Heap.length_release]
    exact (Heap.length_allocate machine.heap object).1

/-- Every operation keeps the limits and the slots of the heap. -/
theorem apply
    (operation : Operation)
    (machine : Machine) :
    machine.Precedes (operation.apply machine) := by
  cases operation with
  | invoke function? arguments =>
      exact invoke machine function? arguments
  | interpret function? =>
      exact invoke machine function? []
  | setGlobal name value =>
      obtain ⟨names, globals, shape⟩ := machine.setGlobal_eq name value
      simp only [Operation.apply, shape]
      exact ⟨rfl, id, Nat.le_refl _⟩
  | deleteGlobal name =>
      exact ⟨rfl, id, Nat.le_refl _⟩
  | intern name =>
      obtain ⟨names, shape⟩ := machine.intern_eq name
      simp only [Operation.apply, shape]
      exact ⟨rfl, id, Nat.le_refl _⟩
  | allocate object =>
      exact ⟨rfl, fun reached => reached.allocate object,
        (Heap.length_allocate machine.heap object).1⟩
  | free handle =>
      exact ⟨rfl, fun reached => reached.release handle,
        Nat.le_of_eq (Heap.length_release machine.heap handle).symm⟩
  | mark handle =>
      cases marks : machine.heap.mark? handle with
      | none =>
          simp only [Operation.apply, marks, Option.getD_none]
          exact ⟨rfl, id, Nat.le_refl _⟩
      | some marked =>
          simp only [Operation.apply, marks, Option.getD_some]
          exact ⟨rfl, fun reached => reached.mark handle marks,
            Nat.le_of_eq (Heap.length_mark marks).symm⟩
  | clearHeap =>
      exact ⟨rfl, fun reached => reached.clear, Nat.le_of_eq Heap.length_clear.symm⟩
  | reset =>
      exact ⟨rfl, fun reached => reached.clear, Nat.le_of_eq Heap.length_clear.symm⟩

/-- A whole history keeps the limits and the slots of the heap. -/
theorem after
    (machine : Machine)
    (history : List Operation) :
    machine.Precedes (machine.after history) := by
  induction history generalizing machine with
  | nil =>
      exact refl machine
  | cons operation rest inductionHypothesis =>
      exact (apply operation machine).trans (inductionHypothesis _)

end Precedes

/-- An invocation that comes to an end leaves nothing on the stack. -/
theorem AtRest.cleared_of_invoke
    {machine : Machine}
    (atRest : machine.AtRest)
    {function? : Option Function}
    {arguments : List Value}
    (ends : (machine.invoke function? arguments).1 ≠ .aborted) :
    (machine.invoke function? arguments).2.stack = [] ∧
      (machine.invoke function? arguments).2.frames = [] := by
  match function? with
  | none | some { name := _, arity := _, chunk? := none } =>
      exact ⟨atRest.emptyStack, atRest.noFrames⟩
  | some { name, arity, chunk? := some chunk } =>
      obtain ⟨stack, frames, invoked, cleared⟩ :=
        @AtRest.invoke_eq machine { name, arity, chunk? := some chunk } chunk atRest rfl
          arguments
      rw [invoked] at ends ⊢
      exact cleared ends

/-- An operation that is not aborted leaves no operands and frames on a machine at rest. -/
theorem AtRest.cleared_of_apply
    {machine : Machine}
    (atRest : machine.AtRest)
    {operation : Operation}
    (ends : ¬ operation.Aborts machine) :
    (operation.apply machine).stack = [] ∧ (operation.apply machine).frames = [] := by
  have asBefore := And.intro atRest.emptyStack atRest.noFrames
  cases operation with
  | invoke function? arguments | interpret function? =>
      exact atRest.cleared_of_invoke ends
  | setGlobal name value =>
      obtain ⟨names, globals, shape⟩ := machine.setGlobal_eq name value
      simpa only [Operation.apply, shape] using asBefore
  | intern name =>
      obtain ⟨names, shape⟩ := machine.intern_eq name
      simpa only [Operation.apply, shape] using asBefore
  | reset =>
      exact ⟨rfl, rfl⟩
  | deleteGlobal | allocate | free | mark | clearHeap =>
      exact asBefore

/--
A machine at rest stays so along a history that recovers from what is aborted, and a machine that
is not at rest comes to rest if it is reset.
-/
theorem atRest_after
    {machine : Machine}
    {history : List Operation}
    (reached : machine.heap.Reachable)
    (indexed : (machine.after history).heap.slots.length < Heap.maxSlots)
    (recovers : machine.Recovers history)
    (restsOrResets : machine.AtRest ∨ .reset ∈ history) :
    (machine.after history).AtRest := by
  induction history generalizing machine with
  | nil =>
      exact restsOrResets.resolve_right List.not_mem_nil
  | cons operation rest inductionHypothesis =>
      have step := Precedes.apply operation machine
      have onward := Precedes.after (operation.apply machine) rest
      refine inductionHypothesis (step.reached reached) indexed recovers.2 ?_
      by_cases resetsLater : .reset ∈ rest
      · exact Or.inr resetsLater
      · have ends : ¬ operation.Aborts machine := mt recovers.1 resetsLater
        have cleared :
            (operation.apply machine).stack = [] ∧ (operation.apply machine).frames = [] := by
          rcases restsOrResets with atRest | member
          · exact atRest.cleared_of_apply ends
          · obtain rfl := (List.mem_cons.mp member).resolve_right resetsLater
            exact ⟨rfl, rfl⟩
        exact Or.inl
          { emptyStack := cleared.1
            noFrames := cleared.2
            reached := step.reached reached
            indexed := Nat.lt_of_le_of_lt onward.slots indexed }

/-- Machines at rest with the same limits answer an invocation in the same way. -/
theorem AtRest.invoke_congr
    {first second : Machine}
    (firstRests : first.AtRest)
    (secondRests : second.AtRest)
    (sameLimits : first.options = second.options)
    (function? : Option Function)
    (arguments : List Value) :
    (first.invoke function? arguments).1 = (second.invoke function? arguments).1 := by
  match function? with
  | none | some { name := _, arity := _, chunk? := none } =>
      rfl
  | some { name, arity, chunk? := some chunk } =>
      let function : Function := { name, arity, chunk? := some chunk }
      obtain ⟨_, _, firstInvoked, _⟩ :=
        @AtRest.invoke_eq first function chunk firstRests rfl arguments
      obtain ⟨_, _, secondInvoked, _⟩ :=
        @AtRest.invoke_eq second function chunk secondRests rfl arguments
      rw [firstInvoked, secondInvoked, sameLimits]

/--
Nothing that was done with a machine before influences an invocation, as long as the machine was
reset after every invocation that was aborted: its outcome is that on a new machine with the same
limits.
-/
theorem invoke_after_history_eq_invoke_new
    (options : MachineOptions)
    {history : List Operation}
    (indexed : ((new options).after history).heap.slots.length < Heap.maxSlots)
    (recovers : (new options).Recovers history)
    (function? : Option Function)
    (arguments : List Value) :
    (((new options).after history).invoke function? arguments).1 =
      ((new options).invoke function? arguments).1 := by
  have atRest := atRest_after .empty indexed recovers (Or.inl (atRest_new options))
  have sameLimits := (Precedes.after (new options) history).options
  exact atRest.invoke_congr (atRest_new options) sameLimits function? arguments

/-- Code that comes to an undefined power, and would negate what comes after it. -/
def negatesAfterPower : Function :=
  { name := "f"
    arity := 0
    chunk? := some
      { code :=
          [⟨.opcode, Opcode.constant.byte⟩, ⟨.constantIndex, 0⟩,
            ⟨.opcode, Opcode.constant.byte⟩, ⟨.constantIndex, 1⟩,
            ⟨.opcode, Opcode.power.byte⟩, ⟨.opcode, Opcode.negate.byte⟩,
            ⟨.opcode, Opcode.return.byte⟩]
        lines := [1, 1, 1, 1, 1, 1, 1]
        constants :=
          [.complex ⟨0, 0⟩, .complex ⟨Binary64.nan, Binary64.infinity false⟩] } }

/-- Code that returns the number one. -/
def returnsOne : Function :=
  { name := "g"
    arity := 0
    chunk? := some
      { code :=
          [⟨.opcode, Opcode.constant.byte⟩, ⟨.constantIndex, 0⟩,
            ⟨.opcode, Opcode.return.byte⟩]
        lines := [1, 1, 1]
        constants := [.integer 1] } }

/-- The machine that an aborted invocation leaves. -/
def interrupted : Machine :=
  { new .standard with
    stack := [.object ⟨0, 0⟩]
    frames := [{ function := negatesAfterPower, position := 5, slotBase := 0 }]
    heap := { slots := [{ generation := 1, object? := none, marked := false }], vacant := [0] } }

theorem apply_negatesAfterPower :
    Operation.apply (.invoke (some negatesAfterPower) []) (new .standard) = interrupted :=
  rfl

/-- An aborted invocation, a reset, and an invocation that fails. -/
def recoveredHistory : List Operation :=
  [.invoke (some negatesAfterPower) [], .reset, .allocate (.native "host"),
    .invoke (some returnsOne) [.bool true]]

theorem after_recoveredHistory :
    (new .standard).after recoveredHistory =
      interrupted.after (recoveredHistory.drop 1) := by
  simp only [after, recoveredHistory, List.drop_succ_cons, List.drop_zero, List.foldl_cons,
    apply_negatesAfterPower]

theorem recovers_recoveredHistory :
    (new .standard).Recovers recoveredHistory := by
  rw [recoveredHistory, Recovers, apply_negatesAfterPower]
  exact ⟨fun _ => by simp, nofun, nofun, nofun, True.intro⟩

/-- An aborted invocation and an error leave no trace behind a reset. -/
theorem invoke_after_recoveredHistory :
    (new .standard).Recovers recoveredHistory ∧
      (((new .standard).after recoveredHistory).invoke (some returnsOne) []).1 =
        .done (.integer 1) := by
  refine ⟨recovers_recoveredHistory, ?_⟩
  have indexed :
      ((new .standard).after recoveredHistory).heap.slots.length < Heap.maxSlots := by
    rw [after_recoveredHistory]
    decide
  calc
    (((new .standard).after recoveredHistory).invoke (some returnsOne) []).1
      = ((new .standard).invoke (some returnsOne) []).1 :=
        invoke_after_history_eq_invoke_new .standard indexed recovers_recoveredHistory _ _
    _ = .done (.integer 1) :=
        rfl

/-- The frame of an aborted invocation goes on when a later one returns, and negates its value. -/
theorem invoke_after_aborted_history :
    let used := (new .standard).after [.invoke (some negatesAfterPower) []]
    (used.invoke (some returnsOne) []).1 = .done (.integer (-1)) ∧
      ((new .standard).invoke (some returnsOne) []).1 = .done (.integer 1) := by
  intro used
  have shape : used = interrupted := apply_negatesAfterPower
  rw [shape]
  exact ⟨rfl, rfl⟩

end Machine

end Reckon
