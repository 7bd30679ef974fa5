import Reckon.Proofs.Heap.Reachability

namespace Reckon

/-!
# The heap as a map from handles to objects

`Heap.binding?` is the entry of a handle: its object, and whether the object is marked.  Whatever
operations came before, each operation changes the entry of one handle only, apart from clearing,
which removes them all.  Entries therefore stay as they are until their own handle is freed.
-/

/-- The slot once it is vacated, which changes it only if it holds an object. -/
def Slot.vacated (slot : Slot) : Slot :=
  match slot.object? with
  | some _ => { generation := slot.generation + 1, object? := none, marked := false }
  | none => slot

theorem Slot.object?_vacated
    (slot : Slot) :
    slot.vacated.object? = none := by
  unfold vacated
  cases holds : slot.object? with
  | none =>
      exact holds
  | some object =>
      rfl

namespace Heap

/-- What the owner of a heap can do with it. -/
inductive Operation where
  | allocate (object : HeapObject)
  | free (handle : Handle)
  | mark (handle : Handle)
  | clear

namespace Operation

/-- The heap after an operation; one that is refused changes nothing. -/
def apply : Operation → Heap → Heap
  | .allocate object, heap => (heap.allocate object).2
  | .free handle, heap => heap.release handle
  | .mark handle, heap => (heap.mark? handle).getD heap
  | .clear, heap => heap.clear

/-- The operation takes the object of a handle away. -/
def Removes (handle : Handle) : Operation → Prop
  | .free freed => freed = handle
  | .clear => True
  | .allocate _ | .mark _ => False

/-- The operation marks the object of a handle. -/
def marks (handle : Handle) : Operation → Bool
  | .mark marked => marked = handle
  | .allocate _ | .free _ | .clear => false

end Operation

/-- The heap after operations one after the other. -/
def after (heap : Heap) (history : List Operation) : Heap :=
  history.foldl (fun heap operation => operation.apply heap) heap

/-- The object of a handle, and whether it is marked. -/
def binding? (heap : Heap) (handle : Handle) : Option (HeapObject × Bool) :=
  (heap.get? handle).map fun object => (object, heap.isMarked handle)

/-- Two heaps have the same entries, but for that of one handle. -/
def AgreesExcept (handle : Handle) (heap other : Heap) : Prop :=
  ∀ kept, kept ≠ handle → other.binding? kept = heap.binding? kept

section Entries

variable
  {heap : Heap}
  {handle : Handle}

/-- What a handle is bound to is the object and the mark of the slot that it resolves to. -/
theorem binding?_eq_map_resolve? :
    heap.binding? handle = (heap.resolve? handle).map fun found => (found.2, found.1.marked) := by
  unfold binding? get? isMarked
  cases heap.resolve? handle with
  | none =>
      rfl
  | some found =>
      rfl

/-- The handles without a binding are the stale ones. -/
theorem binding?_eq_none_iff :
    heap.binding? handle = none ↔ heap.resolve? handle = none := by
  rw [binding?_eq_map_resolve?, Option.map_eq_none_iff]

/-- A handle is bound if it resolves to a slot with that object and mark. -/
theorem binding?_eq_some_iff
    {object : HeapObject}
    {marked : Bool} :
    heap.binding? handle = some (object, marked) ↔
      ∃ slot, heap.resolve? handle = some (slot, object) ∧ slot.marked = marked := by
  rw [binding?_eq_map_resolve?, Option.map_eq_some_iff]
  constructor
  · rintro ⟨⟨slot, _⟩, resolves, rfl, rfl⟩
    exact ⟨slot, resolves, rfl⟩
  · rintro ⟨slot, resolves, rfl⟩
    exact ⟨_, resolves, rfl⟩

/-- An object can be got by the handles that are bound. -/
theorem get?_isSome_iff :
    (heap.get? handle).isSome = true ↔ ∃ entry, heap.binding? handle = some entry := by
  rw [binding?, ← Option.isSome_iff_exists, Option.isSome_map]

/-- The entry of a handle depends on the slot at its index only. -/
theorem binding?_congr
    {other : Heap}
    (same : other.slot? handle.index = heap.slot? handle.index) :
    other.binding? handle = heap.binding? handle := by
  rw [binding?_eq_map_resolve?, binding?_eq_map_resolve?, resolve?_congr same]

/-- No handle is bound at a free index. -/
theorem binding?_eq_none_of_isFreeAt
    (free : heap.IsFreeAt handle.index) :
    heap.binding? handle = none :=
  binding?_eq_none_iff.mpr free.resolve?_eq_none

/-- No handle of another generation than that of its slot has an entry. -/
theorem binding?_eq_none_of_generation_ne
    {slot : Slot}
    (present : heap.slot? handle.index = some slot)
    (differ : slot.generation ≠ handle.generation) :
    heap.binding? handle = none := by
  rw [binding?_eq_none_iff]
  cases resolves : heap.resolve? handle with
  | none =>
      rfl
  | some found =>
      obtain ⟨presentAgain, _, fits⟩ := resolve?_eq_some_iff.mp resolves
      obtain rfl := Option.some.inj (present.symm.trans presentAgain)
      exact (differ fits).elim

/-- A slot that belongs to one generation has at most one handle with an entry. -/
theorem agreesExcept_of_slot?
    {other : Heap}
    (elsewhere : ∀ index, index ≠ handle.index → other.slot? index = heap.slot? index)
    (before :
      heap.IsFreeAt handle.index ∨
        ∃ slot, heap.slot? handle.index = some slot ∧ slot.generation = handle.generation)
    (after :
      other.IsFreeAt handle.index ∨
        ∃ slot, other.slot? handle.index = some slot ∧ slot.generation = handle.generation) :
    AgreesExcept handle heap other := by
  intro kept differ
  by_cases sameIndex : kept.index = handle.index
  · have generationDiffers : handle.generation ≠ kept.generation := by
      intro sameGeneration
      exact differ (by cases kept; cases handle; simp_all)
    have noEntry
        {either : Heap}
        (belongs :
          either.IsFreeAt handle.index ∨
            ∃ slot,
              either.slot? handle.index = some slot ∧ slot.generation = handle.generation) :
        either.binding? kept = none := by
      rcases belongs with free | ⟨slot, present, generationShape⟩
      · exact binding?_eq_none_of_isFreeAt (sameIndex ▸ free)
      · exact binding?_eq_none_of_generation_ne (sameIndex ▸ present)
          (generationShape ▸ generationDiffers)
    rw [noEntry before, noEntry after]
  · exact binding?_congr (elsewhere _ sameIndex)

end Entries

section Operations

variable
  {heap : Heap}

/-- An object that moves in gets a handle that had no entry, and is not marked. -/
theorem WellFormed.binding?_allocate
    (wellFormed : heap.WellFormed)
    (object : HeapObject)
    (indexed : (heap.allocate object).2.slots.length ≤ maxSlots) :
    heap.binding? (heap.allocate object).1 = none ∧
      (heap.allocate object).2.binding? (heap.allocate object).1 = some (object, false) ∧
        AgreesExcept (heap.allocate object).1 heap (heap.allocate object).2 := by
  have allocates := wellFormed.allocates object indexed
  refine ⟨binding?_eq_none_of_isFreeAt allocates.free, ?_, ?_⟩
  · exact binding?_eq_some_iff.mpr
      ⟨_, resolve?_eq_some_iff.mpr ⟨allocates.moved, rfl, rfl⟩, rfl⟩
  · exact agreesExcept_of_slot? allocates.kept (Or.inl allocates.free)
      (Or.inr ⟨_, allocates.moved, rfl⟩)

/-- A handle without an entry can be neither freed nor marked. -/
theorem refused_of_binding?_eq_none
    {handle : Handle}
    (absent : heap.binding? handle = none) :
    heap.free handle = .error { handle := handle } ∧ heap.mark? handle = none := by
  have stale := binding?_eq_none_iff.mp absent
  simp [free, mark?, stale]

/-- Freeing a handle with an entry removes the entry. -/
theorem binding?_free
    {handle : Handle}
    {object : HeapObject}
    {marked : Bool}
    (present : heap.binding? handle = some (object, marked)) :
    heap.free handle = .ok (heap.release handle) ∧
      (heap.release handle).binding? handle = none ∧
        AgreesExcept handle heap (heap.release handle) := by
  obtain ⟨slot, resolves, _⟩ := binding?_eq_some_iff.mp present
  have vacates := vacates_of_resolve? resolves
  obtain ⟨inPlace, _, generationShape⟩ := resolve?_eq_some_iff.mp resolves
  have freed : (heap.release handle).IsFreeAt handle.index := by
    intro left presentAgain
    rw [vacates.vacated] at presentAgain
    rw [← Option.some.inj presentAgain]
  refine ⟨?_, binding?_eq_none_of_isFreeAt freed, ?_⟩
  · simp [release, free, resolves]
  · exact agreesExcept_of_slot? vacates.kept (Or.inr ⟨slot, inPlace, generationShape⟩)
      (Or.inl freed)

/-- Marking a handle with an entry sets the mark of the entry. -/
theorem binding?_mark
    {handle : Handle}
    {object : HeapObject}
    {marked : Bool}
    (present : heap.binding? handle = some (object, marked)) :
    ∃ after,
      heap.mark? handle = some after ∧ after.binding? handle = some (object, true) ∧
        AgreesExcept handle heap after := by
  obtain ⟨slot, resolves, _⟩ := binding?_eq_some_iff.mp present
  obtain ⟨inPlace, holds, generationShape⟩ := resolve?_eq_some_iff.mp resolves
  have replaced := slot?_setSlot_self inPlace { slot with marked := true }
  refine ⟨heap.setSlot handle.index { slot with marked := true }, ?_, ?_, ?_⟩
  · simp [mark?, resolves]
  · exact binding?_eq_some_iff.mpr
      ⟨_, resolve?_eq_some_iff.mpr ⟨replaced, holds, generationShape⟩, rfl⟩
  · exact agreesExcept_of_slot? (fun index differ => slot?_setSlot_of_ne differ _)
      (Or.inr ⟨slot, inPlace, generationShape⟩) (Or.inr ⟨_, replaced, generationShape⟩)

/-- Vacating a slot leaves all others as they are. -/
theorem slot?_vacate
    (heap : Heap)
    (index other : UInt32) :
    (heap.vacate index).slot? other =
      if other = index then (heap.slot? other).map Slot.vacated else heap.slot? other := by
  let handle : Handle := { index := index, generation := heap.generation index }
  have unchanged (stale : heap.resolve? handle = none) : heap.vacate index = heap :=
    release_of_stale stale
  cases present : heap.slot? index with
  | none =>
      rw [unchanged (by simp [resolve?, handle, present])]
      split
      next same => rw [same, present]; rfl
      next => rfl
  | some slot =>
      cases holds : slot.object? with
      | none =>
          rw [unchanged (by simp [resolve?, handle, present, holds])]
          split
          next same => rw [same, present]; simp [Slot.vacated, holds]
          next => rfl
      | some object =>
          have resolves : heap.resolve? handle = some (slot, object) := by
            simp [resolve?, handle, present, holds, generation]
          have vacates : Vacates heap handle (heap.vacate index) := vacates_of_resolve? resolves
          split
          next same =>
            rw [same, present, vacates.vacated]
            simp [Slot.vacated, holds, handle, generation, present]
          next differ => exact vacates.kept other differ

/--
Clearing a heap vacates every slot once.  Up to each count, the slots before it are vacated and the
others are as they were.
-/
theorem slot?_clear
    (indexed : heap.slots.length ≤ maxSlots)
    (index : UInt32) :
    heap.clear.slot? index = (heap.slot? index).map Slot.vacated := by
  have vacatedBefore (count : Nat) (bounded : count ≤ heap.slots.length) :
      ((List.range count).foldl (fun heap index => heap.vacate index.toUInt32) heap).slot? index =
        if index.toNat < count then (heap.slot? index).map Slot.vacated
        else heap.slot? index := by
    induction count with
    | zero =>
        simp
    | succ count inductionHypothesis =>
        have numbered : count.toUInt32.toNat = count := by
          simp only [maxSlots] at indexed
          simpa using (by omega : count < 2 ^ 32)
        rw [List.range_succ, List.foldl_append, List.foldl_cons, List.foldl_nil, slot?_vacate,
          inductionHypothesis (by omega)]
        by_cases here : index = count.toUInt32
        · have counted : index.toNat = count := by rw [here, numbered]
          simp [here, numbered]
        · have apart : index.toNat ≠ count := by
            intro same
            exact here (UInt32.toNat_inj.mp (same.trans numbered.symm))
          have stillBefore : index.toNat < count + 1 ↔ index.toNat < count := by omega
          simp [here, stillBefore]
  rw [clear, vacatedBefore _ (Nat.le_refl _)]
  split
  next => rfl
  next behind =>
    have absent : heap.slot? index = none := List.getElem?_eq_none (by omega)
    rw [absent]
    rfl

/-- Clearing a heap removes every entry. -/
theorem binding?_clear
    (indexed : heap.slots.length ≤ maxSlots)
    (handle : Handle) :
    heap.clear.binding? handle = none := by
  refine binding?_eq_none_of_isFreeAt fun slot present => ?_
  rw [slot?_clear indexed, Option.map_eq_some_iff] at present
  obtain ⟨before, _, rfl⟩ := present
  exact before.object?_vacated

/-- An operation that does not remove an entry leaves its object, and marks it if it says so. -/
theorem WellFormed.binding?_apply
    (wellFormed : heap.WellFormed)
    {operation : Operation}
    (indexed : (operation.apply heap).slots.length ≤ maxSlots)
    {handle : Handle}
    (keeps : ¬ operation.Removes handle)
    {object : HeapObject}
    {marked : Bool}
    (present : heap.binding? handle = some (object, marked)) :
    (operation.apply heap).binding? handle =
      some (object, marked || operation.marks handle) := by
  cases operation with
  | allocate moving =>
      obtain ⟨absent, _, agrees⟩ := wellFormed.binding?_allocate moving indexed
      have differ : handle ≠ (heap.allocate moving).1 := by
        rintro rfl
        simp [absent] at present
      simpa [Operation.apply, Operation.marks, present] using agrees handle differ
  | free freed =>
      simp only [Operation.apply, Operation.marks, Bool.or_false]
      cases found : heap.binding? freed with
      | none =>
          rw [release_of_stale (binding?_eq_none_iff.mp found), present]
      | some entry =>
          rw [(binding?_free found).2.2 handle fun same => keeps same.symm, present]
  | mark target =>
      simp only [Operation.apply, Operation.marks]
      cases found : heap.binding? target with
      | none =>
          have differ : target ≠ handle := by
            rintro rfl
            simp [found] at present
          simp [(refused_of_binding?_eq_none found).2, differ, present]
      | some entry =>
          obtain ⟨after, marks, markedEntry, agrees⟩ := binding?_mark found
          simp only [marks, Option.getD_some]
          by_cases same : target = handle
          · subst same
            obtain rfl := Option.some.inj (found.symm.trans present)
            simpa using markedEntry
          · simpa [same, present] using agrees handle (Ne.symm same)
  | clear =>
      exact (keeps True.intro).elim

end Operations

section Histories

variable
  {heap : Heap}

@[simp] theorem after_nil :
    heap.after [] = heap :=
  rfl

@[simp] theorem after_cons
    (operation : Operation)
    (rest : List Operation) :
    heap.after (operation :: rest) = (operation.apply heap).after rest :=
  rfl

/-- Operations after others go on from where these led. -/
theorem after_append
    (earlier rest : List Operation) :
    heap.after (earlier ++ rest) = (heap.after earlier).after rest :=
  List.foldl_append

/-- One more operation leads to a reachable heap. -/
theorem Reachable.apply
    (reached : heap.Reachable)
    (operation : Operation) :
    (operation.apply heap).Reachable := by
  cases operation with
  | allocate object =>
      exact reached.allocate object
  | free handle =>
      exact reached.release handle
  | mark handle =>
      simp only [Operation.apply]
      cases marks : heap.mark? handle with
      | none =>
          exact reached
      | some marked =>
          exact reached.mark handle marks
  | clear =>
      exact reached.clear

/-- No operation takes slots away. -/
theorem length_le_apply
    (operation : Operation) :
    heap.slots.length ≤ (operation.apply heap).slots.length := by
  cases operation with
  | allocate object =>
      exact (length_allocate heap object).1
  | free handle =>
      exact Nat.le_of_eq (length_release heap handle).symm
  | mark handle =>
      simp only [Operation.apply]
      cases marks : heap.mark? handle with
      | none =>
          exact Nat.le_refl _
      | some marked =>
          exact Nat.le_of_eq (length_mark marks).symm
  | clear =>
      exact Nat.le_of_eq length_clear.symm

/-- Any operations lead from a reachable heap to reachable ones. -/
theorem Reachable.after
    (reached : heap.Reachable)
    (history : List Operation) :
    (heap.after history).Reachable := by
  induction history generalizing heap with
  | nil =>
      exact reached
  | cons operation rest inductionHypothesis =>
      exact inductionHypothesis (reached.apply operation)

/-- No operations take slots away. -/
theorem length_le_after
    (history : List Operation) :
    heap.slots.length ≤ (heap.after history).slots.length := by
  induction history generalizing heap with
  | nil =>
      exact Nat.le_refl _
  | cons operation rest inductionHypothesis =>
      exact Nat.le_trans (length_le_apply operation) inductionHypothesis

/-- An entry keeps its object until it is removed, and is marked once it has been marked. -/
theorem Reachable.binding?_after
    (reached : heap.Reachable)
    {later : List Operation}
    (indexed : (heap.after later).slots.length ≤ maxSlots)
    {handle : Handle}
    (keeps : ∀ operation ∈ later, ¬ operation.Removes handle)
    {object : HeapObject}
    {marked : Bool}
    (present : heap.binding? handle = some (object, marked)) :
    (heap.after later).binding? handle =
      some (object, marked || later.any (·.marks handle)) := by
  induction later generalizing heap marked with
  | nil =>
      simpa using present
  | cons operation rest inductionHypothesis =>
      have afterFirst : (operation.apply heap).slots.length ≤ maxSlots :=
        Nat.le_trans (length_le_after rest) indexed
      have wellFormed := reached.wellFormed (Nat.le_trans (length_le_apply operation) afterFirst)
      have step := wellFormed.binding?_apply afterFirst (keeps operation (by simp)) present
      have run :=
        inductionHypothesis (reached.apply operation) indexed
          (fun other member => keeps other (by simp [member])) step
      simpa [Bool.or_assoc] using run

end Histories

/-- The handles of a list are those with an entry, each once, and the size counts them. -/
structure Enumerates (heap : Heap) (live : List Handle) : Prop where
  distinct : live.Nodup
  mem_iff : ∀ handle, handle ∈ live ↔ (heap.get? handle).isSome = true
  sized : heap.size = live.length

section Sizes

variable
  {heap : Heap}
  {live : List Handle}

/-- A live handle is one with an entry. -/
theorem Enumerates.mem_iff_binding?
    (enumerates : heap.Enumerates live)
    (handle : Handle) :
    handle ∈ live ↔ ∃ entry, heap.binding? handle = some entry :=
  (enumerates.mem_iff handle).trans get?_isSome_iff

/-- Allocating adds the new handle to those that are live. -/
theorem WellFormed.enumerates_allocate
    (wellFormed : heap.WellFormed)
    (enumerates : heap.Enumerates live)
    (object : HeapObject)
    (indexed : (heap.allocate object).2.slots.length ≤ maxSlots) :
    (heap.allocate object).2.Enumerates ((heap.allocate object).1 :: live) := by
  obtain ⟨absent, present, agrees⟩ := wellFormed.binding?_allocate object indexed
  have sized := (wellFormed.allocates object indexed).sized
  refine ⟨List.nodup_cons.mpr ⟨?_, enumerates.distinct⟩, fun handle => ?_, ?_⟩
  · simp [enumerates.mem_iff_binding?, absent]
  · rw [get?_isSome_iff, List.mem_cons, enumerates.mem_iff_binding?]
    by_cases same : handle = (heap.allocate object).1
    · simp [same, present]
    · simp [same, agrees handle same]
  · rw [sized, enumerates.sized, List.length_cons]
    rfl

/-- Releasing leaves a list of the live handles. -/
theorem Enumerates.release
    (enumerates : heap.Enumerates live)
    (handle : Handle) :
    ∃ left, (heap.release handle).Enumerates left := by
  cases found : heap.binding? handle with
  | none =>
      rw [release_of_stale (binding?_eq_none_iff.mp found)]
      exact ⟨live, enumerates⟩
  | some entry =>
      obtain ⟨_, removed, agrees⟩ := binding?_free found
      obtain ⟨slot, resolves, _⟩ := binding?_eq_some_iff.mp found
      have sized := (vacates_of_resolve? resolves).sized
      have member : handle ∈ live := (enumerates.mem_iff_binding? handle).mpr ⟨_, found⟩
      have counted := List.length_erase_of_mem member
      have positive := List.length_pos_of_mem member
      refine ⟨live.erase handle, enumerates.distinct.erase handle, fun other => ?_, ?_⟩
      · rw [get?_isSome_iff, enumerates.distinct.mem_erase_iff, enumerates.mem_iff_binding?]
        by_cases same : other = handle
        · simp [same, removed]
        · simp [same, agrees other same]
      · have := enumerates.sized
        omega

/-- Marking leaves the live handles as they were. -/
theorem Enumerates.mark
    (enumerates : heap.Enumerates live)
    {handle : Handle}
    {marked : Heap}
    (marks : heap.mark? handle = some marked) :
    marked.Enumerates live := by
  have found : ∃ entry, heap.binding? handle = some entry := by
    rw [← Option.ne_none_iff_exists']
    intro absent
    simp [(refused_of_binding?_eq_none absent).2] at marks
  obtain ⟨⟨object, wasMarked⟩, present⟩ := found
  obtain ⟨after, marksAgain, markedEntry, agrees⟩ := binding?_mark present
  obtain rfl := Option.some.inj (marks.symm.trans marksAgain)
  refine ⟨enumerates.distinct, fun other => ?_, ?_⟩
  · rw [get?_isSome_iff, enumerates.mem_iff_binding?]
    by_cases same : other = handle
    · simp [same, present, markedEntry]
    · rw [agrees other same]
  · obtain ⟨_, _, rfl⟩ := Option.map_eq_some_iff.mp marks
    simpa [size, setSlot] using enumerates.sized

/-- The size of a heap that operations have reached is the number of its live handles. -/
theorem Reachable.exists_enumerates
    (reached : heap.Reachable)
    (indexed : heap.slots.length ≤ maxSlots) :
    ∃ live, heap.Enumerates live := by
  induction reached with
  | empty =>
      exact ⟨[], List.nodup_nil, by simp [Heap.empty, get?, resolve?, slot?], rfl⟩
  | @allocate heap reached object inductionHypothesis =>
      have indexedBefore := Nat.le_trans (length_allocate heap object).1 indexed
      obtain ⟨live, enumerates⟩ := inductionHypothesis indexedBefore
      exact ⟨_, (reached.wellFormed indexedBefore).enumerates_allocate enumerates object indexed⟩
  | release _ handle inductionHypothesis =>
      rw [length_release] at indexed
      obtain ⟨live, enumerates⟩ := inductionHypothesis indexed
      exact enumerates.release handle
  | mark _ handle marks inductionHypothesis =>
      rw [length_mark marks] at indexed
      obtain ⟨live, enumerates⟩ := inductionHypothesis indexed
      exact ⟨live, enumerates.mark marks⟩
  | clear _ inductionHypothesis =>
      rw [length_clear] at indexed
      refine @clear_induction _ (fun heap => ∃ live, heap.Enumerates live)
        (inductionHypothesis indexed) fun heap handle counted => ?_
      obtain ⟨live, enumerates⟩ := counted
      exact enumerates.release handle

end Sizes

/-- The heap is a map from handles to entries, and its operations are those of a map. -/
structure ImplementsMap (heap : Heap) : Prop where
  /-- The vacant indexes are distinct, and they are those of the slots without an object. -/
  wellFormed : heap.WellFormed
  /-- The size is the number of live handles. -/
  sized : ∃ live, heap.Enumerates live
  /-- A new object gets a handle that is not live, under which it is found without a mark. -/
  allocated :
    ∀ object,
      let (handle, after) := heap.allocate object
      heap.binding? handle = none ∧ after.binding? handle = some (object, false) ∧
        AgreesExcept handle heap after
  /-- A handle that is not live is refused, which changes nothing. -/
  refused :
    ∀ handle,
      heap.binding? handle = none →
      heap.free handle = .error { handle := handle } ∧ heap.mark? handle = none ∧
        Operation.apply (.free handle) heap = heap ∧ Operation.apply (.mark handle) heap = heap
  /-- Freeing a live handle removes its entry and no other. -/
  freed :
    ∀ handle entry,
      heap.binding? handle = some entry →
      ∃ after,
        heap.free handle = .ok after ∧ after.binding? handle = none ∧
          AgreesExcept handle heap after
  /-- Marking a live handle sets its mark and no other. -/
  marked :
    ∀ handle object wasMarked,
      heap.binding? handle = some (object, wasMarked) →
      ∃ after,
        heap.mark? handle = some after ∧ after.binding? handle = some (object, true) ∧
          AgreesExcept handle heap after
  /-- Whatever follows, an entry keeps its object and its mark until it is removed. -/
  kept :
    ∀ handle object wasMarked later,
      heap.binding? handle = some (object, wasMarked) →
      (heap.after later).slots.length < maxSlots →
      (∀ operation ∈ later, ¬ operation.Removes handle) →
      (heap.after later).binding? handle =
        some (object, wasMarked || later.any (·.marks handle))
  /-- Clearing leaves no live handle. -/
  cleared : ∀ handle, heap.clear.binding? handle = none

/--
After any operations that leave fewer slots than indexes can tell apart, the heap is a map from
handles to objects.
-/
theorem implementsMap_after
    (history : List Operation)
    (indexed : (empty.after history).slots.length < maxSlots) :
    (empty.after history).ImplementsMap := by
  have reached : (empty.after history).Reachable := Reachable.empty.after history
  have wellFormed := reached.wellFormed (Nat.le_of_lt indexed)
  exact {
    wellFormed := wellFormed
    sized := reached.exists_enumerates (Nat.le_of_lt indexed)
    allocated := by
      intro object
      exact wellFormed.binding?_allocate object
        (Nat.le_trans (length_allocate _ object).2 indexed)
    refused := by
      intro handle absent
      have refused := refused_of_binding?_eq_none absent
      have stale := release_of_stale (binding?_eq_none_iff.mp absent)
      exact ⟨refused.1, refused.2, stale, by simp [Operation.apply, refused.2]⟩
    freed := by
      intro handle entry present
      exact ⟨_, binding?_free present⟩
    marked := by
      intro handle object wasMarked present
      exact binding?_mark present
    kept := by
      intro handle object wasMarked later present indexedLater keeps
      exact reached.binding?_after (Nat.le_of_lt indexedLater) keeps present
    cleared :=
      binding?_clear (Nat.le_of_lt indexed)
  }

/-- A slot that is used again next to an object that is marked. -/
def reusingHistory : List Operation :=
  [.allocate (.native "first"), .allocate (.native "second"), .mark ⟨1, 0⟩, .free ⟨0, 0⟩,
    .free ⟨0, 0⟩, .allocate (.native "third")]

/-- The mark stays when the other slot is freed once more. -/
theorem implementsMap_after_reusing :
    (empty.after reusingHistory).slots.length < maxSlots ∧
      (empty.after (reusingHistory ++ [.free ⟨0, 1⟩])).binding? ⟨1, 0⟩ =
        some (.native "second", true) := by
  have indexed : (empty.after reusingHistory).slots.length < maxSlots := by
    decide
  have implements := implementsMap_after reusingHistory indexed
  refine ⟨indexed, ?_⟩
  rw [after_append]
  refine implements.kept ⟨1, 0⟩ (.native "second") true _ rfl (by decide) ?_
  simp [Operation.Removes]

end Heap

end Reckon
