import Mathlib.Algebra.Group.Nat.Defs
import Reckon.Heap

namespace Reckon

/-!
# Reachable heaps

`Heap.slot?` is the view of a heap: every operation changes it at one index at most.  A heap that
operations have reached keeps its vacant indexes apart, and they are those of the slots without an
object.  A new object therefore moves into a slot that no handle resolves to.
-/

namespace Heap

/-- How many slots 32-bit indexes can tell apart. -/
def maxSlots : Nat := 2 ^ 32

/-- There is no object at an index. -/
def IsFreeAt (heap : Heap) (index : UInt32) : Prop :=
  ∀ slot, heap.slot? index = some slot → slot.object? = none

/-- The number of slots that hold an object. -/
def liveCount (heap : Heap) : Nat :=
  heap.slots.countP (·.object?.isSome)

section Views

variable
  {heap : Heap}

/-- A slot that is replaced is the new one. -/
theorem slot?_setSlot_self
    {index : UInt32}
    {old : Slot}
    (present : heap.slot? index = some old)
    (slot : Slot) :
    (heap.setSlot index slot).slot? index = some slot := by
  obtain ⟨inside, _⟩ := List.getElem?_eq_some_iff.mp present
  simp [setSlot, slot?, inside]

/-- Replacing a slot leaves the others alone. -/
theorem slot?_setSlot_of_ne
    {index other : UInt32}
    (differ : other ≠ index)
    (slot : Slot) :
    (heap.setSlot index slot).slot? other = heap.slot? other := by
  simp [setSlot, slot?, List.getElem?_set_ne (mt UInt32.toNat_inj.mp differ.symm)]

/-- What a handle resolves to is read off the slot at its index. -/
theorem resolve?_eq_some_iff
    {handle : Handle}
    {slot : Slot}
    {object : HeapObject} :
    heap.resolve? handle = some (slot, object) ↔
      heap.slot? handle.index = some slot ∧
        slot.object? = some object ∧ slot.generation = handle.generation := by
  simp only [resolve?, Option.bind_eq_bind, Option.bind_eq_some_iff,
    Option.ite_none_right_eq_some, Option.some.injEq, Prod.mk.injEq]
  constructor
  · rintro ⟨_, present, _, holds, fits, rfl, rfl⟩
    exact ⟨present, holds, fits⟩
  · rintro ⟨present, holds, fits⟩
    exact ⟨slot, present, object, holds, fits, rfl, rfl⟩

/-- Heaps with the same slot at its index agree on a handle. -/
theorem resolve?_congr
    {other : Heap}
    {handle : Handle}
    (same : heap.slot? handle.index = other.slot? handle.index) :
    heap.resolve? handle = other.resolve? handle := by
  simp only [resolve?, same]

/-- No handle resolves to an index without an object. -/
theorem IsFreeAt.resolve?_eq_none
    {handle : Handle}
    (free : heap.IsFreeAt handle.index) :
    heap.resolve? handle = none := by
  cases found : heap.resolve? handle with
  | none =>
      rfl
  | some pair =>
      obtain ⟨present, holds, _⟩ := resolve?_eq_some_iff.mp found
      simp [free _ present] at holds

end Views

/-- The vacant indexes are distinct, and they are those of the slots without an object. -/
structure WellFormed (heap : Heap) : Prop where
  distinct : heap.vacant.Nodup
  vacant_iff :
    ∀ index,
      index ∈ heap.vacant ↔ ∃ slot, heap.slot? index = some slot ∧ slot.object? = none

/-- Heaps that are reached from the empty one by operations. -/
inductive Reachable : Heap → Prop where
  | empty :
      Reachable .empty
  | allocate
      {heap : Heap}
      (reached : Reachable heap)
      (object : HeapObject) :
      Reachable (heap.allocate object).2
  | release
      {heap : Heap}
      (reached : Reachable heap)
      (handle : Handle) :
      Reachable (heap.release handle)
  | mark
      {heap marked : Heap}
      (reached : Reachable heap)
      (handle : Handle)
      (marks : heap.mark? handle = some marked) :
      Reachable marked
  | clear
      {heap : Heap}
      (reached : Reachable heap) :
      Reachable heap.clear

/-- What moving an object in does to a heap: it lives where there was no object. -/
structure Allocates
    (heap : Heap)
    (object : HeapObject)
    (handle : Handle)
    (after : Heap) :
    Prop where
  free : heap.IsFreeAt handle.index
  moved :
    after.slot? handle.index =
      some { generation := handle.generation, object? := some object, marked := false }
  kept : ∀ other, other ≠ handle.index → after.slot? other = heap.slot? other
  vacant_iff : ∀ other, other ∈ after.vacant ↔ other ∈ heap.vacant ∧ other ≠ handle.index
  vacant_sublist : after.vacant.Sublist heap.vacant
  counted : after.liveCount = heap.liveCount + 1
  sized : after.size = heap.size + 1

/-- What vacating the slot of a handle does to a heap: its generation moves on. -/
structure Vacates
    (heap : Heap)
    (handle : Handle)
    (after : Heap) :
    Prop where
  vacated :
    after.slot? handle.index =
      some { generation := handle.generation + 1, object? := none, marked := false }
  kept : ∀ other, other ≠ handle.index → after.slot? other = heap.slot? other
  vacant_eq : after.vacant = handle.index :: heap.vacant
  counted : after.liveCount + 1 = heap.liveCount
  sized : after.size + 1 = heap.size

section Operations

variable
  {heap : Heap}

/-- Replacing a slot counts the new content in place of the old. -/
theorem liveCount_setSlot
    {index : UInt32}
    {old : Slot}
    (present : heap.slot? index = some old)
    (slot : Slot) :
    (heap.setSlot index slot).liveCount + (if old.object?.isSome then 1 else 0) =
      heap.liveCount + (if slot.object?.isSome then 1 else 0) := by
  obtain ⟨inside, oldShape⟩ := List.getElem?_eq_some_iff.mp present
  have counted : old.object?.isSome = true → 0 < heap.liveCount := by
    intro live
    exact List.countP_pos_iff.mpr ⟨old, oldShape ▸ List.getElem_mem inside, live⟩
  simp only [liveCount, setSlot, List.countP_set inside, oldShape] at counted ⊢
  split
  · have := counted ‹_›
    omega
  · omega

/-- An object moves into the slot vacated last, or into a new one. -/
theorem WellFormed.allocates
    (wellFormed : heap.WellFormed)
    (object : HeapObject)
    (indexed : (heap.allocate object).2.slots.length ≤ maxSlots) :
    Allocates heap object (heap.allocate object).1 (heap.allocate object).2 := by
  unfold allocate at indexed ⊢
  cases vacantShape : heap.vacant with
  | nil =>
      have room : heap.slots.length < 2 ^ 32 := by
        simpa [vacantShape, maxSlots, Nat.lt_iff_le_pred] using indexed
      have numbered : heap.slots.length.toUInt32.toNat = heap.slots.length := by
        simpa using room
      exact {
        free := by
          intro slot present
          simp [slot?, numbered] at present
        moved := by
          simp [slot?, numbered]
        kept := by
          intro other differ
          have apart : other.toNat ≠ heap.slots.length := by
            rw [← numbered]
            exact mt UInt32.toNat_inj.mp differ
          simp only [slot?]
          rcases Nat.lt_or_gt_of_ne apart with before | behind
          · rw [List.getElem?_append_left before]
          · rw [List.getElem?_eq_none (by simp; omega), List.getElem?_eq_none (by omega)]
        vacant_iff := by
          simp [vacantShape]
        vacant_sublist := by
          simp
        counted := by
          simp [liveCount]
        sized := by
          simp [size, vacantShape]
      }
  | cons index vacant =>
      obtain ⟨old, present, isFree⟩ :=
        (wellFormed.vacant_iff index).mp (by simp [vacantShape])
      have distinct : (index :: vacant).Nodup := vacantShape ▸ wellFormed.distinct
      have presentStill : { heap with vacant := vacant }.slot? index = some old := present
      have counted :=
        liveCount_setSlot presentStill
          { generation := heap.generation index, object? := some object, marked := false }
      exact {
        free := by
          intro slot presentAgain
          obtain rfl : old = slot := Option.some.inj (present.symm.trans presentAgain)
          exact isFree
        moved :=
          slot?_setSlot_self presentStill _
        kept := by
          intro other differ
          rw [slot?_setSlot_of_ne differ]
          rfl
        vacant_iff := by
          intro other
          simp only [setSlot, vacantShape, List.mem_cons]
          have absent := (List.nodup_cons.mp distinct).1
          constructor
          · intro member
            exact ⟨Or.inr member, fun same => absent (same ▸ member)⟩
          · rintro ⟨rfl | member, differ⟩
            · exact (differ rfl).elim
            · exact member
        vacant_sublist := by
          simp [setSlot, vacantShape]
        counted := by
          simpa [isFree, liveCount] using counted
        sized := by
          simp only [size, setSlot, vacantShape, List.length_set, List.length_cons]
          omega
      }

/-- Vacating the slot of a handle that resolves. -/
theorem vacates_of_resolve?
    {handle : Handle}
    {slot : Slot}
    {object : HeapObject}
    (resolves : heap.resolve? handle = some (slot, object)) :
    Vacates heap handle (heap.release handle) := by
  obtain ⟨present, holds, generationShape⟩ := resolve?_eq_some_iff.mp resolves
  have presentStill :
      { heap with vacant := handle.index :: heap.vacant }.slot? handle.index = some slot :=
    present
  have counted :=
    liveCount_setSlot presentStill
      { generation := slot.generation + 1, object? := none, marked := false }
  have released :
      heap.release handle =
        { heap with vacant := handle.index :: heap.vacant }.setSlot handle.index
          { generation := slot.generation + 1, object? := none, marked := false } := by
    simp [release, free, resolves]
  rw [released]
  exact {
    vacated := by
      rw [slot?_setSlot_self presentStill, generationShape]
    kept := by
      intro other differ
      rw [slot?_setSlot_of_ne differ]
      rfl
    vacant_eq :=
      rfl
    counted := by
      simpa [holds, liveCount] using counted
    sized := by
      simp only [size, setSlot, List.length_set, List.length_cons]
      omega
  }

/-- Releasing a stale handle does nothing. -/
theorem release_of_stale
    {handle : Handle}
    (stale : heap.resolve? handle = none) :
    heap.release handle = heap := by
  simp [release, free, stale]

/-- Allocating keeps a heap well formed as long as indexes tell slots apart. -/
theorem WellFormed.allocate
    (wellFormed : heap.WellFormed)
    (object : HeapObject)
    (indexed : (heap.allocate object).2.slots.length ≤ maxSlots) :
    (heap.allocate object).2.WellFormed := by
  have allocates := wellFormed.allocates object indexed
  refine ⟨wellFormed.distinct.sublist allocates.vacant_sublist, ?_⟩
  intro index
  rw [allocates.vacant_iff, wellFormed.vacant_iff]
  by_cases same : index = (heap.allocate object).1.index
  · simp [same, allocates.moved]
  · simp [same, allocates.kept index same]

theorem WellFormed.release
    (wellFormed : heap.WellFormed)
    (handle : Handle) :
    (heap.release handle).WellFormed := by
  cases resolves : heap.resolve? handle with
  | none =>
      rw [release_of_stale resolves]
      exact wellFormed
  | some found =>
      have vacates := vacates_of_resolve? resolves
      obtain ⟨present, holds, _⟩ := resolve?_eq_some_iff.mp resolves
      have taken : handle.index ∉ heap.vacant := by
        rw [wellFormed.vacant_iff]
        rintro ⟨slot, presentAgain, isFree⟩
        obtain rfl := Option.some.inj (present.symm.trans presentAgain)
        simp [isFree] at holds
      constructor
      · rw [vacates.vacant_eq]
        exact List.nodup_cons.mpr ⟨taken, wellFormed.distinct⟩
      · intro index
        rw [vacates.vacant_eq, List.mem_cons, wellFormed.vacant_iff]
        by_cases same : index = handle.index
        · simp [same, vacates.vacated]
        · simp [same, vacates.kept index same]

theorem WellFormed.mark
    {handle : Handle}
    {marked : Heap}
    (wellFormed : heap.WellFormed)
    (marks : heap.mark? handle = some marked) :
    marked.WellFormed := by
  obtain ⟨found, resolves, rfl⟩ := Option.map_eq_some_iff.mp marks
  obtain ⟨present, holds, _⟩ := resolve?_eq_some_iff.mp resolves
  refine ⟨wellFormed.distinct, ?_⟩
  intro index
  rw [show (heap.setSlot handle.index { found.1 with marked := true }).vacant = heap.vacant
    from rfl, wellFormed.vacant_iff]
  by_cases same : index = handle.index
  · simp [same, present, holds, slot?_setSlot_self present]
  · rw [slot?_setSlot_of_ne same]

/-- Clearing keeps whatever every release keeps. -/
theorem clear_induction
    {Kept : Heap → Prop}
    (atFirst : Kept heap)
    (released : ∀ heap handle, Kept heap → Kept (heap.release handle)) :
    Kept heap.clear :=
  List.foldlRecOn _ _ atFirst fun heap kept _ _ => released heap _ kept

/-- Allocating adds a slot or leaves their number. -/
theorem length_allocate
    (heap : Heap)
    (object : HeapObject) :
    heap.slots.length ≤ (heap.allocate object).2.slots.length ∧
      (heap.allocate object).2.slots.length ≤ heap.slots.length + 1 := by
  unfold allocate
  cases heap.vacant with
  | nil =>
      simp
  | cons index vacant =>
      simp [setSlot]

theorem length_release
    (heap : Heap)
    (handle : Handle) :
    (heap.release handle).slots.length = heap.slots.length := by
  unfold release free
  cases heap.resolve? handle with
  | none =>
      rfl
  | some found =>
      simp [setSlot]

theorem length_mark
    {handle : Handle}
    {marked : Heap}
    (marks : heap.mark? handle = some marked) :
    marked.slots.length = heap.slots.length := by
  obtain ⟨found, _, rfl⟩ := Option.map_eq_some_iff.mp marks
  simp [setSlot]

theorem length_clear :
    heap.clear.slots.length = heap.slots.length :=
  @clear_induction heap (fun other => other.slots.length = heap.slots.length) rfl
    fun other handle same => (length_release other handle).trans same

/--
Heaps that operations have reached are well formed as long as indexes tell slots apart.  There
never were more slots before an operation than after it.
-/
theorem Reachable.wellFormed
    (reached : heap.Reachable)
    (indexed : heap.slots.length ≤ maxSlots) :
    heap.WellFormed := by
  induction reached with
  | empty =>
      exact ⟨List.nodup_nil, by simp [Heap.empty, slot?]⟩
  | @allocate heap _ object inductionHypothesis =>
      have indexedBefore := Nat.le_trans (length_allocate heap object).1 indexed
      exact (inductionHypothesis indexedBefore).allocate object indexed
  | release _ handle inductionHypothesis =>
      rw [length_release] at indexed
      exact (inductionHypothesis indexed).release handle
  | mark _ handle marks inductionHypothesis =>
      rw [length_mark marks] at indexed
      exact (inductionHypothesis indexed).mark marks
  | clear _ inductionHypothesis =>
      rw [length_clear] at indexed
      exact clear_induction (inductionHypothesis indexed)
        fun _ handle wellFormed => wellFormed.release handle

/-- An object that moves in and out again leaves no trace that a handle could show. -/
theorem WellFormed.release_allocate
    (wellFormed : heap.WellFormed)
    (object : HeapObject)
    (indexed : (heap.allocate object).2.slots.length ≤ maxSlots) :
    let after := (heap.allocate object).2.release (heap.allocate object).1
    (∀ handle, after.resolve? handle = heap.resolve? handle) ∧
      after.liveCount = heap.liveCount ∧ after.size = heap.size := by
  intro after
  have allocates := wellFormed.allocates object indexed
  have vacates : Vacates (heap.allocate object).2 (heap.allocate object).1 after :=
    vacates_of_resolve? (resolve?_eq_some_iff.mpr ⟨allocates.moved, rfl, rfl⟩)
  refine ⟨?_, ?_, ?_⟩
  · intro handle
    by_cases same : handle.index = (heap.allocate object).1.index
    · have freeBefore : heap.IsFreeAt handle.index := same ▸ allocates.free
      have freeAfter : after.IsFreeAt handle.index := by
        intro slot present
        rw [same, vacates.vacated] at present
        rw [← Option.some.inj present]
      rw [freeBefore.resolve?_eq_none, freeAfter.resolve?_eq_none]
    · exact resolve?_congr ((vacates.kept _ same).trans (allocates.kept _ same))
  · have := vacates.counted
    have := allocates.counted
    omega
  · have := vacates.sized
    have := allocates.sized
    omega

end Operations

end Heap

end Reckon
