import Reckon.Proofs.Heap.Registry

namespace Reckon

/-!
# Stale handles

Each time a slot is freed its generation moves on by one, and nothing else moves it.  Generations
have 32 bits, so a handle that was issued resolves exactly while its slot is live and was freed a
multiple of 2^32 times since.
-/

namespace Heap

/-- The slot at an index holds an object. -/
def isLiveAt (heap : Heap) (index : UInt32) : Bool :=
  (heap.slot? index).any (·.object?.isSome)

/-- The slot at an index holds an object, and holds none after the operation. -/
def Operation.frees (operation : Operation) (heap : Heap) (index : UInt32) : Bool :=
  heap.isLiveAt index && !(operation.apply heap).isLiveAt index

/-- How often operations free the slot at an index. -/
def freeings : Heap → UInt32 → List Operation → Nat
  | _, _, [] => 0
  | heap, index, operation :: rest =>
      (operation.frees heap index).toNat + (operation.apply heap).freeings index rest

/-- Some operation takes the object of a handle out: the handle resolves, and then does not. -/
def Retires (heap : Heap) (handle : Handle) (history : List Operation) : Prop :=
  ∃ earlier operation rest,
    history = earlier ++ operation :: rest ∧
      ((heap.after earlier).get? handle).isSome = true ∧
        (operation.apply (heap.after earlier)).get? handle = none

/-- No operation takes the handle. -/
structure Refuses (heap : Heap) (handle : Handle) : Prop where
  get : heap.get? handle = none
  free : heap.free handle = .error { handle := handle }
  mark : heap.mark? handle = none
  marked : heap.isMarked handle = false

section Steps

variable
  {heap : Heap}

/-- A handle resolves if its slot is live and of its generation. -/
theorem get?_isSome_iff_isLiveAt
    {handle : Handle} :
    (heap.get? handle).isSome = true ↔
      heap.isLiveAt handle.index = true ∧ heap.generation handle.index = handle.generation := by
  unfold get? resolve? isLiveAt generation
  cases heap.slot? handle.index with
  | none =>
      simp
  | some slot =>
      cases holds : slot.object? with
      | none =>
          simp [holds]
      | some object =>
          by_cases fits : slot.generation = handle.generation
          · simp [holds, fits]
          · simp [holds, fits]

/-- A heap refuses the handles that it has no object for. -/
theorem refuses_of_get?_eq_none
    {handle : Handle}
    (absent : heap.get? handle = none) :
    heap.Refuses handle := by
  have stale : heap.resolve? handle = none := by
    simpa [get?] using absent
  exact ⟨absent, by simp [Heap.free, stale], by simp [mark?, stale], by simp [isMarked, stale]⟩

/-- A free slot is not live. -/
theorem isLiveAt_eq_false_of_isFreeAt
    {index : UInt32}
    (free : heap.IsFreeAt index) :
    heap.isLiveAt index = false := by
  unfold isLiveAt
  cases present : heap.slot? index with
  | none =>
      rfl
  | some slot =>
      simp [free slot present]

/-- The operation moves the generation of a slot on by one if it frees the slot. -/
def MovesGeneration (operation : Operation) (heap : Heap) (index : UInt32) : Prop :=
  (operation.apply heap).generation index =
    heap.generation index + UInt32.ofNat (operation.frees heap index).toNat

/-- An operation that leaves a slot alone leaves its generation alone. -/
theorem movesGeneration_of_slot?_eq
    {operation : Operation}
    {index : UInt32}
    (same : (operation.apply heap).slot? index = heap.slot? index) :
    MovesGeneration operation heap index := by
  simp [MovesGeneration, generation, Operation.frees, isLiveAt, same]

/-- A new object takes over the generation of the slot that it moves into. -/
theorem generation_allocate
    (object : HeapObject)
    (indexed : (heap.allocate object).2.slots.length ≤ maxSlots) :
    (heap.allocate object).1.generation = heap.generation (heap.allocate object).1.index := by
  unfold allocate at indexed ⊢
  cases vacantShape : heap.vacant with
  | nil =>
      have room : heap.slots.length < 2 ^ 32 := by
        simpa [vacantShape, maxSlots, Nat.lt_iff_le_pred] using indexed
      have numbered : heap.slots.length.toUInt32.toNat = heap.slots.length := by
        simpa using room
      simp [generation, slot?, numbered]
  | cons index vacant =>
      rfl

/-- Allocating moves no generation on. -/
theorem WellFormed.movesGeneration_allocate
    (wellFormed : heap.WellFormed)
    (object : HeapObject)
    (indexed : (heap.allocate object).2.slots.length ≤ maxSlots)
    (index : UInt32) :
    MovesGeneration (.allocate object) heap index := by
  have allocates := wellFormed.allocates object indexed
  by_cases here : index = (heap.allocate object).1.index
  · subst here
    have wasFree := isLiveAt_eq_false_of_isFreeAt allocates.free
    have generationAfter :
        (heap.allocate object).2.generation (heap.allocate object).1.index =
          (heap.allocate object).1.generation := by
      rw [generation, allocates.moved]
    simp [MovesGeneration, Operation.frees, wasFree, Operation.apply, generationAfter,
      generation_allocate object indexed]
  · exact movesGeneration_of_slot?_eq (allocates.kept index here)

/-- Freeing moves a generation on by one, where the slot was live. -/
theorem movesGeneration_free
    (handle : Handle)
    (index : UInt32) :
    MovesGeneration (.free handle) heap index := by
  cases resolves : heap.resolve? handle with
  | none =>
      exact movesGeneration_of_slot?_eq (by rw [Operation.apply, release_of_stale resolves])
  | some found =>
      have vacates := vacates_of_resolve? resolves
      by_cases here : index = handle.index
      · obtain ⟨present, holds, generationShape⟩ := resolve?_eq_some_iff.mp resolves
        subst here
        simp [MovesGeneration, Operation.frees, Operation.apply, isLiveAt, generation, present,
          holds, vacates.vacated, generationShape]
      · exact movesGeneration_of_slot?_eq (vacates.kept index here)

theorem movesGeneration_mark
    (handle : Handle)
    (index : UInt32) :
    MovesGeneration (.mark handle) heap index := by
  cases resolves : heap.resolve? handle with
  | none =>
      exact movesGeneration_of_slot?_eq (by simp [Operation.apply, mark?, resolves])
  | some found =>
      have applied :
          Operation.apply (.mark handle) heap =
            heap.setSlot handle.index { found.1 with marked := true } := by
        simp [Operation.apply, mark?, resolves]
      obtain ⟨present, holds, _⟩ := resolve?_eq_some_iff.mp resolves
      by_cases here : index = handle.index
      · subst here
        simp [MovesGeneration, Operation.frees, isLiveAt, generation, applied, present, holds,
          slot?_setSlot_self present]
      · exact movesGeneration_of_slot?_eq (by rw [applied, slot?_setSlot_of_ne here])

/-- Clearing moves the generation of every live slot on by one. -/
theorem movesGeneration_clear
    (indexed : heap.slots.length ≤ maxSlots)
    (index : UInt32) :
    MovesGeneration .clear heap index := by
  simp only [MovesGeneration, Operation.frees, Operation.apply, isLiveAt, generation,
    slot?_clear indexed]
  cases heap.slot? index with
  | none =>
      rfl
  | some slot =>
      cases holds : slot.object? with
      | none =>
          simp [holds, Slot.vacated]
      | some object =>
          simp [holds, Slot.vacated]

/-- The generation of a slot counts how often operations free it. -/
theorem WellFormed.movesGeneration
    (wellFormed : heap.WellFormed)
    {operation : Operation}
    (indexed : (operation.apply heap).slots.length ≤ maxSlots)
    (index : UInt32) :
    MovesGeneration operation heap index := by
  cases operation with
  | allocate object =>
      exact wellFormed.movesGeneration_allocate object indexed index
  | free handle =>
      exact movesGeneration_free handle index
  | mark handle =>
      exact movesGeneration_mark handle index
  | clear =>
      exact movesGeneration_clear (Nat.le_trans (length_le_apply .clear) indexed) index

end Steps

section Runs

variable
  {heap : Heap}

/-- Operations free a slot as often as their parts do together. -/
theorem freeings_append
    (heap : Heap)
    (index : UInt32)
    (earlier rest : List Operation) :
    heap.freeings index (earlier ++ rest) =
      heap.freeings index earlier + (heap.after earlier).freeings index rest := by
  induction earlier generalizing heap with
  | nil =>
      simp [freeings]
  | cons operation earlier inductionHypothesis =>
      simp [freeings, inductionHypothesis, Nat.add_assoc]

/-- A generation is moved on as often as its slot is freed. -/
theorem Reachable.generation_after
    (reached : heap.Reachable)
    {later : List Operation}
    (indexed : (heap.after later).slots.length ≤ maxSlots)
    (index : UInt32) :
    (heap.after later).generation index =
      heap.generation index + UInt32.ofNat (heap.freeings index later) := by
  induction later generalizing heap with
  | nil =>
      simp [freeings]
  | cons operation rest inductionHypothesis =>
      have afterFirst : (operation.apply heap).slots.length ≤ maxSlots :=
        Nat.le_trans (length_le_after rest) indexed
      have wellFormed := reached.wellFormed (Nat.le_trans (length_le_apply operation) afterFirst)
      have step : MovesGeneration operation heap index :=
        wellFormed.movesGeneration afterFirst index
      calc
        (heap.after (operation :: rest)).generation index
          = (operation.apply heap).generation index +
              UInt32.ofNat ((operation.apply heap).freeings index rest) :=
            inductionHypothesis (reached.apply operation) indexed
        _ = heap.generation index + UInt32.ofNat (heap.freeings index (operation :: rest)) := by
            rw [step, freeings, UInt32.ofNat_add, UInt32.add_assoc]

/-- A handle of the generation of its slot resolves later if the generation is back at it. -/
theorem Reachable.get?_after_isSome_iff
    (reached : heap.Reachable)
    {later : List Operation}
    (indexed : (heap.after later).slots.length ≤ maxSlots)
    {handle : Handle}
    (fits : heap.generation handle.index = handle.generation) :
    ((heap.after later).get? handle).isSome = true ↔
      (heap.after later).isLiveAt handle.index = true ∧
        2 ^ 32 ∣ heap.freeings handle.index later := by
  rw [get?_isSome_iff_isLiveAt, reached.generation_after indexed, fits, UInt32.add_eq_left,
    UInt32.ofNat_eq_iff_mod_eq_toNat, UInt32.toNat_zero, Nat.dvd_iff_mod_eq_zero]

/--
An operation after which a handle no longer resolves has freed its slot, which otherwise is live
and of the same generation still.
-/
theorem Reachable.frees_of_retired
    (reached : heap.Reachable)
    {operation : Operation}
    (indexed : (operation.apply heap).slots.length ≤ maxSlots)
    {handle : Handle}
    (resolves : (heap.get? handle).isSome = true)
    (retired : (operation.apply heap).get? handle = none) :
    operation.frees heap handle.index = true := by
  have wellFormed := reached.wellFormed (Nat.le_trans (length_le_apply operation) indexed)
  have moves : MovesGeneration operation heap handle.index :=
    wellFormed.movesGeneration indexed handle.index
  obtain ⟨live, fits⟩ := get?_isSome_iff_isLiveAt.mp resolves
  cases frees : operation.frees heap handle.index with
  | true =>
      rfl
  | false =>
      have liveAfter : (operation.apply heap).isLiveAt handle.index = true := by
        simpa [Operation.frees, live] using frees
      have fitsAfter : (operation.apply heap).generation handle.index = handle.generation := by
        rw [moves, fits, frees]
        simp
      have resolvesAfter := get?_isSome_iff_isLiveAt.mpr ⟨liveAfter, fitsAfter⟩
      simp [retired] at resolvesAfter

/-- Operations that retire a handle free its slot at least once. -/
theorem Reachable.freeings_pos_of_retires
    (reached : heap.Reachable)
    {history : List Operation}
    (indexed : (heap.after history).slots.length ≤ maxSlots)
    {handle : Handle}
    (retires : heap.Retires handle history) :
    0 < heap.freeings handle.index history := by
  obtain ⟨earlier, operation, rest, rfl, resolves, retired⟩ := retires
  rw [after_append, after_cons] at indexed
  have frees :=
    (reached.after earlier).frees_of_retired (Nat.le_trans (length_le_after rest) indexed)
      resolves retired
  rw [freeings_append, freeings, frees]
  simp only [Bool.toNat_true]
  omega

end Runs

/--
A handle that was issued resolves later exactly if its slot is live and was freed a multiple of
2^32 times since.  Once the handle was freed, every operation refuses it as long as its slot was
freed fewer than 2^32 times.
-/
theorem get?_issued_isSome_iff
    (before : List Operation)
    (object : HeapObject)
    (later : List Operation)
    (indexed :
      (empty.after (before ++ .allocate object :: later)).slots.length < maxSlots) :
    let handle := ((empty.after before).allocate object).1
    let issued := empty.after (before ++ [.allocate object])
    let now := empty.after (before ++ .allocate object :: later)
    ((now.get? handle).isSome = true ↔
        now.isLiveAt handle.index = true ∧ 2 ^ 32 ∣ issued.freeings handle.index later) ∧
      (issued.Retires handle later →
        issued.freeings handle.index later < 2 ^ 32 →
        now.Refuses handle) := by
  intro handle issued now
  have issuedShape : issued = ((empty.after before).allocate object).2 := by
    simp only [issued, after_append]
    rfl
  have nowShape : now = issued.after later := by
    simp only [now, issued, after_append]
    rfl
  have indexedNow : (issued.after later).slots.length ≤ maxSlots :=
    nowShape ▸ Nat.le_of_lt indexed
  have indexedIssued : ((empty.after before).allocate object).2.slots.length ≤ maxSlots := by
    rw [← issuedShape]
    exact Nat.le_trans (length_le_after later) indexedNow
  have reachedBefore : (empty.after before).Reachable := Reachable.empty.after before
  have reached : issued.Reachable := issuedShape ▸ reachedBefore.allocate object
  have fits : issued.generation handle.index = handle.generation := by
    have wellFormed :=
      reachedBefore.wellFormed (Nat.le_trans (length_allocate _ object).1 indexedIssued)
    rw [issuedShape, generation, (wellFormed.allocates object indexedIssued).moved]
  have resolves := reached.get?_after_isSome_iff indexedNow fits
  rw [nowShape]
  refine ⟨resolves, fun retires few => refuses_of_get?_eq_none ?_⟩
  have positive := reached.freeings_pos_of_retires indexedNow retires
  rw [← Option.not_isSome_iff_eq_none, resolves]
  rintro ⟨_, multiple⟩
  exact Nat.not_lt.mpr (Nat.le_of_dvd positive multiple) few

/-- A slot that is used again by another object refuses the handle of the first. -/
theorem get?_issued_reused :
    let history : List Operation := [.free ⟨0, 0⟩, .allocate (.native "second")]
    let issued := empty.after [.allocate (.native "first")]
    (issued.after history).isLiveAt 0 = true ∧ issued.freeings 0 history = 1 ∧
      (issued.after history).Refuses ⟨0, 0⟩ := by
  intro history issued
  have counted : issued.freeings 0 history = 1 := by
    decide
  have retires : issued.Retires ⟨0, 0⟩ history := ⟨[], _, _, rfl, rfl, rfl⟩
  obtain ⟨_, refused⟩ :=
    get?_issued_isSome_iff [] (.native "first") history (by decide)
  exact ⟨by decide, counted, refused retires (counted ▸ by decide)⟩

end Heap

end Reckon
