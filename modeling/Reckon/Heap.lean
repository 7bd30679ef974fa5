import Reckon.Bytecode.Chunk

namespace Reckon

/-!
# The object heap

Objects live in slots.  A handle names a slot together with the generation that the slot had when
the object moved in.  Vacating a slot moves its generation on, so that the handles of the object
that left no longer resolve, and the slot that was vacated last is the first to be used again.
-/

/-- What lives on the heap: functions, and objects of the host under a name. -/
inductive HeapObject where
  | function (function : Function)
  | native (name : String)
  deriving Repr

namespace HeapObject

/-- The name of the kind of objects with a number. -/
def kindName (code : UInt8) : String :=
  match code.toNat with
  | 1 => "FUNCTION"
  | 2 => "NATIVE"
  | _ => "INVALID"

/-- The number of the kind of an object. -/
def kindCode : HeapObject → UInt8
  | .function _ => 1
  | .native _ => 2

/-- The name of the kind of an object. -/
def kind (object : HeapObject) : String :=
  kindName object.kindCode

/-- An object as it is shown. -/
def text : HeapObject → String
  | .function held => held.text
  | .native name => name

end HeapObject

/-- A slot, which is vacant or holds an object. -/
structure Slot where
  generation : UInt32
  object? : Option HeapObject
  marked : Bool
  deriving Repr

/-- Slots, and the indexes of those that are vacant, the one vacated last first. -/
structure Heap where
  slots : List Slot
  vacant : List UInt32
  deriving Repr

/-- A handle that does not resolve was to be freed. -/
structure StaleHandle where
  handle : Handle
  deriving Repr, DecidableEq

namespace StaleHandle

/-- The wording of the refusal. -/
def message (stale : StaleHandle) : String :=
  "free of stale handle " ++ Text.integer stale.handle.index.toNat ++ "." ++
    Text.integer stale.handle.generation.toNat

end StaleHandle

namespace Heap

/-- A heap without slots. -/
def empty : Heap :=
  { slots := [], vacant := [] }

/-- The slot at an index. -/
def slot? (heap : Heap) (index : UInt32) : Option Slot :=
  heap.slots[index.toNat]?

/-- The generation of the slot at an index. -/
def generation (heap : Heap) (index : UInt32) : UInt32 :=
  match heap.slot? index with
  | some slot => slot.generation
  | none => 0

/-- Put another slot in place of the one at an index. -/
def setSlot (heap : Heap) (index : UInt32) (slot : Slot) : Heap :=
  { heap with slots := heap.slots.set index.toNat slot }

/-- The slot and the object that a handle resolves to. -/
def resolve? (heap : Heap) (handle : Handle) : Option (Slot × HeapObject) := do
  let slot ← heap.slot? handle.index
  let object ← slot.object?
  if slot.generation = handle.generation then some (slot, object) else none

/-- The object of a handle. -/
def get? (heap : Heap) (handle : Handle) : Option HeapObject :=
  (heap.resolve? handle).map (·.2)

/-- Move an object in, into the slot vacated last if there is one. -/
def allocate (heap : Heap) (object : HeapObject) : Handle × Heap :=
  match heap.vacant with
  | [] =>
      ({ index := heap.slots.length.toUInt32, generation := 0 },
        { heap with
          slots :=
            heap.slots ++ [{ generation := 0, object? := some object, marked := false }] })
  | index :: vacant =>
      let generation := heap.generation index
      ({ index := index, generation := generation },
        { heap with vacant := vacant }.setSlot index
          { generation := generation, object? := some object, marked := false })

/-- Vacate the slot of a handle. -/
def free (heap : Heap) (handle : Handle) : Except StaleHandle Heap :=
  match heap.resolve? handle with
  | none => .error { handle := handle }
  | some (slot, _) =>
      .ok
        ({ heap with vacant := handle.index :: heap.vacant }.setSlot handle.index
          { generation := slot.generation + 1, object? := none, marked := false })

/-- Vacate the slot of a handle, if it resolves. -/
def release (heap : Heap) (handle : Handle) : Heap :=
  match heap.free handle with
  | .ok freed => freed
  | .error _ => heap

/-- Mark the object of a handle. -/
def mark? (heap : Heap) (handle : Handle) : Option Heap :=
  (heap.resolve? handle).map fun found =>
    heap.setSlot handle.index { found.1 with marked := true }

/-- The handle resolves to a marked object. -/
def isMarked (heap : Heap) (handle : Handle) : Bool :=
  match heap.resolve? handle with
  | some (slot, _) => slot.marked
  | none => false

/-- The number of objects. -/
def size (heap : Heap) : Int :=
  (heap.slots.length : Int) - heap.vacant.length

/-- Vacate the slot at an index, if it is taken. -/
def vacate (heap : Heap) (index : UInt32) : Heap :=
  heap.release { index := index, generation := heap.generation index }

/-- Vacate every slot, in the order of their indexes. -/
def clear (heap : Heap) : Heap :=
  (List.range heap.slots.length).foldl (fun heap index => heap.vacate index.toUInt32) heap

end Heap

end Reckon
