import Reckon.Proofs.Bytecode.ImageRoundTrip
import Reckon.Proofs.Cbor.Bounds

namespace Reckon

/-!
# Images are written again

Whatever form an image takes, the function that is read from it lies within what can be written:
its name and its lines are no longer than what they were read from.  So it has an image of its
own, which holds the same function but for the signs of zeros, and which is written again without
any change.
-/

namespace Binary64

/-- The doubles are equal as numbers, or neither is a number. -/
def SameNumber (left right : Float) : Prop :=
  (left == right) = true ∨ (left.isNaN = true ∧ right.isNaN = true)

theorem sameNumber_self
    (number : Float) :
    SameNumber number number := by
  by_cases isNaN : number = Float.nan
  · right
    simp [isNaN]
  · left
    exact Float.beq_self_iff.mpr isNaN

/-- A number without the sign of its zero is the same number. -/
theorem sameNumber_dropZeroSign
    (number : Float) :
    SameNumber number (dropZeroSign number) := by
  unfold dropZeroSign
  split
  next isZero => exact Or.inl isZero
  next => exact sameNumber_self number

/-- Dropping the sign of a zero leaves a zero, and makes none. -/
theorem dropZeroSign_beq_zero
    (number : Float) :
    (dropZeroSign number == 0) = (number == 0) := by
  unfold dropZeroSign
  split
  next isZero => rw [isZero]; rfl
  next => rfl

end Binary64

namespace Value

/-- The constants are of one kind and equal, doubles as numbers. -/
inductive SameConstant : Value → Value → Prop
  | bool (truth : Bool) :
      SameConstant (.bool truth) (.bool truth)
  | integer (number : Int32) :
      SameConstant (.integer number) (.integer number)
  | float {left right : Float} :
      Binary64.SameNumber left right →
      SameConstant (.float left) (.float right)
  | complex {left right : Complex} :
      Binary64.SameNumber left.re right.re →
      Binary64.SameNumber left.im right.im →
      SameConstant (.complex left) (.complex right)

/-- A constant without the signs of its zeros is the same constant. -/
theorem IsData.sameConstant_dropZeroSigns
    {value : Value}
    (isData : value.IsData) :
    SameConstant value value.dropZeroSigns := by
  cases value with
  | invalid => exact absurd isData (by decide)
  | bool truth => exact .bool truth
  | integer number => exact .integer number
  | float number => exact .float (Binary64.sameNumber_dropZeroSign number)
  | complex number =>
      exact
        .complex
          (Binary64.sameNumber_dropZeroSign number.re)
          (Binary64.sameNumber_dropZeroSign number.im)
  | object handle => simp [IsData, kind, Kind.ofData] at isData

end Value

/-- The chunks have the same code and lines, and constants that are the same one by one. -/
structure Chunk.Matches (left right : Chunk) : Prop where
  code : left.code = right.code
  lines : left.lines = right.lines
  constants : List.Forall₂ Value.SameConstant left.constants right.constants

/-- The functions have the same name and arity, and chunks that match. -/
structure Function.Matches (left right : Function) : Prop where
  name : left.name = right.name
  arity : left.arity = right.arity
  chunk : Option.Rel Chunk.Matches left.chunk? right.chunk?

namespace Image

open Cbor

/-! ### What is read can be written -/

/-- A payload that was read is no longer than the image, or than the most items of an array. -/
theorem length_of_readEnvelope?
    {bytes : List UInt8}
    {envelope : Envelope}
    (read : readEnvelope? bytes = some envelope) :
    envelope.payload.length ≤ max bytes.length maxItems := by
  simp only [readEnvelope?, Option.bind_eq_bind, Option.bind_eq_some_iff, Option.some.injEq] at read
  obtain ⟨item, found, entries, record, _, _, _, _, payload, field, _, _, rfl⟩ := read
  have bounded := bounded_of_recordField? (by simpa using bounded_of_decode? found) record
  exact length_of_bytesField? (bounded_of_find? bounded 3) field

/-- A name and lines that were read are bounded by the bytes they were read from. -/
theorem length_of_readPayload?
    {bytes : List UInt8}
    {payload : Payload}
    (read : readPayload? bytes = some payload) :
    (Text.encode payload.name).length ≤ bytes.length ∧ payload.lines.length ≤ maxItems := by
  simp only [readPayload?, Option.bind_eq_bind, Option.bind_eq_some_iff, Option.some.injEq] at read
  obtain
    ⟨item, found, entries, record, name, nameField, _, _, _, _, _, _, lines, linesField, _, _,
      rfl⟩ := read
  have bounded := bounded_of_recordField? (by simpa using bounded_of_decode? found) record
  exact
    ⟨length_of_textField? (bounded_of_find? bounded 1) nameField,
      length_of_arrayField? (bounded_of_find? bounded 5) linesField⟩

/-- What is read from an image that fits in memory can be written again. -/
theorem serializable_of_decode
    {bytes : List UInt8}
    {function : Function}
    (short : bytes.length < 2 ^ 63)
    (decoded : decode bytes = .ok function) :
    ∃ chunk, Serializable function chunk := by
  obtain ⟨_, ⟨envelope, enclosed, _, _, _, opened⟩, _⟩ := verified_of_decode decoded
  obtain ⟨payload, chunk, read, name, defined, lines, whole, constants⟩ :=
    whole_of_decodePayload opened
  have payloadLength := length_of_readEnvelope? enclosed
  obtain ⟨nameLength, linesLength⟩ := length_of_readPayload? read
  refine ⟨chunk, defined, Chunk.validate_eq_ok_iff.mpr whole, constants, ?_, ?_⟩
  · rwa [lines, List.length_map]
  · rw [name, String.toList_ofList]
    have few : maxItems < 2 ^ 63 := by decide
    omega

/-! ### What is written is written again -/

/-- The item of a constant does not depend on the signs of its zeros. -/
theorem constantItem?_dropZeroSigns
    (constant : Value) :
    constantItem? constant.dropZeroSigns = constantItem? constant := by
  have entry (number : Nat) (value : Float) :
      floatEntry number (Binary64.dropZeroSign value) = floatEntry number value := by
    unfold floatEntry
    rw [Binary64.dropZeroSign_beq_zero]
    split
    next => rfl
    next isNonzero => rw [Binary64.dropZeroSign, if_neg isNonzero]
  cases constant with
  | float number => simp only [Value.dropZeroSigns, constantItem?, entry]
  | complex number => simp only [Value.dropZeroSigns, constantItem?, entry]
  | invalid => rfl
  | bool truth => rfl
  | integer number => rfl
  | object handle => rfl

/-- The items of constants do not depend on the signs of their zeros. -/
theorem constantItems_dropZeroSigns
    (index : Nat)
    (constants : List Value) :
    constantItems index (constants.map Value.dropZeroSigns) = constantItems index constants := by
  induction constants generalizing index with
  | nil => rfl
  | cons constant constants inductionHypothesis =>
      have sameKind : constant.dropZeroSigns.kind = constant.kind := by
        cases constant <;> rfl
      rw [List.map_cons, constantItems, constantItems, constantItem?_dropZeroSigns, sameKind]
      simp only [inductionHypothesis]

/--
Every function that is read from an image has an image, which holds the same function and is the
image of what it holds.
-/
theorem encode_of_decode_is_stable
    {bytes : List UInt8}
    {function : Function}
    (short : bytes.length < 2 ^ 63)
    (decoded : decode bytes = .ok function) :
    ∃ image restored,
      encode (some function) = .ok image ∧
        decode image = .ok restored ∧
          function.Matches restored ∧ encode (some restored) = .ok image := by
  obtain ⟨chunk, serializable⟩ := serializable_of_decode short decoded
  obtain ⟨image, written, _, read⟩ := exists_image serializable
  refine ⟨image, _, written, read, ⟨rfl, rfl, ?_⟩, ?_⟩
  · rw [serializable.defined]
    refine .some ⟨rfl, rfl, ?_⟩
    rw [List.forall₂_map_right_iff, List.forall₂_same]
    exact fun constant member => (serializable.constants constant member).sameConstant_dropZeroSigns
  · rw [← written]
    simp only [encode, serializable.defined, constantItems_dropZeroSigns]
    rfl

/--
An image in a form that is never written: the fields stand in reverse, strings and arrays have
indefinite lengths, code is listed byte by byte, a line is null, the arity is missing, and the
constant is a negative zero.
-/
def rearranged : List UInt8 :=
  [0xA4, 0x04, 0x58, 0x20, 0x96, 0xA4, 0x25, 0x0A, 0x25, 0x74, 0x6B, 0x62, 0x1E, 0x62, 0x0F,
    0xFC, 0x9F, 0x48, 0x04, 0x06, 0xF7, 0x36, 0xEB, 0x01, 0x44, 0x88, 0x6D, 0x4E, 0x49, 0xA3,
    0x18, 0x8F, 0x39, 0x77, 0xA2, 0x89, 0x03, 0x58, 0x29, 0xBF, 0x06, 0x9F, 0xA2, 0x04, 0xFB,
    0x80, 0x00, 0x00, 0x00, 0x00, 0x00, 0x00, 0x00, 0x01, 0x03, 0xFF, 0x05, 0x83, 0x01, 0xF6,
    0x20, 0x04, 0x43, 0x00, 0x01, 0x00, 0x03, 0x83, 0x00, 0x00, 0x13, 0x18, 0x18, 0xF6, 0x01,
    0x7F, 0x61, 0x66, 0xFF, 0xFF, 0x02, 0x1A, 0x00, 0x00, 0x00, 0x01, 0x01, 0x64, 0x45, 0x4D,
    0x42, 0x43]

theorem encode_of_decode_rearranged :
    rearranged.length < 2 ^ 63 ∧
      ∃ function,
        decode rearranged = .ok function ∧
          ∃ image restored,
            encode (some function) = .ok image ∧
              decode image = .ok restored ∧
                function.Matches restored ∧ encode (some restored) = .ok image := by
  have short : rearranged.length < 2 ^ 63 := by decide
  have accepted : (decode rearranged).isOk = true := by decide +kernel
  cases decoded : decode rearranged with
  | error problem =>
      rw [decoded] at accepted
      cases accepted
  | ok function => exact ⟨short, function, rfl, encode_of_decode_is_stable short decoded⟩

end Image

end Reckon
