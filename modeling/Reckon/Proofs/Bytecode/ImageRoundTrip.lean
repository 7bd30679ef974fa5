import Reckon.Proofs.Bytecode.ImageConstants
import Reckon.Proofs.Bytecode.ImageVerification

namespace Reckon.Image

open Cbor

/-!
# Functions survive as images

A function that can be written as an image comes back from it, except for the signs of zeros among
its constants.
-/

/-- The functions that can be written as an image. -/
structure Serializable (function : Function) (chunk : Chunk) : Prop where
  defined : function.chunk? = some chunk
  valid : chunk.validate = .ok ()
  constants : ∀ constant ∈ chunk.constants, constant.IsData
  lines : chunk.lines.length ≤ maxItems
  /-- No text in memory is longer. -/
  name : (Text.encode function.name.toList).length < 2 ^ 63

/-- The numbers of the fields of a payload are small. -/
theorem numbered_payloadFields
    (function : Function)
    (chunk : Chunk)
    (items : List Item) :
    ∀ field ∈ payloadFields function chunk items, field.1 < 2 ^ 63 :=
  numbered_of_map_fst (show _ = [1, 2, 3, 4, 5, 6] from rfl) (by decide)

section Payload

variable
  {function : Function}
  {chunk : Chunk}
  (serializable : Serializable function chunk)
  {items : List Item}
  {fields : List ConstantFields}
  (represents : RepresentsAll 0 chunk.constants items fields)

include serializable represents

/-- The payload of a serializable function can be written and read back. -/
theorem writable_payload :
    Writable maxLevels (payloadItem function chunk items) := by
  obtain ⟨sameLength, fewConstants, _⟩ := Chunk.validate_eq_ok_iff.mp serializable.valid
  have fewUnits : chunk.code.length < 2 ^ 64 := by
    rw [← sameLength]
    exact Nat.lt_of_le_of_lt serializable.lines (by decide)
  have fewItems : items.length ≤ maxItems := by
    rw [represents.counted]
    exact Nat.le_trans fewConstants (by decide)
  have word (number : Int64) (levels : Nat) : Writable levels (.int number.toInt) := by
    have least := number.le_toInt
    have greatest := number.toInt_lt
    exact writable_int (by omega) (by omega) levels
  refine
    @writable_record 31 (payloadFields function chunk items) (show 6 ≤ maxItems by decide)
      (numbered_payloadFields function chunk items) ?_
  intro field member
  simp only [payloadFields, List.mem_cons, List.not_mem_nil, or_false] at member
  rcases member with rfl | rfl | rfl | rfl | rfl | rfl
  · exact .text (Nat.lt_trans serializable.name (by decide))
  · exact word function.arity 31
  · exact .bytes (by rwa [List.length_map])
  · exact .bytes (by rwa [List.length_map])
  · refine @Writable.array 30 _ (by rw [List.length_map]; exact serializable.lines) ?_
    intro item itemMember
    obtain ⟨line, _, rfl⟩ := List.mem_map.mp itemMember
    exact word line 30
  · exact @Writable.array 30 _ fewItems fun item member => represents.writable item member 29

/-- The bytes of a payload can be counted by the head of a byte string. -/
theorem length_payload_lt :
    (payloadItem function chunk items).encode.length < 2 ^ 64 := by
  obtain ⟨sameLength, fewConstants, _⟩ := Chunk.validate_eq_ok_iff.mp serializable.valid
  have nameShort := serializable.name
  have fewLines : chunk.lines.length ≤ 131072 := serializable.lines
  have fewItems : items.length ≤ 256 := represents.counted ▸ fewConstants
  have lineBytes :
      (encodeItems (chunk.lines.map fun line => .int line.toInt)).length ≤
        chunk.lines.length * 9 := by
    rw [← List.length_map (fun line : Int64 => Item.int line.toInt)]
    apply length_encodeItems_le
    intro item member
    obtain ⟨line, _, rfl⟩ := List.mem_map.mp member
    exact length_encode_int_le line.toInt
  have constantBytes : (encodeItems items).length ≤ items.length * 63 :=
    length_encodeItems_le represents.short
  have whole := length_encode_record_le (payloadFields function chunk items)
  have arityBytes := length_encode_int_le function.arity.toInt
  have nameHead := length_head_le 3 (Text.encode function.name.toList).length
  have bytesHead := length_head_le 2 chunk.code.length
  have linesHead := length_head_le 4 chunk.lines.length
  have itemsHead := length_head_le 4 items.length
  simp only [payloadFields, List.map_cons, List.map_nil, List.sum_cons, List.sum_nil, Item.encode,
    List.length_append, List.length_map, List.flatten_cons, List.flatten_nil,
    List.append_nil] at whole
  rw [payloadItem, payloadFields]
  omega

/-- The fields of a payload are read back from its bytes. -/
theorem readPayload?_payload :
    readPayload? (payloadItem function chunk items).encode =
      some
        { name := function.name.toList
          arity := function.arity.toInt
          code := chunk.code.map (·.byte)
          kinds := chunk.code.map (·.kind.tag)
          lines := chunk.lines.map (·.toInt)
          constants := fields } := by
  have word (number : Int64) : wordField? (some (.int number.toInt)) = some number.toInt := by
    have least := number.le_toInt
    have greatest := number.toInt_lt
    exact intField?_int (by omega) (by omega) (by omega)
  have lines :
      (chunk.lines.map fun line => Item.int line.toInt).mapM
          (fun item => wordField? (some item)) =
        some (chunk.lines.map (·.toInt)) := by
    induction chunk.lines with
    | nil => rfl
    | cons line rest inductionHypothesis =>
        rw [List.map_cons, List.mapM_cons, word, inductionHypothesis]
        rfl
  have bytes (content : List UInt8) : bytesField? (some (.bytes content)) = some content :=
    rfl
  rw [readPayload?, (writable_payload serializable represents).decode?_encode, payloadItem]
  simp only [Option.bind_eq_bind, Option.bind_some, recordField?_record,
    find?_record (numbered_payloadFields function chunk items)]
  simp only [payloadFields, List.lookup_cons, Nat.reduceBEq, textField?_text, word, bytes,
    arrayField?_array, lines, represents.read, Option.bind_some]

/-- The payload of a serializable function is decoded to that function. -/
theorem decodePayload_payload :
    decodePayload (payloadItem function chunk items).encode =
      .ok
        { function with
          chunk? :=
            some { chunk with constants := chunk.constants.map Value.dropZeroSigns } } := by
  have units :
      ((chunk.code.map (·.kind.tag)).zip (chunk.code.map (·.byte))).map
          (fun unit => ({ kind := { tag := unit.1 }, byte := unit.2 } : CodeUnit)) =
        chunk.code := by
    rw [List.zip_map', List.map_map]
    exact List.map_id chunk.code
  have lines : (chunk.lines.map (·.toInt)).map Int64.ofInt = chunk.lines := by
    rw [List.map_map]
    simp [Function.comp_def]
  have valid :
      Chunk.validate { chunk with constants := chunk.constants.map Value.dropZeroSigns } =
        .ok () := by
    rw [← serializable.valid]
    simp only [Chunk.validate, List.length_map]
  rw [decodePayload, readPayload?_payload serializable represents]
  simp only [List.length_map, ne_eq, not_true_eq_false, ↓reduceIte, represents.values, units,
    lines, String.ofList_toList, Int64.ofInt_toInt, bind, Except.bind, valid]

end Payload

/-- A digest has at most 32 bytes. -/
theorem length_digest_le
    (bytes : List UInt8) :
    (digest bytes).length ≤ 32 := by
  have each (word : UInt64) : (Digest.bytesOfWord word).length = 8 := by
    simp [Digest.bytesOfWord]
  simp only [digest, List.length_flatMap, each, List.map_const', List.sum_replicate,
    List.length_take, smul_eq_mul]
  omega

section Envelope

variable
  {payload : List UInt8}
  (bounded : payload.length < 2 ^ 64)

/-- An envelope begins with the lead of an image. -/
theorem isImage_envelope
    (payload : List UInt8) :
    isImage (envelopeItem payload).encode = true :=
  rfl

include bounded

/-- The fields of an envelope are read back from its bytes. -/
theorem readEnvelope?_envelope :
    readEnvelope? (envelopeItem payload).encode =
      some
        { magic := magic.toList
          version := version
          payload := payload
          sum := digest payload } := by
  have numbered : ∀ field ∈ envelopeFields payload, field.1 < 2 ^ 63 :=
    numbered_of_map_fst (show _ = [1, 2, 3, 4] from rfl) (by decide)
  have writable : Writable maxLevels (envelopeItem payload) := by
    refine
      @writable_record 31 (envelopeFields payload) (show 4 ≤ maxItems by decide) numbered ?_
    intro field member
    simp only [envelopeFields, List.mem_cons, List.not_mem_nil, or_false] at member
    rcases member with rfl | rfl | rfl | rfl
    · exact .text (by decide)
    · exact .unsigned (by decide)
    · exact .bytes bounded
    · exact .bytes (Nat.lt_of_le_of_lt (length_digest_le payload) (by decide))
  have bytes (content : List UInt8) : bytesField? (some (.bytes content)) = some content :=
    rfl
  have versionField : intField? 0 0xFFFFFFFFFFFFFFFF (some (.unsigned version)) = some 1 :=
    rfl
  rw [readEnvelope?, writable.decode?_encode, envelopeItem]
  simp only [Option.bind_eq_bind, Option.bind_some, recordField?_record, find?_record numbered]
  simp only [envelopeFields, List.lookup_cons, Nat.reduceBEq, textField?_text, versionField, bytes,
    Option.bind_some]
  rfl

/-- An envelope is decoded as its payload is. -/
theorem decode_envelope :
    decode (envelopeItem payload).encode = decodePayload payload := by
  rw [decode, readEnvelope?_envelope bounded]
  simp only [ne_eq, not_true_eq_false, ↓reduceIte]

end Envelope

/-- The image of a function that can be written, and what it reads as. -/
theorem exists_image
    {function : Function}
    {chunk : Chunk}
    (serializable : Serializable function chunk) :
    ∃ image,
      encode (some function) = .ok image ∧
        isImage image = true ∧
          decode image =
            .ok
              { function with
                chunk? :=
                  some { chunk with constants := chunk.constants.map Value.dropZeroSigns } } := by
  obtain ⟨items, fields, represents⟩ := exists_representsAll serializable.constants 0
  refine ⟨(envelopeItem (payloadItem function chunk items).encode).encode, ?_, ?_, ?_⟩
  · simp only [encode, serializable.defined, represents.written]
    rfl
  · exact isImage_envelope _
  · rw [decode_envelope (length_payload_lt serializable represents),
      decodePayload_payload serializable represents]

/-- A function without negative zeros comes back from its image. -/
theorem exists_exact_image
    {function : Function}
    {chunk : Chunk}
    (serializable : Serializable function chunk)
    (unsignedZeros : ∀ constant ∈ chunk.constants, ¬ constant.HoldsNegativeZero) :
    ∃ image,
      encode (some function) = .ok image ∧
        isImage image = true ∧ decode image = .ok function := by
  obtain ⟨image, written, recognized, read⟩ := exists_image serializable
  refine ⟨image, written, recognized, ?_⟩
  rw [read, Value.map_dropZeroSigns_eq_self_iff.mpr unsignedZeros, ← serializable.defined]

/--
An image gives back all of a function but the signs of zeros among its constants, and so the
function itself exactly when no constant holds a negative zero.
-/
theorem decode_encode_keeps_all_but_zero_signs
    {function : Function}
    {chunk : Chunk}
    (serializable : Serializable function chunk) :
    ∃ image,
      encode (some function) = .ok image ∧
        isImage image = true ∧
          decode image =
              .ok
                { function with
                  chunk? :=
                    some { chunk with constants := chunk.constants.map Value.dropZeroSigns } } ∧
            (decode image = .ok function ↔
              ∀ constant ∈ chunk.constants, ¬ constant.HoldsNegativeZero) := by
  obtain ⟨image, written, recognized, read⟩ := exists_image serializable
  refine ⟨image, written, recognized, read, ?_⟩
  obtain ⟨name, arity, chunk?⟩ := function
  obtain ⟨code, lines, constants⟩ := chunk
  cases serializable.defined
  rw [read, ← Value.map_dropZeroSigns_eq_self_iff]
  simp only [Except.ok.injEq, Function.mk.injEq, Option.some.injEq, Chunk.mk.injEq, true_and]

/-- A chunk that loads its only constant and returns it. -/
def loading (constant : Value) : Chunk where
  code :=
    [{ kind := .opcode, byte := Opcode.constant.byte },
      { kind := .constantIndex, byte := 0 },
      { kind := .opcode, byte := Opcode.return.byte }]
  lines := [1, 1, -1]
  constants := [constant]

/-- A function of one constant. -/
def returning (constant : Value) : Function where
  name := "f"
  arity := -1
  chunk? := some (loading constant)

/-- A function that returns a constant can be written if the constant is data. -/
theorem serializable_returning
    {constant : Value}
    (serializable : constant.IsData) :
    Serializable (returning constant) (loading constant) where
  defined := rfl
  valid := rfl
  constants := by
    intro other member
    rwa [List.mem_singleton.mp member]
  lines := by
    show 3 ≤ maxItems
    decide
  name := by
    show (Text.encode "f".toList).length < 2 ^ 63
    decide

/-- A constant whose parts are no finite numbers. -/
def unbounded : Value :=
  .complex { re := Binary64.nan, im := Binary64.infinity true }

theorem decode_encode_returning_unbounded :
    Serializable (returning unbounded) (loading unbounded) ∧
      ∃ image,
        encode (some (returning unbounded)) = .ok image ∧
          isImage image = true ∧ decode image = .ok (returning unbounded) := by
  have serializable : Serializable (returning unbounded) (loading unbounded) :=
    serializable_returning (by decide)
  refine ⟨serializable, ?_⟩
  obtain ⟨image, written, recognized, _, restored⟩ :=
    decode_encode_keeps_all_but_zero_signs serializable
  refine ⟨image, written, recognized, restored.mpr ?_⟩
  intro other member
  rw [List.mem_singleton.mp member]
  rintro (realZero | imagZero)
  · exact absurd (congrArg Binary64.shape realZero) (by decide)
  · exact absurd (congrArg Binary64.shape imagZero) (by decide)

/-- The negative zero comes back as the positive one. -/
theorem decode_encode_returning_negative_zero :
    Serializable
        (returning (.float (Binary64.zero true)))
        (loading (.float (Binary64.zero true))) ∧
      ∃ image,
        encode (some (returning (.float (Binary64.zero true)))) = .ok image ∧
          decode image = .ok (returning (.float (Binary64.zero false))) ∧
            decode image ≠ .ok (returning (.float (Binary64.zero true))) := by
  have serializable :
      Serializable
        (returning (.float (Binary64.zero true)))
        (loading (.float (Binary64.zero true))) :=
    serializable_returning (by decide)
  refine ⟨serializable, ?_⟩
  obtain ⟨image, written, _, read⟩ := exists_image serializable
  have positive :
      Value.dropZeroSigns (.float (Binary64.zero true)) = .float (Binary64.zero false) := by
    rw [Binary64.zero_false]
    rfl
  have decoded : decode image = .ok (returning (.float (Binary64.zero false))) := by
    rw [read, returning, returning, loading, loading, List.map_singleton, positive]
  refine ⟨image, written, decoded, ?_⟩
  rw [decoded]
  intro same
  simp only [returning, loading, Except.ok.injEq, Function.mk.injEq, Option.some.injEq,
    Chunk.mk.injEq, List.cons.injEq, Value.float.injEq, and_true, true_and] at same
  exact absurd (congrArg Binary64.shape same) (by decide)

end Reckon.Image
