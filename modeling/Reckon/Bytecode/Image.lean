import Reckon.Bytecode.Chunk
import Reckon.Cbor.Encode
import Reckon.Cbor.Field
import Reckon.Cbor.Read
import Reckon.Digest
import Reckon.Text.Quoted

namespace Reckon

/-!
# Images

An image is a function in bytes: an envelope that names its format and holds the digest of its
payload, and a payload that holds the function.  Reading an image accepts only what it can verify:
the digest must match, every constant must be a truth value or a number, and the chunk must be
valid.
-/

namespace Image

/-- The name of the format. -/
def magic : String := "EMBC"

/-- The version of the format. -/
def version : Nat := 1

/-- Why a function has no image. -/
inductive WriteProblem where
  | missingFunction
  | constantKind (index : Nat) (kind : Kind)
  deriving Repr, DecidableEq

/-- Why some bytes are not an image. -/
inductive ReadProblem where
  | malformed
  | magic (found : List Char)
  | version (found : Nat)
  | checksum
  | unitCount (kinds units : Nat)
  | constantKind (index : Nat) (code : UInt8)
  | chunk (problem : ChunkProblem)
  deriving Repr, DecidableEq

namespace WriteProblem

/-- The wording of a problem. -/
def message : WriteProblem → String
  | .missingFunction => "chunk: marshal image: nil function"
  | .constantKind index kind =>
      "chunk: marshal image: constant " ++ Text.integer index ++
        " has unserializable kind " ++ kind.name

end WriteProblem

namespace ReadProblem

/-- The wording of what is wrong. -/
def detail : ReadProblem → String
  | .malformed => "cbor"
  | .magic found => "magic " ++ Text.quote found
  | .version found => "unsupported version " ++ Text.integer found
  | .checksum => "checksum mismatch"
  | .unitCount kinds units =>
      Text.integer kinds ++ " unit kinds for " ++ Text.integer units ++ " units"
  | .constantKind index code =>
      "constant " ++ Text.integer index ++ " has kind " ++ Text.integer code.toNat
  | .chunk problem => problem.message

/-- The wording of a problem. -/
def message (problem : ReadProblem) : String :=
  "bad chunk image: " ++ problem.detail

end ReadProblem

/-- How every image begins: a map of four entries, the first of which names the format. -/
def lead : List UInt8 :=
  [0xA4, 0x01, 0x64] ++ Text.encode magic.toList

/-- The bytes begin as an image does; what follows is not looked at. -/
def isImage (bytes : List UInt8) : Bool :=
  lead.isPrefixOf bytes

/-- A field that is left out when the double in it is a zero of either sign. -/
def floatEntry (number : Nat) (value : Float) : List (Nat × Cbor.Item) :=
  if value == 0 then [] else [(number, .float value)]

/-- A constant as a record, unless its kind has no place in an image. -/
def constantItem? : Value → Option Cbor.Item
  | .bool truth =>
      some (.record ((1, .unsigned 1) :: if truth then [(2, Cbor.Item.bool true)] else []))
  | .integer number =>
      some
        (.record
          ((1, .unsigned 2) ::
            if number = 0 then [] else [(3, Cbor.Item.int number.toInt)]))
  | .float number =>
      some (.record ((1, .unsigned 3) :: floatEntry 4 number))
  | .complex number =>
      some (.record ((1, .unsigned 4) :: (floatEntry 4 number.re ++ floatEntry 5 number.im)))
  | .invalid | .object _ => none

/-- The records of constants from an index on. -/
def constantItems : Nat → List Value → Except WriteProblem (List Cbor.Item)
  | _, [] => .ok []
  | index, constant :: rest =>
      match constantItem? constant with
      | none => .error (.constantKind index constant.kind)
      | some item => do
          let items ← constantItems (index + 1) rest
          .ok (item :: items)

/-- The entries of a payload. -/
def payloadFields
    (function : Function)
    (chunk : Chunk)
    (constants : List Cbor.Item) :
    List (Nat × Cbor.Item) :=
  [(1, .text [Text.encode function.name.toList]),
    (2, .int function.arity.toInt),
    (3, .bytes (chunk.code.map (·.byte))),
    (4, .bytes (chunk.code.map (·.kind.tag))),
    (5, .array (chunk.lines.map fun line => .int line.toInt)),
    (6, .array constants)]

/-- The payload of a function with a chunk. -/
def payloadItem (function : Function) (chunk : Chunk) (constants : List Cbor.Item) : Cbor.Item :=
  .record (payloadFields function chunk constants)

/-- The entries of an envelope. -/
def envelopeFields (payload : List UInt8) : List (Nat × Cbor.Item) :=
  [(1, .text [Text.encode magic.toList]),
    (2, .unsigned version),
    (3, .bytes payload),
    (4, .bytes (digest payload))]

/-- The envelope of a payload. -/
def envelopeItem (payload : List UInt8) : Cbor.Item :=
  .record (envelopeFields payload)

/-- The image of a function. -/
def encode (function? : Option Function) : Except WriteProblem (List UInt8) :=
  match function? with
  | none => .error .missingFunction
  | some function =>
      match function.chunk? with
      | none => .error .missingFunction
      | some chunk => do
          let constants ← constantItems 0 chunk.constants
          let payload := (payloadItem function chunk constants).encode
          .ok (envelopeItem payload).encode

/-- The fields of an envelope. -/
structure Envelope where
  magic : List Char
  version : Nat
  payload : List UInt8
  sum : List UInt8

/-- The fields of a constant. -/
structure ConstantFields where
  kind : UInt8
  bool : Bool
  int : Int
  real : Float
  imag : Float

/-- The fields of a payload. -/
structure Payload where
  name : List Char
  arity : Int
  code : List UInt8
  kinds : List UInt8
  lines : List Int
  constants : List ConstantFields

/-- A whole number of 64 bits. -/
def wordField? : Option Cbor.Item → Option Int :=
  Cbor.intField? (-0x8000000000000000) 0x7FFFFFFFFFFFFFFF

/-- Read an envelope. -/
def readEnvelope? (bytes : List UInt8) : Option Envelope := do
  let item ← Cbor.Item.decode? bytes
  let entries ← Cbor.recordField? (some item)
  let magic ← Cbor.textField? (Cbor.find? entries 1)
  let version ← Cbor.intField? 0 0xFFFFFFFFFFFFFFFF (Cbor.find? entries 2)
  let payload ← Cbor.bytesField? (Cbor.find? entries 3)
  let sum ← Cbor.bytesField? (Cbor.find? entries 4)
  some { magic := magic, version := version.toNat, payload := payload, sum := sum }

/-- Read a constant. -/
def constantField? (record? : Option Cbor.Item) : Option ConstantFields := do
  let entries ← Cbor.recordField? record?
  let kind ← Cbor.byteField? (Cbor.find? entries 1)
  let bool ← Cbor.boolField? (Cbor.find? entries 2)
  let int ← Cbor.intField? (-0x80000000) 0x7FFFFFFF (Cbor.find? entries 3)
  let real ← Cbor.floatField? (Cbor.find? entries 4)
  let imag ← Cbor.floatField? (Cbor.find? entries 5)
  some { kind := kind, bool := bool, int := int, real := real, imag := imag }

/-- Read a payload. -/
def readPayload? (bytes : List UInt8) : Option Payload := do
  let item ← Cbor.Item.decode? bytes
  let entries ← Cbor.recordField? (some item)
  let name ← Cbor.textField? (Cbor.find? entries 1)
  let arity ← wordField? (Cbor.find? entries 2)
  let code ← Cbor.bytesField? (Cbor.find? entries 3)
  let kinds ← Cbor.bytesField? (Cbor.find? entries 4)
  let lines ← Cbor.arrayField? wordField? (Cbor.find? entries 5)
  let constants ← Cbor.arrayField? constantField? (Cbor.find? entries 6)
  some
    { name := name
      arity := arity
      code := code
      kinds := kinds
      lines := lines
      constants := constants }

/-- The value of a constant, unless no constant is of that kind. -/
def constantValue? (fields : ConstantFields) : Option Value :=
  match Kind.ofCode fields.kind with
  | .bool => some (.bool fields.bool)
  | .integer => some (.integer (Int32.ofInt fields.int))
  | .float => some (.float fields.real)
  | .complex => some (.complex { re := fields.real, im := fields.imag })
  | .invalid | .object => none

/-- The values of constants from an index on. -/
def constantValues : Nat → List ConstantFields → Except ReadProblem (List Value)
  | _, [] => .ok []
  | index, fields :: rest =>
      match constantValue? fields with
      | none => .error (.constantKind index fields.kind)
      | some value => do
          let values ← constantValues (index + 1) rest
          .ok (value :: values)

/-- The function of a verified envelope. -/
def decodePayload (bytes : List UInt8) : Except ReadProblem Function :=
  match readPayload? bytes with
  | none => .error .malformed
  | some payload =>
      if payload.kinds.length ≠ payload.code.length then
        .error (.unitCount payload.kinds.length payload.code.length)
      else do
        let constants ← constantValues 0 payload.constants
        let chunk : Chunk :=
          { code :=
              (payload.kinds.zip payload.code).map fun unit =>
                { kind := { tag := unit.1 }, byte := unit.2 }
            lines := payload.lines.map Int64.ofInt
            constants := constants }
        match chunk.validate with
        | .error problem => .error (.chunk problem)
        | .ok () =>
            .ok
              { name := String.ofList payload.name
                arity := Int64.ofInt payload.arity
                chunk? := some chunk }

/-- The function that an image holds. -/
def decode (bytes : List UInt8) : Except ReadProblem Function :=
  match readEnvelope? bytes with
  | none => .error .malformed
  | some envelope =>
      if envelope.magic ≠ magic.toList then
        .error (.magic envelope.magic)
      else if envelope.version ≠ version then
        .error (.version envelope.version)
      else if digest envelope.payload ≠ envelope.sum then
        .error .checksum
      else
        decodePayload envelope.payload

end Image

end Reckon
