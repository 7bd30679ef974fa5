namespace Reckon.Text

/-!
# Text as bytes

Source text arrives as bytes.  Decoding reads the longest well-formed UTF-8 sequence at each
position and yields the replacement character for every byte that starts none, so that decoding
never fails and never merges two bad bytes into one character.
-/

/-- The character that stands for a byte outside every well-formed sequence. -/
def replacement : Char := '�'

/-- The low six bits of a continuation byte, when it is one. -/
def continuation? (byte : UInt8) : Option Nat :=
  if 0x80 ≤ byte ∧ byte ≤ 0xBF then
    some (byte.toNat - 0x80)
  else
    none

/-- The continuation bytes that follow a leading byte, as one number in base 64. -/
def continuations? : Nat → List UInt8 → Option Nat
  | 0, _ => some 0
  | _ + 1, [] => none
  | count + 1, byte :: rest => do
      let high ← continuation? byte
      let low ← continuations? count rest
      some (high * Nat.pow 64 count + low)

/-- A sequence of `extra` continuation bytes, refused outside the code points it is meant for. -/
def sequence?
    (lead : Nat)
    (extra least : Nat)
    (rest : List UInt8) :
    Option (Char × Nat) := do
  let tail ← continuations? extra rest
  let code := lead * Nat.pow 64 extra + tail
  if least ≤ code ∧ code.isValidChar then
    some (Char.ofNat code, extra)
  else
    none

/--
The character that a well-formed sequence at the front encodes, with the number of continuation
bytes it takes.  Overlong forms, surrogates and code points past the last plane are refused.
-/
def scalar? (first : UInt8) (rest : List UInt8) : Option (Char × Nat) :=
  let lead := first.toNat
  if lead < 0x80 then
    some (Char.ofNat lead, 0)
  else if lead < 0xC0 then
    none
  else if lead < 0xE0 then
    sequence? (lead - 0xC0) 1 0x80 rest
  else if lead < 0xF0 then
    sequence? (lead - 0xE0) 2 0x800 rest
  else if lead < 0xF8 then
    sequence? (lead - 0xF0) 3 0x10000 rest
  else
    none

/-- Decode after skipping the continuation bytes of a sequence already read. -/
def decodeAfter : Nat → List UInt8 → List Char
  | _, [] => []
  | skip + 1, _ :: rest => decodeAfter skip rest
  | 0, first :: rest =>
      match scalar? first rest with
      | some (char, extra) => char :: decodeAfter extra rest
      | none => replacement :: decodeAfter 0 rest

/-- The characters of a byte sequence. -/
def decode (bytes : List UInt8) : List Char :=
  decodeAfter 0 bytes

/-- Well-formedness after skipping the continuation bytes of a sequence already read. -/
def wellFormedAfter : Nat → List UInt8 → Bool
  | _, [] => true
  | skip + 1, _ :: rest => wellFormedAfter skip rest
  | 0, first :: rest =>
      match scalar? first rest with
      | some (_, extra) => wellFormedAfter extra rest
      | none => false

/-- The bytes are a concatenation of well-formed sequences. -/
def isWellFormed (bytes : List UInt8) : Bool :=
  wellFormedAfter 0 bytes

/-- The bytes of one character. -/
def encodeChar (char : Char) : List UInt8 :=
  let code := char.toNat
  if code < 0x80 then
    [code.toUInt8]
  else if code < 0x800 then
    [(0xC0 + code / 64).toUInt8, (0x80 + code % 64).toUInt8]
  else if code < 0x10000 then
    [(0xE0 + code / 4096).toUInt8, (0x80 + code / 64 % 64).toUInt8, (0x80 + code % 64).toUInt8]
  else
    [(0xF0 + code / 262144).toUInt8, (0x80 + code / 4096 % 64).toUInt8,
      (0x80 + code / 64 % 64).toUInt8, (0x80 + code % 64).toUInt8]

/-- The bytes of a text. -/
def encode (chars : List Char) : List UInt8 :=
  chars.flatMap encodeChar

end Reckon.Text
