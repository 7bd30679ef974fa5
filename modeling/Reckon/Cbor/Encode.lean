import Reckon.Cbor.Item

namespace Reckon.Cbor

/-!
# Writing items

Items are written canonically: every length is definite, every head is as short as it can be, and
every floating-point number takes the narrowest format that keeps its value.
-/

/-- The shortest head of a major type with an argument. -/
def head (major argument : Nat) : List UInt8 :=
  let lead (info : Nat) := (major * 32 + info).toUInt8
  if argument < 24 then
    [lead argument]
  else if argument < 0x100 then
    lead 24 :: bigEndian 1 argument
  else if argument < 0x10000 then
    lead 25 :: bigEndian 2 argument
  else if argument < 0x100000000 then
    lead 26 :: bigEndian 4 argument
  else
    lead 27 :: bigEndian 8 argument

/-- A number in the narrowest format that keeps its value. -/
def encodeFloat (number : Float) : List UInt8 :=
  match Binary64.shape number with
  | .nan => 0xF9 :: bigEndian 2 0x7E00
  | .infinite negative => 0xF9 :: bigEndian 2 (if negative then 0xFC00 else 0x7C00)
  | .finite negative significand exponent =>
      match FloatFormat.half.narrow? negative significand exponent with
      | some bits => 0xF9 :: bigEndian 2 bits
      | none =>
          match FloatFormat.single.narrow? negative significand exponent with
          | some bits => 0xFA :: bigEndian 4 bits
          | none => 0xFB :: bigEndian 8 number.toBits.toNat

mutual

/-- The bytes of an item. -/
def Item.encode : Item → List UInt8
  | .unsigned value => head 0 value
  | .negative value => head 1 value
  | .bytes content => head 2 content.length ++ content
  | .text chunks => head 3 chunks.flatten.length ++ chunks.flatten
  | .array items => head 4 items.length ++ encodeItems items
  | .map entries => head 5 entries.length ++ encodeEntries entries
  | .tag number content => head 6 number ++ content.encode
  | .simple code => head 7 code
  | .float value => encodeFloat value

/-- The bytes of items one after the other. -/
def encodeItems : List Item → List UInt8
  | [] => []
  | item :: items => item.encode ++ encodeItems items

/-- The bytes of keys and values by turns. -/
def encodeEntries : List (Item × Item) → List UInt8
  | [] => []
  | (key, value) :: entries => key.encode ++ value.encode ++ encodeEntries entries

end

namespace Item

/-- A whole number. -/
def int (value : Int) : Item :=
  match value with
  | .ofNat value => .unsigned value
  | .negSucc value => .negative value

/-- A truth value. -/
def bool (truth : Bool) : Item :=
  .simple (if truth then 21 else 20)

/-- A map from numbers, given in increasing order. -/
def record (fields : List (Nat × Item)) : Item :=
  .map (fields.map fun field => (.unsigned field.1, field.2))

end Item

end Reckon.Cbor
