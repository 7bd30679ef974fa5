import Reckon.Cbor.Item
import Reckon.Text.Utf8

namespace Reckon.Cbor

/-!
# Fields of records

A record is a map whose keys number its fields.  The first entry for a field counts, entries for
other fields are ignored, and a field without an entry, or with a null, has its zero value.
Numbers may be written as integers of any form; no other kind of item stands in for another.
-/

/-- The tag that only says that an item is one. -/
def selfDescribedTag : Nat := 55799

/-- The content that the standard tags demand: text, a number, and bytes. -/
def tagAdmits (number : Nat) (content : Item) : Bool :=
  match number, content with
  | 0, .text _ => true
  | 0, _ => false
  | 1, .unsigned _ | 1, .negative _ | 1, .float _ => true
  | 1, _ => false
  | 2, .bytes _ | 3, .bytes _ => true
  | 2, _ | 3, _ => false
  | _, _ => true

/-- An item without its tags, except those that make a number of bytes. -/
def untag? : Item → Option Item
  | .tag number content =>
      if number = selfDescribedTag then
        untag? content
      else if tagAdmits number content then
        if number = 2 ∨ number = 3 then some (.tag number content) else untag? content
      else
        none
  | item => some item

/-- The item stands for nothing. -/
def isNull : Item → Bool
  | .simple 22 | .simple 23 => true
  | _ => false

/-- The whole number that an untagged item stands for, within 64 bits. -/
def whole? : Item → Option Int
  | .unsigned value => some value
  | .negative value => if value < 0x8000000000000000 then some (-1 - (value : Int)) else none
  | .simple code => if 20 ≤ code ∧ code ≤ 23 then none else some code
  | .tag 2 (.bytes content) =>
      let value := ofBigEndian content
      if value < 0x10000000000000000 then some value else none
  | .tag 3 (.bytes content) =>
      let value := ofBigEndian content
      if value < 0x8000000000000000 then some (-1 - (value : Int)) else none
  | _ => none

/-- The content of a field: an entry may be missing, null, or of the kind that the field takes. -/
def field?
    {α : Type}
    (zero : α)
    (content? : Item → Option α)
    (item? : Option Item) :
    Option α :=
  match item? with
  | none => some zero
  | some entry => do
      let item ← untag? entry
      if isNull item then some zero else content? item

/-- A whole number within bounds, both included. -/
def intField? (low high : Int) (item? : Option Item) : Option Int :=
  field? 0
    (fun item => do
      let value ← whole? item
      if low ≤ value ∧ value ≤ high then some value else none)
    item?

/-- A double; whole numbers are rounded to the nearest. -/
def floatField? (item? : Option Item) : Option Float :=
  field? 0
    (fun item =>
      match item with
      | .float value => some value
      | item => (whole? item).map Binary64.ofInt)
    item?

/-- A truth value. -/
def boolField? (item? : Option Item) : Option Bool :=
  field? false
    (fun item =>
      match item with
      | .simple 20 => some false
      | .simple 21 => some true
      | _ => none)
    item?

/-- A text, each of whose chunks is well-formed. -/
def textContent? : Item → Option (List Char)
  | .text chunks =>
      if chunks.all Text.isWellFormed then some (Text.decode chunks.flatten) else none
  | _ => none

/-- A text. -/
def textField? (item? : Option Item) : Option (List Char) :=
  field? [] textContent? item?

/-- A sequence of fields of one kind. -/
def arrayField?
    {α : Type}
    (element? : Option Item → Option α)
    (item? : Option Item) :
    Option (List α) :=
  field? []
    (fun item =>
      match item with
      | .array items => items.mapM fun item => element? (some item)
      | _ => none)
    item?

/-- A byte. -/
def byteField? (item? : Option Item) : Option UInt8 :=
  (intField? 0 255 item?).map fun value => value.toNat.toUInt8

/-- Bytes, as such, as the bytes of a large number, or one by one. -/
def bytesField? (item? : Option Item) : Option (List UInt8) :=
  field? []
    (fun item =>
      match item with
      | .bytes content => some content
      | .tag _ (.bytes content) => some content
      | .array items => items.mapM fun item => byteField? (some item)
      | _ => none)
    item?

/-- The field number that a key gives; numbers wrap at 64 bits. -/
def keyNumber? : Item → Option Int
  | .unsigned value => some (Int.bmod value 0x10000000000000000)
  | .negative value => some (Int.bmod (-1 - (value : Int)) 0x10000000000000000)
  | _ => none

/-- The key gives the number of a field, as such or in base ten. -/
def keyIs (field : Nat) (key : Item) : Bool :=
  match key with
  | .text _ => textContent? key == some field.repr.toList
  | key => keyNumber? key == some (field : Int)

/-- The key is a number or a well-formed text. -/
def isKey (key : Item) : Bool :=
  (keyNumber? key).isSome || (textContent? key).isSome

/-- The first entry for a field. -/
def find? (entries : List (Item × Item)) (field : Nat) : Option Item :=
  (entries.find? fun entry => keyIs field entry.1).map (·.2)

/-- The entries of a record. -/
def recordField? (record? : Option Item) : Option (List (Item × Item)) :=
  field? []
    (fun item =>
      match item with
      | .map entries => if entries.all fun entry => isKey entry.1 then some entries else none
      | _ => none)
    record?

end Reckon.Cbor
