import Reckon.Cbor.Item

namespace Reckon.Cbor

/-!
# Reading items

An item is read from the front of some bytes with what is left over.  Arrays and maps may nest to
a fixed depth, to which a tag directly inside a tag counts too, and hold a bounded number of
items.
-/

/-- How deep arrays and maps may nest. -/
def maxLevels : Nat := 32

/-- How many items an array, or pairs a map, may hold. -/
def maxItems : Nat := 131072

/-- The first byte of an item and the argument that follows it. -/
structure Head where
  major : Nat
  info : Nat
  argument : Nat
  deriving Repr, DecidableEq

/-- Some bytes from the front. -/
def takeBytes? (count : Nat) (bytes : List UInt8) : Option (List UInt8 × List UInt8) :=
  if bytes.length < count then none else some (bytes.take count, bytes.drop count)

/-- An argument of the given number of bytes. -/
def readArgument?
    (major info count : Nat)
    (rest : List UInt8) :
    Option (Head × List UInt8) := do
  let (argument, rest) ← takeBytes? count rest
  some ({ major := major, info := info, argument := ofBigEndian argument }, rest)

/--
The head of an item.  An indefinite length, given by 31, is refused where there is no length, and
so are a break outside an item and a long form of the first 32 simple values.
-/
def readHead? : List UInt8 → Option (Head × List UInt8)
  | [] => none
  | first :: rest =>
      let major := first.toNat / 32
      let info := first.toNat % 32
      if info < 24 then
        some ({ major := major, info := info, argument := info }, rest)
      else if info = 24 then do
        let (found, rest) ← readArgument? major info 1 rest
        if major = 7 ∧ found.argument < 32 then none else some (found, rest)
      else if info = 25 then
        readArgument? major info 2 rest
      else if info = 26 then
        readArgument? major info 4 rest
      else if info = 27 then
        readArgument? major info 8 rest
      else if info = 31 ∧ 2 ≤ major ∧ major ≤ 5 then
        some ({ major := major, info := info, argument := 0 }, rest)
      else
        none

/-- Chunks of definite length and one major type up to a break. -/
def readChunks? (major : Nat) : Nat → List UInt8 → Option (List (List UInt8) × List UInt8)
  | 0, _ => none
  | _ + 1, [] => none
  | more + 1, first :: rest =>
      if first = 0xFF then
        some ([], rest)
      else do
        let (found, rest) ← readHead? (first :: rest)
        if found.major = major ∧ found.info ≠ 31 then
          let (chunk, rest) ← takeBytes? found.argument rest
          let (chunks, rest) ← readChunks? major more rest
          some (chunk :: chunks, rest)
        else
          none

/-- The chunks of a byte or text string. -/
def readString?
    (found : Head)
    (rest : List UInt8) :
    Option (List (List UInt8) × List UInt8) :=
  if found.info = 31 then
    readChunks? found.major (rest.length + 1) rest
  else do
    let (content, rest) ← takeBytes? found.argument rest
    some ([content], rest)

/-- A reader of one item. -/
abbrev Reader := List UInt8 → Option (Item × List UInt8)

/-- A given number of items. -/
def readMany? (read? : Reader) : Nat → List UInt8 → Option (List Item × List UInt8)
  | 0, rest => some ([], rest)
  | count + 1, rest => do
      let (item, rest) ← read? rest
      let (items, rest) ← readMany? read? count rest
      some (item :: items, rest)

/-- Items up to a break. -/
def readUntilBreak? (read? : Reader) : Nat → List UInt8 → Option (List Item × List UInt8)
  | 0, _ => none
  | _ + 1, [] => none
  | more + 1, first :: rest =>
      if first = 0xFF then
        some ([], rest)
      else do
        let (item, rest) ← read? (first :: rest)
        let (items, rest) ← readUntilBreak? read? more rest
        some (item :: items, rest)

/-- The items of an array, or the keys and values of a map by turns. -/
def readContent?
    (read? : Reader)
    (found : Head)
    (each : Nat)
    (rest : List UInt8) :
    Option (List Item × List UInt8) :=
  if found.info = 31 then do
    let (items, rest) ← readUntilBreak? read? (rest.length + 1) rest
    if items.length / each ≤ maxItems then some (items, rest) else none
  else if found.argument ≤ maxItems then
    readMany? read? (found.argument * each) rest
  else
    none

/-- Keys and values by turns as pairs; none may be left over. -/
def pairUp? : List Item → Option (List (Item × Item))
  | [] => some []
  | [_] => none
  | key :: value :: rest => do
      let entries ← pairUp? rest
      some ((key, value) :: entries)

/-- A simple value or a floating-point number. -/
def primitive (found : Head) : Item :=
  if found.info = 25 then
    .float (FloatFormat.half.widen found.argument)
  else if found.info = 26 then
    .float (FloatFormat.single.widen found.argument)
  else if found.info = 27 then
    .float (Float.ofBits found.argument.toUInt64)
  else
    .simple found.argument

/-- The next item is a tag. -/
def startsWithTag : List UInt8 → Bool
  | [] => false
  | first :: _ => first.toNat / 32 == 6

/--
An item with the given number of levels left for nesting.  The steps bound how far the reader
goes into an item: each level takes at most one step for a tag and one for what is tagged.
-/
def readItem? : Nat → Nat → List UInt8 → Option (Item × List UInt8)
  | 0, _, _ => none
  | steps + 1, levels, bytes => do
      let (found, rest) ← readHead? bytes
      match found.major with
      | 0 => some (.unsigned found.argument, rest)
      | 1 => some (.negative found.argument, rest)
      | 2 => do
          let (chunks, rest) ← readString? found rest
          some (.bytes chunks.flatten, rest)
      | 3 => do
          let (chunks, rest) ← readString? found rest
          some (.text chunks, rest)
      | 4 =>
          if levels = 0 then
            none
          else do
            let (items, rest) ← readContent? (readItem? steps (levels - 1)) found 1 rest
            some (.array items, rest)
      | 5 =>
          if levels = 0 then
            none
          else do
            let (items, rest) ← readContent? (readItem? steps (levels - 1)) found 2 rest
            let entries ← pairUp? items
            some (.map entries, rest)
      | 6 =>
          if startsWithTag rest then
            if levels = 0 then
              none
            else do
              let (content, rest) ← readItem? steps (levels - 1) rest
              some (.tag found.argument content, rest)
          else do
            let (content, rest) ← readItem? steps levels rest
            some (.tag found.argument content, rest)
      | _ => some (primitive found, rest)

/-- The one item that some bytes hold. -/
def Item.decode? (bytes : List UInt8) : Option Item := do
  let (item, rest) ← readItem? (2 * maxLevels + 2) maxLevels bytes
  if rest.isEmpty then some item else none

end Reckon.Cbor
