namespace Reckon

/-!
# Digests

BLAKE2b without a key and with a digest of 32 bytes.
-/

namespace Digest

/-- The eight words that the chaining value and the working vector start from. -/
def initialWords : List UInt64 :=
  [0x6A09E667F3BCC908, 0xBB67AE8584CAA73B, 0x3C6EF372FE94F82B, 0xA54FF53A5F1D36F1,
    0x510E527FADE682D1, 0x9B05688C2B3E6C1F, 0x1F83D9ABFB41BD6B, 0x5BE0CD19137E2179]

/-- The order in which each of the ten rounds takes the message words. -/
def schedule : List (List Nat) :=
  [[0, 1, 2, 3, 4, 5, 6, 7, 8, 9, 10, 11, 12, 13, 14, 15],
    [14, 10, 4, 8, 9, 15, 13, 6, 1, 12, 0, 2, 11, 7, 5, 3],
    [11, 8, 12, 0, 5, 2, 15, 13, 10, 14, 3, 6, 7, 1, 9, 4],
    [7, 9, 3, 1, 13, 12, 11, 14, 2, 6, 5, 10, 4, 0, 15, 8],
    [9, 0, 5, 7, 2, 4, 10, 15, 14, 1, 11, 12, 6, 8, 3, 13],
    [2, 12, 6, 10, 0, 11, 8, 3, 4, 13, 7, 5, 15, 14, 1, 9],
    [12, 5, 1, 15, 14, 13, 4, 10, 0, 7, 6, 3, 9, 2, 8, 11],
    [13, 11, 7, 14, 12, 1, 3, 9, 5, 0, 15, 4, 8, 6, 2, 10],
    [6, 15, 14, 9, 11, 3, 0, 8, 12, 2, 13, 7, 1, 4, 10, 5],
    [10, 2, 8, 4, 7, 6, 1, 5, 15, 11, 9, 14, 3, 12, 13, 0]]

/-- The words that a round mixes, as positions in the working vector: columns, then diagonals. -/
def lanes : List (Nat × Nat × Nat × Nat) :=
  [(0, 4, 8, 12), (1, 5, 9, 13), (2, 6, 10, 14), (3, 7, 11, 15),
    (0, 5, 10, 15), (1, 6, 11, 12), (2, 7, 8, 13), (3, 4, 9, 14)]

/-- Rotate the bits of a word to the right. -/
def rotateRight (word count : UInt64) : UInt64 :=
  (word >>> count) ||| (word <<< (64 - count))

/-- A word of a vector, zero outside it. -/
def wordAt (words : List UInt64) (index : Nat) : UInt64 :=
  words[index]?.getD 0

/-- Mix two message words into four words of the working vector. -/
def mix
    (vector : List UInt64)
    (lane : Nat × Nat × Nat × Nat)
    (left right : UInt64) :
    List UInt64 :=
  let (i, j, k, l) := lane
  let a := wordAt vector i + wordAt vector j + left
  let d := rotateRight (wordAt vector l ^^^ a) 32
  let c := wordAt vector k + d
  let b := rotateRight (wordAt vector j ^^^ c) 24
  let a := a + b + right
  let d := rotateRight (d ^^^ a) 16
  let c := c + d
  let b := rotateRight (b ^^^ c) 63
  (((vector.set i a).set j b).set k c).set l d

/-- The lanes of a round from the front of its schedule on. -/
def mixLanes
    (message : List UInt64) :
    List UInt64 → List (Nat × Nat × Nat × Nat) → List Nat → List UInt64
  | vector, lane :: lanes, left :: right :: order =>
      mixLanes message
        (mix vector lane (wordAt message left) (wordAt message right)) lanes order
  | vector, _, _ => vector

/-- All twelve rounds; the last two take the schedule from its start again. -/
def mixRounds (message vector : List UInt64) : List UInt64 :=
  (schedule ++ schedule.take 2).foldl
    (fun vector order => mixLanes message vector lanes order) vector

/-- Take one block into the chaining value, given how many bytes were taken with it. -/
def compress
    (chain message : List UInt64)
    (taken : Nat)
    (final : Bool) :
    List UInt64 :=
  let low := taken.toUInt64
  let high := (taken / 0x10000000000000000).toUInt64
  let last : UInt64 := if final then 0xFFFFFFFFFFFFFFFF else 0
  let start := chain ++ initialWords
  let start := start.set 12 (wordAt start 12 ^^^ low)
  let start := start.set 13 (wordAt start 13 ^^^ high)
  let start := start.set 14 (wordAt start 14 ^^^ last)
  let vector := mixRounds message start
  (List.range 8).map fun index =>
    wordAt chain index ^^^ wordAt vector index ^^^ wordAt vector (index + 8)

/-- A word from bytes, the lowest first. -/
def wordOfBytes (bytes : List UInt8) : UInt64 :=
  bytes.foldr (fun byte word => (word <<< 8) ||| byte.toUInt64) 0

/-- The bytes of a word, the lowest first. -/
def bytesOfWord (word : UInt64) : List UInt8 :=
  (List.range 8).map fun index => (word >>> (8 * index).toUInt64).toUInt8

/-- A block as sixteen words, with zeros behind its bytes. -/
def blockWords (block : List UInt8) : List UInt64 :=
  (List.range 16).map fun index => wordOfBytes ((block.drop (8 * index)).take 8)

/-- Take blocks of 128 bytes, of which there are at most as many more as stated. -/
def absorb : Nat → Nat → List UInt64 → List UInt8 → List UInt64
  | 0, taken, chain, bytes =>
      compress chain (blockWords bytes) (taken + bytes.length) true
  | more + 1, taken, chain, bytes =>
      if bytes.length ≤ 128 then
        compress chain (blockWords bytes) (taken + bytes.length) true
      else
        absorb more (taken + 128)
          (compress chain (blockWords (bytes.take 128)) (taken + 128) false)
          (bytes.drop 128)

/-- The chaining value at the start: the initial words marked with the length of the digest. -/
def startChain : List UInt64 :=
  initialWords.set 0 (wordAt initialWords 0 ^^^ 0x01010020)

end Digest

/-- The digest of some bytes. -/
def digest (bytes : List UInt8) : List UInt8 :=
  let chain := Digest.absorb (bytes.length / 128) 0 Digest.startChain bytes
  (chain.take 4).flatMap Digest.bytesOfWord

end Reckon
