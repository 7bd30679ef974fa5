import Mathlib.Algebra.Group.Nat.Defs
import Reckon.Text.Utf8

namespace Reckon.Text

/-!
# Text survives as bytes

What a text is written as is well-formed and reads as the text again, whatever follows it.
-/

theorem toNat_toUInt8
    {number : Nat}
    (small : number < 256) :
    number.toUInt8.toNat = number := by
  rw [Nat.toUInt8_eq, UInt8.toNat_ofNat']
  exact Nat.mod_eq_of_lt small

/-- Six bits are read back from a continuation byte. -/
theorem continuation?_low
    {low : Nat}
    (small : low < 64) :
    continuation? (0x80 + low).toUInt8 = some low := by
  have converted : (0x80 + low).toUInt8.toNat = 0x80 + low := toNat_toUInt8 (by omega)
  have between : 0x80 ≤ (0x80 + low).toUInt8 ∧ (0x80 + low).toUInt8 ≤ 0xBF := by
    simp only [UInt8.le_iff_toNat_le, converted]
    constructor
    · exact Nat.le_add_right 128 low
    · show 0x80 + low ≤ 191
      omega
  rw [continuation?, if_pos between, converted, Nat.add_sub_cancel_left]

/-- Continuation bytes are the digits of a number in base 64. -/
theorem continuations?_cons
    {low count tail : Nat}
    {rest : List UInt8}
    (small : low < 64)
    (continued : continuations? count rest = some tail) :
    continuations? (count + 1) ((0x80 + low).toUInt8 :: rest) =
      some (low * 64 ^ count + tail) := by
  simp only [continuations?, continuation?_low small, continued, Option.bind_eq_bind,
    Option.bind_some, Nat.pow_eq]

/-- A sequence that gives the code point of a character in its range gives the character. -/
theorem sequence?_of_continuations?
    {lead extra least tail : Nat}
    {rest : List UInt8}
    {char : Char}
    (continued : continuations? extra rest = some tail)
    (composed : lead * 64 ^ extra + tail = char.toNat)
    (inRange : least ≤ char.toNat) :
    sequence? lead extra least rest = some (char, extra) := by
  have valid : char.toNat.isValidChar := char.valid
  simp only [sequence?, continued, Option.bind_eq_bind, Option.bind_some, Nat.pow_eq, composed,
    inRange, valid, and_self, ↓reduceIte, Char.ofNat_toNat]

/--
The bytes of a character are read as the character, with nothing of what follows.  There is a case
for each number of bytes, which hold the code point in base 64.
-/
theorem scalar?_encodeChar
    (char : Char) :
    ∃ first tail,
      encodeChar char = first :: tail ∧
        ∀ rest, scalar? first (tail ++ rest) = some (char, tail.length) := by
  have bounded : char.toNat < 0x110000 := by
    have valid : char.toNat.isValidChar := char.valid
    unfold Nat.isValidChar at valid
    omega
  have low : ∀ number, number % 64 < 64 := fun number => Nat.mod_lt number (by decide)
  unfold encodeChar
  simp only
  split
  next ascii =>
    refine ⟨_, [], rfl, fun rest => ?_⟩
    simp only [scalar?, toNat_toUInt8 (Nat.lt_trans ascii (by decide)), ascii, ↓reduceIte,
      Char.ofNat_toNat, List.length_nil]
  next =>
    split
    next =>
      refine ⟨_, [_], rfl, fun rest => ?_⟩
      unfold scalar?
      simp only [toNat_toUInt8 (show 0xC0 + char.toNat / 64 < 256 by omega)]
      rw [if_neg (by omega), if_neg (by omega), if_pos (by omega)]
      exact
        sequence?_of_continuations?
          (continuations?_cons (low _) rfl)
          (by omega)
          (by omega)
    next =>
      split
      next =>
        refine ⟨_, [_, _], rfl, fun rest => ?_⟩
        unfold scalar?
        simp only [toNat_toUInt8 (show 0xE0 + char.toNat / 4096 < 256 by omega)]
        rw [if_neg (by omega), if_neg (by omega), if_neg (by omega), if_pos (by omega)]
        exact
          sequence?_of_continuations?
            (continuations?_cons (low _) (continuations?_cons (low _) rfl))
            (by omega)
            (by omega)
      next =>
        refine ⟨_, [_, _, _], rfl, fun rest => ?_⟩
        unfold scalar?
        simp only [toNat_toUInt8 (show 0xF0 + char.toNat / 262144 < 256 by omega)]
        rw [if_neg (by omega), if_neg (by omega), if_neg (by omega), if_neg (by omega),
          if_pos (by omega)]
        exact
          sequence?_of_continuations?
            (continuations?_cons (low _)
              (continuations?_cons (low _) (continuations?_cons (low _) rfl)))
            (by omega)
            (by omega)

/-- Bytes that are skipped are not decoded. -/
theorem decodeAfter_append
    (skipped rest : List UInt8) :
    decodeAfter skipped.length (skipped ++ rest) = decodeAfter 0 rest := by
  induction skipped with
  | nil => rfl
  | cons byte skipped inductionHypothesis => exact inductionHypothesis

/-- Bytes that are skipped are not checked. -/
theorem wellFormedAfter_append
    (skipped rest : List UInt8) :
    wellFormedAfter skipped.length (skipped ++ rest) = wellFormedAfter 0 rest := by
  induction skipped with
  | nil => rfl
  | cons byte skipped inductionHypothesis => exact inductionHypothesis

/-- Characters are read back from their bytes. -/
theorem decode_encode
    (chars : List Char) :
    decode (encode chars) = chars := by
  induction chars with
  | nil => rfl
  | cons char chars inductionHypothesis =>
      obtain ⟨first, tail, written, read⟩ := scalar?_encodeChar char
      rw [encode, List.flatMap_cons, written, List.cons_append]
      simp only [decode, decodeAfter, read, decodeAfter_append]
      exact congrArg (char :: ·) inductionHypothesis

/-- The bytes of characters are well formed. -/
theorem isWellFormed_encode
    (chars : List Char) :
    isWellFormed (encode chars) = true := by
  induction chars with
  | nil => rfl
  | cons char chars inductionHypothesis =>
      obtain ⟨first, tail, written, read⟩ := scalar?_encodeChar char
      rw [encode, List.flatMap_cons, written, List.cons_append]
      simp only [isWellFormed, wellFormedAfter, read, wellFormedAfter_append]
      exact inductionHypothesis

end Reckon.Text
