import Reckon.Proofs.Text.Utf8

namespace Reckon.Text

/-!
# Well-formed bytes spell a text

The well-formed bytes are those that some text is written as.  They may be joined, and what is
read from them is written as the same bytes again.
-/

/-- A continuation byte is made of its six bits. -/
theorem eq_of_continuation?
    {byte : UInt8}
    {low : Nat}
    (continued : continuation? byte = some low) :
    byte = (0x80 + low).toUInt8 ∧ low < 64 := by
  unfold continuation? at continued
  split at continued
  next between =>
    obtain ⟨least, greatest⟩ := between
    have atLeast : 0x80 ≤ byte.toNat := UInt8.le_iff_toNat_le.mp least
    have atMost : byte.toNat ≤ 0xBF := UInt8.le_iff_toNat_le.mp greatest
    obtain rfl := Option.some.inj continued
    refine ⟨?_, by omega⟩
    rw [Nat.add_sub_cancel' atLeast, Nat.toUInt8_eq, UInt8.ofNat_toNat]
  next => cases continued

/-- A number that is read from continuation bytes has its first digit in the first of them. -/
theorem cons_of_continuations?
    {count tail : Nat}
    {rest : List UInt8}
    (continued : continuations? (count + 1) rest = some tail) :
    ∃ high low following,
      rest = (0x80 + high).toUInt8 :: following ∧
        high < 64 ∧
          continuations? count following = some low ∧ tail = high * 64 ^ count + low := by
  cases rest with
  | nil => cases continued
  | cons byte following =>
      simp only [continuations?, Option.bind_eq_bind, Option.bind_eq_some_iff,
        Option.some.injEq, Nat.pow_eq] at continued
      obtain ⟨high, first, low, others, rfl⟩ := continued
      obtain ⟨rfl, small⟩ := eq_of_continuation? first
      exact ⟨high, low, following, rfl, small, others, rfl⟩

/-- The code point of a sequence is made of the bits of its lead and of its continuations. -/
theorem continuations?_of_sequence?
    {lead extra least taken : Nat}
    {rest : List UInt8}
    {char : Char}
    (read : sequence? lead extra least rest = some (char, taken)) :
    ∃ tail,
      continuations? extra rest = some tail ∧
        char.toNat = lead * 64 ^ extra + tail ∧ least ≤ char.toNat ∧ taken = extra := by
  simp only [sequence?, Option.bind_eq_bind, Option.bind_eq_some_iff, Nat.pow_eq] at read
  obtain ⟨tail, continued, read⟩ := read
  split at read
  next admitted =>
    obtain ⟨inRange, valid⟩ := admitted
    have same : (Char.ofNat (lead * 64 ^ extra + tail)).toNat = lead * 64 ^ extra + tail := by
      rw [Char.ofNat, dif_pos valid]
      rfl
    cases read
    refine ⟨tail, continued, same, ?_, rfl⟩
    rwa [same]
  next => cases read

/--
A character is written as the sequence that it was read from.  There is a case for each number of
bytes, which the range of the code point gives back.
-/
theorem encodeChar_of_scalar?
    {first : UInt8}
    {rest : List UInt8}
    {char : Char}
    {extra : Nat}
    (read : scalar? first rest = some (char, extra)) :
    encodeChar char ++ rest.drop extra = first :: rest := by
  have sameFirst : first.toNat.toUInt8 = first := by
    rw [Nat.toUInt8_eq, UInt8.ofNat_toNat]
  unfold scalar? at read
  simp only at read
  unfold encodeChar
  split at read
  next ascii =>
    have code : (Char.ofNat first.toNat).toNat = first.toNat := by
      rw [Char.ofNat, dif_pos (Or.inl (by omega))]
      rfl
    cases read
    simp only [code, if_pos ascii, sameFirst, List.drop_zero, List.singleton_append]
  next =>
    split at read
    next => cases read
    next =>
      split at read
      next =>
        obtain ⟨_, continued, code, inRange, rfl⟩ := continuations?_of_sequence? read
        obtain ⟨low, _, following, rfl, small, ended, rfl⟩ := cons_of_continuations? continued
        cases ended
        have leadByte : 0xC0 + char.toNat / 64 = first.toNat := by omega
        have lowByte : char.toNat % 64 = low := by omega
        simp only [leadByte, lowByte, sameFirst]
        rw [if_neg (by omega), if_pos (by omega)]
        rfl
      next =>
        split at read
        next =>
          obtain ⟨_, continued, code, inRange, rfl⟩ := continuations?_of_sequence? read
          obtain ⟨high, _, _, rfl, highSmall, others, rfl⟩ := cons_of_continuations? continued
          obtain ⟨low, _, following, rfl, small, ended, rfl⟩ := cons_of_continuations? others
          cases ended
          have leadByte : 0xE0 + char.toNat / 4096 = first.toNat := by omega
          have highByte : char.toNat / 64 % 64 = high := by omega
          have lowByte : char.toNat % 64 = low := by omega
          simp only [leadByte, highByte, lowByte, sameFirst]
          rw [if_neg (by omega), if_neg (by omega), if_pos (by omega)]
          rfl
        next =>
          split at read
          next =>
            obtain ⟨_, continued, code, inRange, rfl⟩ := continuations?_of_sequence? read
            obtain ⟨high, _, _, rfl, highSmall, others, rfl⟩ := cons_of_continuations? continued
            obtain ⟨middle, _, _, rfl, middleSmall, last, rfl⟩ := cons_of_continuations? others
            obtain ⟨low, _, following, rfl, small, ended, rfl⟩ := cons_of_continuations? last
            cases ended
            have leadByte : 0xF0 + char.toNat / 262144 = first.toNat := by omega
            have highByte : char.toNat / 4096 % 64 = high := by omega
            have middleByte : char.toNat / 64 % 64 = middle := by omega
            have lowByte : char.toNat % 64 = low := by omega
            simp only [leadByte, highByte, middleByte, lowByte, sameFirst]
            rw [if_neg (by omega), if_neg (by omega), if_neg (by omega)]
            rfl
          next => cases read

/-- Well-formed bytes are those of characters, from where the skipped ones end. -/
theorem exists_encode_of_wellFormedAfter
    {skip : Nat}
    {bytes : List UInt8}
    (wellFormed : wellFormedAfter skip bytes = true) :
    ∃ chars, encode chars = bytes.drop skip := by
  fun_induction wellFormedAfter skip bytes with
  | case1 => exact ⟨[], by simp [encode]⟩
  | case2 skip byte rest inductionHypothesis => exact inductionHypothesis wellFormed
  | case3 first rest char extra read inductionHypothesis =>
      obtain ⟨chars, written⟩ := inductionHypothesis wellFormed
      refine ⟨char :: chars, ?_⟩
      rw [encode, List.flatMap_cons, ← encode, written, encodeChar_of_scalar? read, List.drop_zero]
  | case4 => cases wellFormed

/-- The well-formed bytes are those of characters. -/
theorem isWellFormed_iff
    {bytes : List UInt8} :
    isWellFormed bytes = true ↔ ∃ chars, encode chars = bytes := by
  constructor
  · exact exists_encode_of_wellFormedAfter
  · rintro ⟨chars, rfl⟩
    exact isWellFormed_encode chars

/-- Well-formed bytes are what the text read from them is written as. -/
theorem encode_decode
    {bytes : List UInt8}
    (wellFormed : isWellFormed bytes = true) :
    encode (decode bytes) = bytes := by
  obtain ⟨chars, rfl⟩ := isWellFormed_iff.mp wellFormed
  rw [decode_encode]

/-- Well-formed chunks are well formed together. -/
theorem isWellFormed_flatten
    {chunks : List (List UInt8)}
    (wellFormed : chunks.all isWellFormed = true) :
    isWellFormed chunks.flatten = true := by
  induction chunks with
  | nil => rfl
  | cons chunk chunks inductionHypothesis =>
      rw [List.all_cons, Bool.and_eq_true] at wellFormed
      obtain ⟨chars, written⟩ := isWellFormed_iff.mp wellFormed.1
      obtain ⟨others, othersWritten⟩ := isWellFormed_iff.mp (inductionHypothesis wellFormed.2)
      refine isWellFormed_iff.mpr ⟨chars ++ others, ?_⟩
      rw [List.flatten_cons, ← written, ← othersWritten, encode, encode, encode,
        List.flatMap_append]

end Reckon.Text
