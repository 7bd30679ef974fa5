import Reckon.Cbor.Encode
import Reckon.Cbor.Read
import Reckon.Proofs.Cbor.Narrowing
import Reckon.Proofs.Text.Utf8

namespace Reckon.Cbor

/-!
# Items survive as bytes

`Writable` tells the items that reading gets back from what they are written as: their arguments
fit the head, their arrays and maps hold and nest no more than a reader allows, and none has a
tag.  Reading is stated with the bytes that follow, so that it composes along a sequence of items.
-/

/-! ### Heads -/

theorem length_bigEndian
    (count value : Nat) :
    (bigEndian count value).length = count := by
  induction count with
  | zero => rfl
  | succ count inductionHypothesis =>
      simp only [bigEndian, List.length_cons, inductionHypothesis]

/-- Big-endian bytes are the digits of a number in base 256. -/
theorem foldl_bigEndian
    (count value above : Nat) :
    (bigEndian count value).foldl (fun value byte => value * 256 + byte.toNat) above =
      above * 256 ^ count + value % 256 ^ count := by
  induction count generalizing above with
  | zero =>
      simp only [bigEndian, List.foldl_nil, Nat.pow_zero, Nat.mul_one, Nat.mod_one, Nat.add_zero]
  | succ count inductionHypothesis =>
      have digit : (value / 256 ^ count % 256).toUInt8.toNat = value / 256 ^ count % 256 :=
        Text.toNat_toUInt8 (Nat.mod_lt _ (by decide))
      rw [bigEndian, List.foldl_cons, inductionHypothesis, Nat.pow_eq, digit, Nat.mod_pow_succ]
      ring

/-- A number that fits is read back from its big-endian bytes. -/
theorem ofBigEndian_bigEndian
    {count value : Nat}
    (bounded : value < 256 ^ count) :
    ofBigEndian (bigEndian count value) = value := by
  rw [ofBigEndian, foldl_bigEndian, Nat.mod_eq_of_lt bounded, Nat.zero_mul, Nat.zero_add]

/-- As many bytes are taken as are asked for. -/
theorem takeBytes?_append
    (content rest : List UInt8) :
    takeBytes? content.length (content ++ rest) = some (content, rest) := by
  simp [takeBytes?]

/-- An argument is read back from its big-endian bytes. -/
theorem readArgument?_bigEndian
    {count value : Nat}
    (bounded : value < 256 ^ count)
    (major info : Nat)
    (rest : List UInt8) :
    readArgument? major info count (bigEndian count value ++ rest) =
      some ({ major := major, info := info, argument := value }, rest) := by
  have taken := takeBytes?_append (bigEndian count value) rest
  rw [length_bigEndian] at taken
  simp only [readArgument?, taken, ofBigEndian_bigEndian bounded, Option.bind_eq_bind,
    Option.bind_some]

section Heads

variable
  {major info argument : Nat}
  (rest : List UInt8)

/-- The major type and the short count are read back from the lead byte. -/
theorem toNat_lead
    (majorSmall : major < 8)
    (infoSmall : info < 32) :
    (major * 32 + info).toUInt8.toNat / 32 = major ∧
      (major * 32 + info).toUInt8.toNat % 32 = info := by
  rw [Text.toNat_toUInt8 (by omega)]
  constructor <;> omega

/-- A head with a short count is read back from one byte. -/
theorem readHead?_short
    (majorSmall : major < 8)
    (short : info < 24) :
    readHead? ((major * 32 + info).toUInt8 :: rest) =
      some ({ major := major, info := info, argument := info }, rest) := by
  obtain ⟨majorOf, infoOf⟩ := toNat_lead majorSmall (Nat.lt_trans short (by decide))
  simp only [readHead?, majorOf, infoOf, short, ↓reduceIte]

/-- A head with a longer argument is read back from its lead byte and the bytes of the argument. -/
theorem readHead?_wide
    {count : Nat}
    (majorSmall : major < 8)
    (wide : (info, count) ∈ [(24, 1), (25, 2), (26, 4), (27, 8)])
    (notSimple : major = 7 → info ≠ 24)
    (bounded : argument < 256 ^ count) :
    readHead? ((major * 32 + info).toUInt8 :: (bigEndian count argument ++ rest)) =
      some ({ major := major, info := info, argument := argument }, rest) := by
  have infoSmall : info < 32 := by
    simp only [List.mem_cons, Prod.mk.injEq, List.not_mem_nil, or_false] at wide
    omega
  obtain ⟨majorOf, infoOf⟩ := toNat_lead majorSmall infoSmall
  simp only [readHead?, majorOf, infoOf]
  simp only [List.mem_cons, Prod.mk.injEq, List.not_mem_nil, or_false] at wide
  rcases wide with ⟨rfl, rfl⟩ | ⟨rfl, rfl⟩ | ⟨rfl, rfl⟩ | ⟨rfl, rfl⟩
  · have otherMajor : major ≠ 7 := fun isSimple => notSimple isSimple rfl
    simp [readArgument?_bigEndian bounded, otherMajor]
  · exact readArgument?_bigEndian bounded major 25 rest
  · exact readArgument?_bigEndian bounded major 26 rest
  · exact readArgument?_bigEndian bounded major 27 rest

/-- The head of anything but a simple value reads as what it was written for. -/
theorem readHead?_head
    (notSimple : major < 7)
    (bounded : argument < 2 ^ 64) :
    ∃ info,
      info ≠ 31 ∧
        readHead? (head major argument ++ rest) =
          some ({ major := major, info := info, argument := argument }, rest) := by
  have majorSmall : major < 8 := by
    omega
  have wide
      {info count : Nat}
      (format : (info, count) ∈ [(24, 1), (25, 2), (26, 4), (27, 8)])
      (fits : argument < 256 ^ count) :=
    readHead?_wide rest majorSmall format (fun isSimple => by omega) fits
  unfold head
  simp only
  split
  next short =>
    exact ⟨argument, by omega, readHead?_short rest majorSmall short⟩
  next =>
    split
    next oneByte =>
      exact ⟨24, by decide, wide (by decide) oneByte⟩
    next =>
      split
      next twoBytes =>
        exact ⟨25, by decide, wide (by decide) twoBytes⟩
      next =>
        split
        next fourBytes =>
          exact ⟨26, by decide, wide (by decide) fourBytes⟩
        next =>
          exact ⟨27, by decide, wide (by decide) bounded⟩

end Heads

/-! ### Floating-point numbers -/

/-- The head of a float holds the float. -/
theorem readHead?_encodeFloat
    (number : Float)
    (rest : List UInt8) :
    ∃ found,
      readHead? (encodeFloat number ++ rest) = some (found, rest) ∧
        found.major = 7 ∧ primitive found = .float number := by
  have half {bits : Nat} (bounded : bits < 0x10000) :=
    @readHead?_wide 7 25 bits rest 2 (by decide) (by decide) (by decide) bounded
  unfold encodeFloat
  split
  next shaped =>
    refine ⟨_, half (by decide), rfl, ?_⟩
    rw [Binary64.eq_nan_of_shape shaped]
    rfl
  next negative shaped =>
    rw [Binary64.eq_infinity_of_shape shaped]
    cases negative with
    | false => exact ⟨_, half (by decide), rfl, rfl⟩
    | true => exact ⟨_, half (by decide), rfl, rfl⟩
  next negative significand exponent shaped =>
    split
    next bits narrowed =>
      obtain ⟨widened, bounded⟩ :=
        FloatFormat.half.widen_of_narrow? (by decide) shaped narrowed
      refine ⟨_, half bounded, rfl, ?_⟩
      simp only [primitive, ↓reduceIte, widened]
    next =>
      split
      next bits narrowed =>
        obtain ⟨widened, bounded⟩ :=
          FloatFormat.single.widen_of_narrow? (by decide) shaped narrowed
        refine
          ⟨_,
            @readHead?_wide 7 26 bits rest 4 (by decide) (by decide) (by decide) bounded,
            rfl,
            ?_⟩
        simp [primitive, widened]
      next =>
        refine
          ⟨_,
            @readHead?_wide 7 27 _ rest 8 (by decide) (by decide) (by decide)
              number.toBits.toNat_lt,
            rfl,
            ?_⟩
        simp [primitive]

/-! ### Items -/

/-- The item comes back from its bytes where arrays and maps may nest to the given depth. -/
inductive Writable : Nat → Item → Prop
  | unsigned {levels value : Nat} :
      value < 2 ^ 64 →
      Writable levels (.unsigned value)
  | negative {levels value : Nat} :
      value < 2 ^ 64 →
      Writable levels (.negative value)
  | bytes {levels : Nat} {content : List UInt8} :
      content.length < 2 ^ 64 →
      Writable levels (.bytes content)
  | text {levels : Nat} {content : List UInt8} :
      content.length < 2 ^ 64 →
      Writable levels (.text [content])
  | array {levels : Nat} {items : List Item} :
      items.length ≤ maxItems →
      (∀ item ∈ items, Writable levels item) →
      Writable (levels + 1) (.array items)
  | map {levels : Nat} {entries : List (Item × Item)} :
      entries.length ≤ maxItems →
      (∀ entry ∈ entries, Writable levels entry.1) →
      (∀ entry ∈ entries, Writable levels entry.2) →
      Writable (levels + 1) (.map entries)
  | simple {levels code : Nat} :
      code < 24 →
      Writable levels (.simple code)
  | float {levels : Nat} {number : Float} :
      Writable levels (.float number)

/-- Keys and values by turns. -/
def interleave (entries : List (Item × Item)) : List Item :=
  entries.flatMap fun entry => [entry.1, entry.2]

/-- Entries are written as their keys and values in turn. -/
theorem encodeEntries_eq
    (entries : List (Item × Item)) :
    encodeEntries entries = encodeItems (interleave entries) := by
  induction entries with
  | nil => rfl
  | cons entry entries inductionHypothesis =>
      simp only [encodeEntries, interleave, List.flatMap_cons, List.cons_append, List.nil_append,
        encodeItems, List.append_assoc] at inductionHypothesis ⊢
      rw [inductionHypothesis]

theorem length_interleave
    (entries : List (Item × Item)) :
    (interleave entries).length = entries.length * 2 := by
  induction entries with
  | nil => rfl
  | cons entry entries inductionHypothesis =>
      rw [List.length_cons, Nat.succ_mul, ← inductionHypothesis]
      rfl

/-- Keys and values in turn are paired up again. -/
theorem pairUp?_interleave
    (entries : List (Item × Item)) :
    pairUp? (interleave entries) = some entries := by
  induction entries with
  | nil => rfl
  | cons entry entries inductionHypothesis =>
      simp only [interleave, List.flatMap_cons, List.cons_append, List.nil_append, pairUp?]
        at inductionHypothesis ⊢
      simp [inductionHypothesis]

/-- A reader that gets each of some items back gets their sequence back. -/
theorem readMany?_encodeItems
    (read? : Reader)
    (items : List Item)
    (each : ∀ item ∈ items, ∀ rest, read? (item.encode ++ rest) = some (item, rest))
    (rest : List UInt8) :
    readMany? read? items.length (encodeItems items ++ rest) = some (items, rest) := by
  induction items with
  | nil => rfl
  | cons item items inductionHypothesis =>
      have first := each item List.mem_cons_self (encodeItems items ++ rest)
      have others :=
        inductionHypothesis fun item member => each item (List.mem_cons_of_mem _ member)
      simp only [encodeItems, List.append_assoc, List.length_cons, readMany?, first, others,
        Option.bind_eq_bind, Option.bind_some]

/-- A string is read back from its bytes. -/
theorem readString?_content
    {info major : Nat}
    (definite : info ≠ 31)
    (content rest : List UInt8) :
    readString? { major := major, info := info, argument := content.length } (content ++ rest) =
      some ([content], rest) := by
  simp only [readString?, definite, ↓reduceIte, takeBytes?_append, Option.bind_eq_bind,
    Option.bind_some]

/-- The content of an array or a map is read back, if each of its items is. -/
theorem readContent?_encodeItems
    {info major count each : Nat}
    (definite : info ≠ 31)
    (read? : Reader)
    {items : List Item}
    (bounded : count ≤ maxItems)
    (counted : items.length = count * each)
    (back : ∀ item ∈ items, ∀ rest, read? (item.encode ++ rest) = some (item, rest))
    (rest : List UInt8) :
    readContent? read? { major := major, info := info, argument := count } each
        (encodeItems items ++ rest) =
      some (items, rest) := by
  simp only [readContent?, definite, bounded, ↓reduceIte, ← counted]
  exact readMany?_encodeItems read? items back rest

/--
Reading an item back, with what follows it left over.  The items inside an array or a map are read
with one step and one level less.
-/
theorem Writable.readItem?_encode
    {steps levels : Nat}
    {item : Item}
    (writable : Writable levels item)
    (enough : levels < steps)
    (rest : List UInt8) :
    readItem? steps levels (item.encode ++ rest) = some (item, rest) := by
  induction steps generalizing levels item rest with
  | zero => exact absurd enough (Nat.not_lt_zero levels)
  | succ steps inductionHypothesis =>
      cases writable with
      | unsigned bounded =>
          obtain ⟨info, _, read⟩ := readHead?_head rest (show 0 < 7 by decide) bounded
          simp [Item.encode, readItem?, read]
      | negative bounded =>
          obtain ⟨info, _, read⟩ := readHead?_head rest (show 1 < 7 by decide) bounded
          simp [Item.encode, readItem?, read]
      | @bytes _ content bounded =>
          obtain ⟨info, definite, read⟩ :=
            readHead?_head (content ++ rest) (show 2 < 7 by decide) bounded
          simp [Item.encode, readItem?, read, readString?_content definite]
      | @text _ content bounded =>
          obtain ⟨info, definite, read⟩ :=
            readHead?_head (content ++ rest) (show 3 < 7 by decide) bounded
          simp [Item.encode, readItem?, read, readString?_content definite]
      | @array levels items bounded each =>
          have inHead : items.length < 2 ^ 64 := Nat.lt_of_le_of_lt bounded (by decide)
          obtain ⟨info, definite, read⟩ :=
            readHead?_head (encodeItems items ++ rest) (show 4 < 7 by decide) inHead
          have content :=
            @readContent?_encodeItems info 4 items.length 1 definite (readItem? steps levels)
              items bounded (Nat.mul_one _).symm
              (fun item member => inductionHypothesis (each item member) (by omega))
              rest
          simp [Item.encode, readItem?, read, content]
      | @map levels entries bounded keys values =>
          have inHead : entries.length < 2 ^ 64 := Nat.lt_of_le_of_lt bounded (by decide)
          obtain ⟨info, definite, read⟩ :=
            readHead?_head (encodeEntries entries ++ rest) (show 5 < 7 by decide) inHead
          have back :
              ∀ item ∈ interleave entries,
                ∀ rest, readItem? steps levels (item.encode ++ rest) = some (item, rest) := by
            intro item member
            simp only [interleave, List.mem_flatMap, List.mem_cons, List.not_mem_nil,
              or_false] at member
            obtain ⟨entry, entryMember, rfl | rfl⟩ := member
            · exact inductionHypothesis (keys entry entryMember) (by omega)
            · exact inductionHypothesis (values entry entryMember) (by omega)
          have content :=
            @readContent?_encodeItems info 5 entries.length 2 definite (readItem? steps levels)
              (interleave entries) bounded (length_interleave entries) back rest
          rw [encodeEntries_eq] at read
          simp [Item.encode, encodeEntries_eq, readItem?, read, content, pairUp?_interleave]
      | @simple _ code short =>
          have written : (Item.simple code).encode = [(7 * 32 + code).toUInt8] := by
            simp only [Item.encode, head, short, ↓reduceIte]
          have notWide : code ≠ 25 ∧ code ≠ 26 ∧ code ≠ 27 := by
            omega
          rw [written, List.singleton_append]
          simp only [readItem?, readHead?_short rest (show 7 < 8 by decide) short]
          simp [primitive, notWide]
      | @float _ number =>
          obtain ⟨⟨major, info, argument⟩, read, isSimple, primitiveShape⟩ :=
            readHead?_encodeFloat number rest
          cases isSimple
          simp [Item.encode, readItem?, read, primitiveShape]

/-- A writable item is read back from its bytes. -/
theorem Writable.decode?_encode
    {item : Item}
    (writable : Writable maxLevels item) :
    Item.decode? item.encode = some item := by
  have read := writable.readItem?_encode (show maxLevels < 2 * maxLevels + 2 by decide) []
  rw [List.append_nil] at read
  simp [Item.decode?, read]

end Reckon.Cbor
