import Reckon.Cbor.Field
import Reckon.Proofs.Cbor.RoundTrip

namespace Reckon.Cbor

/-!
# Fields of written records

What each kind of field reads from the item that is written for it, and how long the items are.
-/

/-! ### Reading fields -/

/-- A record is read as its fields, each with its number for a key. -/
theorem recordField?_record
    (fields : List (Nat × Item)) :
    recordField? (some (.record fields)) =
      some (fields.map fun field => (.unsigned field.1, field.2)) := by
  have keys :
      (fields.map fun field => (Item.unsigned field.1, field.2)).all
          (fun entry => isKey entry.1) = true := by
    simp [isKey, keyNumber?]
  simp only [recordField?, field?, Item.record, untag?, isNull, Option.bind_eq_bind,
    Option.bind_some, Bool.false_eq_true, keys, ↓reduceIte]

theorem bmod_natCast
    {value modulus : Nat}
    (small : value * 2 < modulus) :
    Int.bmod value modulus = value := by
  apply Int.bmod_eq_of_le_mul_two <;> omega

/-- A small number is the number of its key. -/
theorem keyNumber?_unsigned
    {value : Nat}
    (small : value < 2 ^ 63) :
    keyNumber? (.unsigned value) = some (value : Int) := by
  have unwrapped : Int.bmod value 0x10000000000000000 = value := bmod_natCast (by omega)
  rw [keyNumber?, unwrapped]

/--
A key is that of a number if it is the number.  This settles the test of a key before a search is
opened, so the wrapping of a key that is not a literal is never evaluated.
-/
theorem keyIs_unsigned
    {value : Nat}
    (small : value < 2 ^ 63)
    (number : Nat) :
    keyIs number (.unsigned value) = (number == value) := by
  have byNumber :
      keyIs number (.unsigned value) =
        (keyNumber? (.unsigned value) == some (number : Int)) := by
    rw [keyIs]
    simp
  rw [byNumber, keyNumber?_unsigned small]
  by_cases same : number = value
  · simp [same]
  · have otherNumber : (value : Int) ≠ number := by
      omega
    simp [same, otherNumber]

section Lookup

variable
  {key number : Nat}
  (item : Item)
  (rest : List (Item × Item))

/-- A field is found at its own number. -/
theorem find?_same
    (small : key < 2 ^ 63) :
    find? ((.unsigned key, item) :: rest) key = some item := by
  have found : keyIs key (.unsigned key) = true := by
    rw [keyIs_unsigned small, beq_self_eq_true]
  rw [find?, List.find?_cons_of_pos (by exact found), Option.map_some]

/-- A field is passed over at any other number. -/
theorem find?_other
    (small : key < 2 ^ 63)
    (other : number ≠ key) :
    find? ((.unsigned key, item) :: rest) number = find? rest number := by
  have passed : ¬ keyIs number (.unsigned key) = true := by
    rw [keyIs_unsigned small, beq_iff_eq]
    exact other
  rw [find?, List.find?_cons_of_neg (by exact passed), find?]

end Lookup

/-- Fields are numbered if all of their numbers are small. -/
theorem numbered_of_map_fst
    {fields : List (Nat × Item)}
    {numbers : List Nat}
    (numbersShape : fields.map Prod.fst = numbers)
    (small : ∀ number ∈ numbers, number < 2 ^ 63) :
    ∀ field ∈ fields, field.1 < 2 ^ 63 := by
  intro field member
  apply small
  rw [← numbersShape]
  exact List.mem_map_of_mem member

/-- A field of a record whose numbers do not wrap is looked up as in a table. -/
theorem find?_record
    {fields : List (Nat × Item)}
    (numbered : ∀ field ∈ fields, field.1 < 2 ^ 63)
    (number : Nat) :
    find? (fields.map fun field => (.unsigned field.1, field.2)) number =
      fields.lookup number := by
  induction fields with
  | nil => rfl
  | cons field fields inductionHypothesis =>
      obtain ⟨key, item⟩ := field
      have small : key < 2 ^ 63 := numbered (key, item) List.mem_cons_self
      have others :=
        inductionHypothesis fun field member => numbered field (List.mem_cons_of_mem _ member)
      rw [List.map_cons]
      by_cases same : number = key
      · subst same
        rw [find?_same item _ small, List.lookup_cons_self]
      · rw [find?_other item _ small same, others, List.lookup_cons, beq_false_of_ne same]

/-- A text is read back from its bytes. -/
theorem textField?_text
    (chars : List Char) :
    textField? (some (.text [Text.encode chars])) = some chars := by
  simp [textField?, field?, untag?, isNull, textContent?, Text.isWellFormed_encode,
    Text.decode_encode]

theorem whole?_int
    {value : Int}
    (least : -0x8000000000000000 ≤ value) :
    whole? (.int value) = some value := by
  cases value with
  | ofNat value => rfl
  | negSucc value =>
      have small : value < 0x8000000000000000 := by
        omega
      simp only [Item.int, whole?, small, ↓reduceIte]
      congr 1
      omega

/-- An integer within its bounds is read back. -/
theorem intField?_int
    {low high value : Int}
    (least : -0x8000000000000000 ≤ value)
    (atLeast : low ≤ value)
    (atMost : value ≤ high) :
    intField? low high (some (.int value)) = some value := by
  have plain : untag? (.int value) = some (.int value) ∧ isNull (.int value) = false := by
    cases value <;> exact ⟨rfl, rfl⟩
  simp [intField?, field?, plain, whole?_int least, atLeast, atMost]

theorem arrayField?_array
    {α : Type}
    (element? : Option Item → Option α)
    (items : List Item) :
    arrayField? element? (some (.array items)) = items.mapM fun item => element? (some item) :=
  rfl

/-! ### Writable records -/

/-- Integers of 64 bits can be written. -/
theorem writable_int
    {value : Int}
    (least : -0x8000000000000000 ≤ value)
    (greatest : value < 0x8000000000000000)
    (levels : Nat) :
    Writable levels (.int value) := by
  cases value with
  | ofNat value => exact .unsigned (by simp only [Int.ofNat_eq_natCast] at greatest; omega)
  | negSucc value => exact .negative (by omega)

/-- A record can be written if its fields are numbered, not too many and writable. -/
theorem writable_record
    {levels : Nat}
    {fields : List (Nat × Item)}
    (counted : fields.length ≤ maxItems)
    (numbered : ∀ field ∈ fields, field.1 < 2 ^ 63)
    (each : ∀ field ∈ fields, Writable levels field.2) :
    Writable (levels + 1) (.record fields) := by
  refine .map (by rwa [List.length_map]) ?_ ?_
  · intro entry member
    obtain ⟨field, fieldMember, rfl⟩ := List.mem_map.mp member
    exact .unsigned (Nat.lt_trans (numbered field fieldMember) (by decide))
  · intro entry member
    obtain ⟨field, fieldMember, rfl⟩ := List.mem_map.mp member
    exact each field fieldMember

/-! ### Lengths -/

/-- A head takes at most nine bytes. -/
theorem length_head_le
    (major argument : Nat) :
    (head major argument).length ≤ 9 := by
  unfold head
  simp only
  split
  · exact Nat.le_add_left 1 8
  all_goals
    repeat' split
    all_goals
      simp only [List.length_cons, length_bigEndian]
      omega

theorem length_encodeFloat_le
    (number : Float) :
    (encodeFloat number).length ≤ 9 := by
  unfold encodeFloat
  repeat' split
  all_goals
    simp only [List.length_cons, length_bigEndian]
    omega

theorem length_encode_int_le
    (value : Int) :
    (Item.int value).encode.length ≤ 9 := by
  cases value <;> exact length_head_le _ _

/-- Items of bounded lengths take as many bytes together, times their number. -/
theorem length_encodeItems_le
    {items : List Item}
    {bound : Nat}
    (each : ∀ item ∈ items, item.encode.length ≤ bound) :
    (encodeItems items).length ≤ items.length * bound := by
  induction items with
  | nil => exact Nat.zero_le _
  | cons item items inductionHypothesis =>
      have first := each item List.mem_cons_self
      have others :=
        inductionHypothesis fun item member => each item (List.mem_cons_of_mem _ member)
      rw [encodeItems, List.length_append, List.length_cons, Nat.succ_mul]
      omega

/-- A record takes a head for itself and for each key, and the bytes of its values. -/
theorem length_encode_record_le
    (fields : List (Nat × Item)) :
    (Item.record fields).encode.length ≤
      9 + (fields.map fun field => 9 + field.2.encode.length).sum := by
  have entries :
      (encodeEntries (fields.map fun field => (.unsigned field.1, field.2))).length ≤
        (fields.map fun field => 9 + field.2.encode.length).sum := by
    induction fields with
    | nil => exact Nat.le_refl 0
    | cons field fields inductionHypothesis =>
        have key := length_head_le 0 field.1
        simp only [List.map_cons, encodeEntries, List.length_append, List.sum_cons, Item.encode]
        omega
  have lead := length_head_le 5 (fields.map fun field => (Item.unsigned field.1, field.2)).length
  rw [Item.record, Item.encode, List.length_append]
  omega

end Reckon.Cbor
