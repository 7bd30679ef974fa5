import Reckon.Bytecode.Image
import Reckon.Proofs.Cbor.Records
import Reckon.Proofs.Value.Results
import Reckon.Proofs.Value.Zeros

namespace Reckon

/-!
# Constants in images

A truth value or a number comes back from its record, except that a zero has no sign any more: a
field that holds a zero of either sign is left out, and a field that is left out reads as the
positive zero.
-/

namespace Image

open Cbor

/-- A field for a double gives the double without the sign of a zero. -/
theorem floatField?_lookup
    (number : Nat)
    (value : Float)
    {rest : List (Nat × Item)}
    (last : rest.lookup number = none) :
    floatField? ((floatEntry number value ++ rest).lookup number) =
      some (Binary64.dropZeroSign value) := by
  unfold floatEntry Binary64.dropZeroSign
  split
  · rw [List.nil_append, last]
    rfl
  · rw [List.singleton_append, List.lookup_cons_self]
    rfl

/-- The entry of a float hides no other field. -/
theorem lookup_floatEntry_of_ne
    {number other : Nat}
    (different : other ≠ number)
    (value : Float)
    (rest : List (Nat × Item)) :
    (floatEntry number value ++ rest).lookup other = rest.lookup other := by
  unfold floatEntry
  split
  · rfl
  · rw [List.singleton_append, List.lookup_cons, beq_false_of_ne different]

/-- What the record of a constant reads as. -/
structure Represents (constant : Value) (item : Item) (fields : ConstantFields) : Prop where
  written : constantItem? constant = some item
  writable : ∀ levels, Writable (levels + 1) item
  short : item.encode.length ≤ 63
  read : constantField? (some item) = some fields
  value : constantValue? fields = some constant.dropZeroSigns

/-- An item that holds no others, and takes no more bytes than a head. -/
def IsLeaf (item : Item) : Prop :=
  (∀ levels, Writable levels item) ∧ item.encode.length ≤ 9

theorem isLeaf_float
    (number : Float) :
    IsLeaf (.float number) :=
  ⟨fun _ => .float, length_encodeFloat_le number⟩

/-- A record that begins with the kind of a constant and goes on with leaves, field by field. -/
theorem Represents.of_fields
    {constant : Value}
    {code : Nat}
    {more : List (Nat × Item)}
    {found : ConstantFields}
    (written : constantItem? constant = some (.record ((1, .unsigned code) :: more)))
    (kind : byteField? (some (.unsigned code)) = some found.kind)
    (small : code < 2 ^ 64)
    (few : more.length ≤ 2)
    (leaves : ∀ field ∈ more, field.1 < 2 ^ 63 ∧ IsLeaf field.2)
    (bool : boolField? (more.lookup 2) = some found.bool)
    (int : intField? (-0x80000000) 0x7FFFFFFF (more.lookup 3) = some found.int)
    (real : floatField? (more.lookup 4) = some found.real)
    (imag : floatField? (more.lookup 5) = some found.imag)
    (value : constantValue? found = some constant.dropZeroSigns) :
    Represents constant (.record ((1, .unsigned code) :: more)) found := by
  have allLeaves :
      ∀ field ∈ (1, Item.unsigned code) :: more, field.1 < 2 ^ 63 ∧ IsLeaf field.2 := by
    intro field member
    rcases List.mem_cons.mp member with rfl | inMore
    · exact ⟨Nat.one_lt_two_pow (by decide), fun _ => .unsigned small, length_head_le 0 code⟩
    · exact leaves field inMore
  have numbered := fun field member => (allLeaves field member).1
  refine ⟨written, fun levels => ?_, ?_, ?_, value⟩
  · refine writable_record (Nat.le_trans (Nat.succ_le_succ few) (by decide)) numbered ?_
    intro field member
    exact (allLeaves field member).2.1 levels
  · have whole := length_encode_record_le ((1, .unsigned code) :: more)
    have summed :=
      List.sum_le_card_nsmul
        (((1, Item.unsigned code) :: more).map fun field => 9 + field.2.encode.length)
        18
        (by
          intro length member
          obtain ⟨field, fieldMember, rfl⟩ := List.mem_map.mp member
          exact Nat.add_le_add_left (allLeaves field fieldMember).2.2 9)
    rw [List.length_map, List.length_cons, smul_eq_mul] at summed
    omega
  · have others {number : Nat} (notKind : number ≠ 1) :
        ((1, Item.unsigned code) :: more).lookup number = more.lookup number := by
      rw [List.lookup_cons, beq_false_of_ne notKind]
    rw [constantField?, recordField?_record]
    simp only [Option.bind_eq_bind, Option.bind_some, find?_record numbered,
      List.lookup_cons_self, others (show 2 ≠ 1 by decide), others (show 3 ≠ 1 by decide),
      others (show 4 ≠ 1 by decide), others (show 5 ≠ 1 by decide), kind, bool, int, real, imag]

/-- The entry of a float is numbered and holds a leaf. -/
theorem leaves_floatEntry
    {number : Nat}
    (small : number < 2 ^ 63)
    (value : Float) :
    ∀ field ∈ floatEntry number value, field.1 < 2 ^ 63 ∧ IsLeaf field.2 := by
  intro field member
  unfold floatEntry at member
  split at member
  · cases member
  · rw [List.mem_singleton.mp member]
    exact ⟨small, isLeaf_float value⟩

theorem length_floatEntry_le
    (number : Nat)
    (value : Float) :
    (floatEntry number value).length ≤ 1 := by
  unfold floatEntry
  split
  · exact Nat.zero_le 1
  · exact Nat.le_refl 1

theorem exists_represents_bool
    (truth : Bool) :
    ∃ item fields, Represents (.bool truth) item fields := by
  cases truth with
  | false =>
      exact
        ⟨_, { kind := 1, bool := false, int := 0, real := 0, imag := 0 },
          .of_fields rfl rfl (by decide) (by decide) (by simp) rfl rfl rfl rfl rfl⟩
  | true =>
      refine
        ⟨_, { kind := 1, bool := true, int := 0, real := 0, imag := 0 },
          .of_fields rfl rfl (by decide) (by decide) ?_ rfl rfl rfl rfl rfl⟩
      intro field member
      rw [List.mem_singleton.mp member]
      exact ⟨by decide, fun _ => .simple (by decide), length_head_le 7 21⟩

theorem exists_represents_integer
    (number : Int32) :
    ∃ item fields, Represents (.integer number) item fields := by
  have least := number.le_toInt
  have greatest := number.toInt_lt
  by_cases isZero : number = 0
  · subst isZero
    exact
      ⟨_, { kind := 2, bool := false, int := 0, real := 0, imag := 0 },
        .of_fields rfl rfl (by decide) (by decide) (by simp) rfl rfl rfl rfl rfl⟩
  · have written :
        constantItem? (.integer number) =
          some (.record ((1, .unsigned 2) :: [(3, .int number.toInt)])) := by
      simp only [constantItem?, isZero, ↓reduceIte]
    have read :
        intField? (-0x80000000) 0x7FFFFFFF (some (.int number.toInt)) = some number.toInt :=
      intField?_int (by omega) (by omega) (by omega)
    refine
      ⟨_, { kind := 2, bool := false, int := number.toInt, real := 0, imag := 0 },
        .of_fields written rfl (by decide) (by simp) ?_ rfl read rfl rfl ?_⟩
    · intro field member
      rw [List.mem_singleton.mp member]
      exact
        ⟨show 3 < 2 ^ 63 by decide,
          writable_int (by omega) (by omega),
          length_encode_int_le number.toInt⟩
    · simp [constantValue?, Kind.ofCode, Value.dropZeroSigns]

theorem exists_represents_float
    (number : Float) :
    ∃ item fields, Represents (.float number) item fields := by
  have written :
      constantItem? (.float number) =
        some (.record ((1, .unsigned 3) :: (floatEntry 4 number ++ []))) := by
    rw [List.append_nil]
    rfl
  have others {field : Nat} (other : field ≠ 4) :
      (floatEntry 4 number ++ []).lookup field = none :=
    lookup_floatEntry_of_ne other number []
  refine
    ⟨_,
      { kind := 3
        bool := false
        int := 0
        real := Binary64.dropZeroSign number
        imag := 0 },
      .of_fields written rfl (by decide) ?_ ?_ ?_ ?_ (floatField?_lookup 4 number rfl) ?_ rfl⟩
  · rw [List.append_nil]
    exact Nat.le_trans (length_floatEntry_le 4 number) (by decide)
  · rw [List.append_nil]
    exact leaves_floatEntry (by decide) number
  all_goals
    rw [others (by decide)]
    rfl

/--
Complex numbers have items and fields.  The real part may be left out, and the imaginary part is
found behind it either way.
-/
theorem exists_represents_complex
    (number : Complex) :
    ∃ item fields, Represents (.complex number) item fields := by
  have written :
      constantItem? (.complex number) =
        some
          (.record
            ((1, .unsigned 4) ::
              (floatEntry 4 number.re ++ (floatEntry 5 number.im ++ [])))) := by
    rw [List.append_nil]
    rfl
  have neither {field : Nat} (notReal : field ≠ 4) (notImag : field ≠ 5) :
      (floatEntry 4 number.re ++ (floatEntry 5 number.im ++ [])).lookup field = none := by
    rw [lookup_floatEntry_of_ne notReal, lookup_floatEntry_of_ne notImag]
    rfl
  have noReal : (floatEntry 5 number.im ++ []).lookup 4 = none :=
    lookup_floatEntry_of_ne (by decide) number.im []
  refine
    ⟨_,
      { kind := 4
        bool := false
        int := 0
        real := Binary64.dropZeroSign number.re
        imag := Binary64.dropZeroSign number.im },
      .of_fields written rfl (by decide) ?_ ?_ ?_ ?_ (floatField?_lookup 4 number.re noReal)
        ?_ rfl⟩
  · have realFew := length_floatEntry_le 4 number.re
    have imagFew := length_floatEntry_le 5 number.im
    rw [List.append_nil, List.length_append]
    omega
  · intro field member
    rw [List.append_nil] at member
    rcases List.mem_append.mp member with isReal | isImag
    · exact leaves_floatEntry (by decide) number.re field isReal
    · exact leaves_floatEntry (by decide) number.im field isImag
  · rw [neither (by decide) (by decide)]
    rfl
  · rw [neither (by decide) (by decide)]
    rfl
  · rw [lookup_floatEntry_of_ne (by decide)]
    exact floatField?_lookup 5 number.im rfl

/-- Every truth value and number has a record that reads as it, without the signs of zeros. -/
theorem exists_represents
    {constant : Value}
    (serializable : constant.IsData) :
    ∃ item fields, Represents constant item fields := by
  cases constant with
  | invalid => exact absurd serializable (by decide)
  | bool truth => exact exists_represents_bool truth
  | integer number => exact exists_represents_integer number
  | float number => exact exists_represents_float number
  | complex number => exact exists_represents_complex number
  | object handle => exact absurd rfl (serializable.ne_object handle)

/-- The records of constants and what they read as. -/
structure RepresentsAll
    (index : Nat)
    (constants : List Value)
    (items : List Item)
    (fields : List ConstantFields) : Prop where
  written : constantItems index constants = .ok items
  counted : items.length = constants.length
  writable : ∀ item ∈ items, ∀ levels, Writable (levels + 1) item
  short : ∀ item ∈ items, item.encode.length ≤ 63
  read : items.mapM (fun item => constantField? (some item)) = some fields
  values : constantValues index fields = .ok (constants.map Value.dropZeroSigns)

/-- Constants that are data have items and fields, one behind the other. -/
theorem exists_representsAll
    {constants : List Value}
    (serializable : ∀ constant ∈ constants, constant.IsData)
    (index : Nat) :
    ∃ items fields, RepresentsAll index constants items fields := by
  induction constants generalizing index with
  | nil => exact ⟨[], [], rfl, rfl, by simp, by simp, rfl, rfl⟩
  | cons constant constants inductionHypothesis =>
      obtain ⟨item, found, first⟩ := exists_represents (serializable constant List.mem_cons_self)
      obtain ⟨items, fields, others⟩ :=
        inductionHypothesis
          (fun constant member => serializable constant (List.mem_cons_of_mem _ member))
          (index + 1)
      refine ⟨item :: items, found :: fields, ?_, ?_, ?_, ?_, ?_, ?_⟩
      · simp only [constantItems, first.written, others.written]
        rfl
      · rw [List.length_cons, List.length_cons, others.counted]
      · rintro other member
        rcases List.mem_cons.mp member with rfl | inItems
        · exact first.writable
        · exact others.writable other inItems
      · rintro other member
        rcases List.mem_cons.mp member with rfl | inItems
        · exact first.short
        · exact others.short other inItems
      · simp only [List.mapM_cons, first.read, others.read, Option.bind_eq_bind, Option.bind_some,
          Option.pure_def]
      · simp only [constantValues, first.value, others.values]
        rfl

end Image

end Reckon
