import Reckon.Proofs.Cbor.Records
import Reckon.Proofs.Text.WellFormed

namespace Reckon.Cbor

/-!
# Bounds on what is read

Whatever the bytes are, an item that is read from them holds no string longer than they are, and
no array or map of more items than may be read.  The fields of records inherit these bounds.
-/

/-- No string of the item is longer than the limit, and no array or map is too long to be read. -/
inductive Bounded (limit : Nat) : Item → Prop
  | unsigned {value : Nat} :
      Bounded limit (.unsigned value)
  | negative {value : Nat} :
      Bounded limit (.negative value)
  | bytes {content : List UInt8} :
      content.length ≤ limit →
      Bounded limit (.bytes content)
  | text {chunks : List (List UInt8)} :
      chunks.flatten.length ≤ limit →
      Bounded limit (.text chunks)
  | array {items : List Item} :
      items.length ≤ maxItems →
      (∀ item ∈ items, Bounded limit item) →
      Bounded limit (.array items)
  | map {entries : List (Item × Item)} :
      entries.length ≤ maxItems →
      (∀ entry ∈ entries, Bounded limit entry.1) →
      (∀ entry ∈ entries, Bounded limit entry.2) →
      Bounded limit (.map entries)
  | tag {number : Nat} {content : Item} :
      Bounded limit content →
      Bounded limit (.tag number content)
  | simple {code : Nat} :
      Bounded limit (.simple code)
  | float {value : Float} :
      Bounded limit (.float value)

/-! ### Strings -/

/-- The bytes that are taken and those that are left are all of them. -/
theorem append_of_takeBytes?
    {count : Nat}
    {bytes taken rest : List UInt8}
    (read : takeBytes? count bytes = some (taken, rest)) :
    taken ++ rest = bytes := by
  unfold takeBytes? at read
  split at read
  next => cases read
  next =>
    cases read
    exact List.take_append_drop count bytes

theorem suffix_of_readArgument?
    {major info count : Nat}
    {bytes rest : List UInt8}
    {found : Head}
    (read : readArgument? major info count bytes = some (found, rest)) :
    rest <:+ bytes := by
  simp only [readArgument?, Option.bind_eq_bind, Option.bind_eq_some_iff, Option.some.injEq,
    Prod.mk.injEq, Prod.exists] at read
  obtain ⟨argument, remaining, taken, _, rfl⟩ := read
  exact ⟨argument, append_of_takeBytes? taken⟩

/-- Reading a head leaves the end of the bytes. -/
theorem suffix_of_readHead?
    {bytes rest : List UInt8}
    {found : Head}
    (read : readHead? bytes = some (found, rest)) :
    rest <:+ bytes := by
  cases bytes with
  | nil => cases read
  | cons first remaining =>
      apply List.IsSuffix.trans _ (List.suffix_cons first remaining)
      simp only [readHead?] at read
      split_ifs at read
      · cases read
        exact List.suffix_rfl
      · simp only [Option.bind_eq_bind, Option.bind_eq_some_iff, Prod.exists] at read
        obtain ⟨argument, remaining, taken, read⟩ := read
        split at read
        next => cases read
        next =>
          cases read
          exact suffix_of_readArgument? taken
      · exact suffix_of_readArgument? read
      · exact suffix_of_readArgument? read
      · exact suffix_of_readArgument? read
      · cases read
        exact List.suffix_rfl

/-- Chunks are no longer than the bytes that they are read from. -/
theorem length_of_readChunks?
    {major steps : Nat}
    {bytes rest : List UInt8}
    {chunks : List (List UInt8)}
    (read : readChunks? major steps bytes = some (chunks, rest)) :
    chunks.flatten.length + rest.length ≤ bytes.length := by
  induction steps generalizing bytes chunks with
  | zero => cases read
  | succ steps inductionHypothesis =>
      cases bytes with
      | nil => cases read
      | cons first following =>
          simp only [readChunks?] at read
          split at read
          next =>
            cases read
            simp
          next =>
            simp only [Option.bind_eq_bind, Option.bind_eq_some_iff, Prod.exists] at read
            obtain ⟨found, content, headed, read⟩ := read
            split at read
            next =>
              simp only [Option.bind_eq_some_iff, Option.some.injEq, Prod.mk.injEq,
                Prod.exists] at read
              obtain ⟨chunk, afterChunk, taken, others, remaining, more, rfl, rfl⟩ := read
              have shorter := (suffix_of_readHead? headed).length_le
              have othersLength := inductionHypothesis more
              rw [← append_of_takeBytes? taken, List.length_append] at shorter
              rw [List.flatten_cons, List.length_append]
              omega
            next => cases read

theorem length_of_readString?
    {found : Head}
    {bytes rest : List UInt8}
    {chunks : List (List UInt8)}
    (read : readString? found bytes = some (chunks, rest)) :
    chunks.flatten.length + rest.length ≤ bytes.length := by
  unfold readString? at read
  split at read
  next => exact length_of_readChunks? read
  next =>
    simp only [Option.bind_eq_bind, Option.bind_eq_some_iff, Option.some.injEq,
      Prod.mk.injEq, Prod.exists] at read
    obtain ⟨content, remaining, taken, rfl, rfl⟩ := read
    rw [← append_of_takeBytes? taken]
    simp

/-! ### Items -/

/-- From bytes within the limit the reader takes a bounded item, and leaves no more than it got. -/
def ReadsBounded (limit : Nat) (read? : Reader) : Prop :=
  ∀ {bytes item rest},
    bytes.length ≤ limit →
      read? bytes = some (item, rest) →
        Bounded limit item ∧ rest.length ≤ limit

section Sequences

variable
  {limit : Nat}
  {read? : Reader}
  (each : ReadsBounded limit read?)
  {bytes rest : List UInt8}
  {items : List Item}
  (short : bytes.length ≤ limit)

include each short

/-- Reading a number of items gives as many, all of them bounded. -/
theorem bounded_of_readMany?
    {count : Nat}
    (read : readMany? read? count bytes = some (items, rest)) :
    items.length = count ∧ (∀ item ∈ items, Bounded limit item) ∧ rest.length ≤ limit := by
  induction count generalizing bytes items with
  | zero =>
      cases read
      exact ⟨rfl, by simp, short⟩
  | succ count inductionHypothesis =>
      simp only [readMany?, Option.bind_eq_bind, Option.bind_eq_some_iff, Option.some.injEq,
        Prod.mk.injEq, Prod.exists] at read
      obtain ⟨item, following, first, others, _, more, rfl, rfl⟩ := read
      obtain ⟨bounded, followingShort⟩ := each short first
      obtain ⟨counted, othersBounded, restShort⟩ := inductionHypothesis followingShort more
      exact ⟨congrArg (· + 1) counted, List.forall_mem_cons.mpr ⟨bounded, othersBounded⟩, restShort⟩

/-- Reading items up to a break gives bounded ones. -/
theorem bounded_of_readUntilBreak?
    {steps : Nat}
    (read : readUntilBreak? read? steps bytes = some (items, rest)) :
    (∀ item ∈ items, Bounded limit item) ∧ rest.length ≤ limit := by
  induction steps generalizing bytes items with
  | zero => cases read
  | succ steps inductionHypothesis =>
      cases bytes with
      | nil => cases read
      | cons first following =>
          simp only [readUntilBreak?] at read
          split at read
          next =>
            cases read
            exact ⟨by simp, Nat.le_of_succ_le short⟩
          next =>
            simp only [Option.bind_eq_bind, Option.bind_eq_some_iff, Option.some.injEq,
              Prod.mk.injEq, Prod.exists] at read
            obtain ⟨item, _, one, others, _, more, rfl, rfl⟩ := read
            obtain ⟨bounded, remainingShort⟩ := each short one
            obtain ⟨othersBounded, restShort⟩ := inductionHypothesis remainingShort more
            exact ⟨List.forall_mem_cons.mpr ⟨bounded, othersBounded⟩, restShort⟩

/-- The content of an array or a map is bounded, and holds no more entries than are allowed. -/
theorem bounded_of_readContent?
    {found : Head}
    {share : Nat}
    (shared : 0 < share)
    (read : readContent? read? found share bytes = some (items, rest)) :
    items.length / share ≤ maxItems ∧
      (∀ item ∈ items, Bounded limit item) ∧ rest.length ≤ limit := by
  unfold readContent? at read
  split at read
  next =>
    simp only [Option.bind_eq_bind, Option.bind_eq_some_iff, Prod.exists] at read
    obtain ⟨found, remaining, untilBreak, read⟩ := read
    split at read
    next few =>
      cases read
      exact ⟨few, bounded_of_readUntilBreak? each short untilBreak⟩
    next => cases read
  next =>
    split at read
    next few =>
      obtain ⟨counted, bounded⟩ := bounded_of_readMany? each short read
      rw [counted, Nat.mul_div_cancel _ shared]
      exact ⟨few, bounded⟩
    next => cases read

end Sequences

/-- Paired items are the keys and values of the entries in turn. -/
theorem interleave_of_pairUp?
    {items : List Item}
    {entries : List (Item × Item)}
    (paired : pairUp? items = some entries) :
    items = interleave entries := by
  fun_induction pairUp? items generalizing entries with
  | case1 =>
      cases paired
      rfl
  | case2 => cases paired
  | case3 key value rest inductionHypothesis =>
      simp only [Option.bind_eq_bind, Option.bind_eq_some_iff, Option.some.injEq] at paired
      obtain ⟨others, restPaired, rfl⟩ := paired
      rw [inductionHypothesis restPaired]
      rfl

/-- Bounded items make a bounded map, if there are not too many. -/
theorem bounded_of_pairUp?
    {limit : Nat}
    {items : List Item}
    {entries : List (Item × Item)}
    (few : items.length / 2 ≤ maxItems)
    (bounded : ∀ item ∈ items, Bounded limit item)
    (paired : pairUp? items = some entries) :
    Bounded limit (.map entries) := by
  obtain rfl := interleave_of_pairUp? paired
  rw [length_interleave, Nat.mul_div_cancel _ Nat.two_pos] at few
  refine .map few ?_ ?_
  all_goals
    intro entry member
    apply bounded
    exact List.mem_flatMap.mpr ⟨entry, member, by simp⟩

/--
Items are bounded by the bytes they are read from.  A tag inside a tag takes a level, and any other
content does not.
-/
theorem readsBounded_readItem?
    (limit steps levels : Nat) :
    ReadsBounded limit (readItem? steps levels) := by
  induction steps generalizing levels with
  | zero =>
      intro bytes item rest short read
      cases read
  | succ steps inductionHypothesis =>
      intro bytes item rest short read
      simp only [readItem?, Option.bind_eq_bind, Option.bind_eq_some_iff, Prod.exists] at read
      obtain ⟨found, content, headed, read⟩ := read
      have contentShort : content.length ≤ limit :=
        (suffix_of_readHead? headed).length_le.trans short
      split at read
      next =>
        cases read
        exact ⟨.unsigned, contentShort⟩
      next =>
        cases read
        exact ⟨.negative, contentShort⟩
      next =>
        simp only [Option.bind_eq_some_iff, Option.some.injEq, Prod.mk.injEq, Prod.exists] at read
        obtain ⟨chunks, _, taken, rfl, rfl⟩ := read
        have split := length_of_readString? taken
        exact ⟨.bytes (by omega), by omega⟩
      next =>
        simp only [Option.bind_eq_some_iff, Option.some.injEq, Prod.mk.injEq, Prod.exists] at read
        obtain ⟨chunks, _, taken, rfl, rfl⟩ := read
        have split := length_of_readString? taken
        exact ⟨.text (by omega), by omega⟩
      next =>
        split at read
        next => cases read
        next =>
          simp only [Option.bind_eq_some_iff, Option.some.injEq, Prod.mk.injEq,
            Prod.exists] at read
          obtain ⟨items, _, taken, rfl, rfl⟩ := read
          obtain ⟨few, bounded, restShort⟩ :=
            bounded_of_readContent? (inductionHypothesis _) contentShort Nat.one_pos taken
          rw [Nat.div_one] at few
          exact ⟨.array few bounded, restShort⟩
      next =>
        split at read
        next => cases read
        next =>
          simp only [Option.bind_eq_some_iff, Option.some.injEq, Prod.mk.injEq,
            Prod.exists] at read
          obtain ⟨items, _, taken, entries, paired, rfl, rfl⟩ := read
          obtain ⟨few, bounded, restShort⟩ :=
            bounded_of_readContent? (inductionHypothesis _) contentShort Nat.two_pos taken
          exact ⟨bounded_of_pairUp? few bounded paired, restShort⟩
      next =>
        split at read
        next =>
          split at read
          next => cases read
          next =>
            simp only [Option.bind_eq_some_iff, Option.some.injEq, Prod.mk.injEq,
              Prod.exists] at read
            obtain ⟨tagged, _, taken, rfl, rfl⟩ := read
            obtain ⟨bounded, restShort⟩ := inductionHypothesis _ contentShort taken
            exact ⟨.tag bounded, restShort⟩
        next =>
          simp only [Option.bind_eq_some_iff, Option.some.injEq, Prod.mk.injEq,
            Prod.exists] at read
          obtain ⟨tagged, _, taken, rfl, rfl⟩ := read
          obtain ⟨bounded, restShort⟩ := inductionHypothesis _ contentShort taken
          exact ⟨.tag bounded, restShort⟩
      next =>
        cases read
        refine ⟨?_, contentShort⟩
        unfold primitive
        split_ifs
        · exact .float
        · exact .float
        · exact .float
        · exact .simple

/-- What some bytes hold is bounded by their number. -/
theorem bounded_of_decode?
    {bytes : List UInt8}
    {item : Item}
    (read : Item.decode? bytes = some item) :
    Bounded bytes.length item := by
  simp only [Item.decode?, Option.bind_eq_bind, Option.bind_eq_some_iff, Prod.exists] at read
  obtain ⟨found, rest, taken, read⟩ := read
  split at read
  next =>
    cases read
    exact (readsBounded_readItem? _ _ _ (Nat.le_refl _) taken).1
  next => cases read

/-! ### Fields -/

/-- An item without its tags is bounded as it was with them. -/
theorem Bounded.untag?
    {limit : Nat}
    {item plain : Item}
    (bounded : Bounded limit item)
    (untagged : Cbor.untag? item = some plain) :
    Bounded limit plain := by
  fun_induction Cbor.untag? item with
  | case1 content inductionHypothesis =>
      cases bounded with
      | tag bounded => exact inductionHypothesis bounded untagged
  | case2 =>
      cases untagged
      exact bounded
  | case3 number content other admitted notNumber inductionHypothesis =>
      cases bounded with
      | tag bounded => exact inductionHypothesis bounded untagged
  | case4 => cases untagged
  | case5 =>
      cases untagged
      exact bounded

theorem length_of_mapM
    {α β : Type}
    {read? : α → Option β}
    {items : List α}
    {results : List β}
    (read : items.mapM read? = some results) :
    results.length = items.length := by
  induction items generalizing results with
  | nil =>
      cases read
      rfl
  | cons item items inductionHypothesis =>
      simp only [List.mapM_cons, Option.bind_eq_bind, Option.bind_eq_some_iff,
        Option.pure_def, Option.some.injEq] at read
      obtain ⟨result, _, others, more, rfl⟩ := read
      exact congrArg (· + 1) (inductionHypothesis more)

section Fields

variable
  {limit : Nat}
  {item? : Option Item}
  (bounded : ∀ item ∈ item?, Bounded limit item)

include bounded

/-- A field has its zero value, or the content of a bounded item. -/
theorem content_of_field?
    {α : Type}
    {zero value : α}
    {content? : Item → Option α}
    (read : field? zero content? item? = some value) :
    value = zero ∨ ∃ item, Bounded limit item ∧ content? item = some value := by
  unfold field? at read
  split at read
  next =>
    cases read
    exact Or.inl rfl
  next entry =>
    simp only [Option.bind_eq_bind, Option.bind_eq_some_iff] at read
    obtain ⟨plain, untagged, read⟩ := read
    split at read
    next =>
      cases read
      exact Or.inl rfl
    next => exact Or.inr ⟨plain, (bounded entry rfl).untag? untagged, read⟩

/-- A text takes the bytes that it was read from. -/
theorem length_of_textField?
    {chars : List Char}
    (read : textField? item? = some chars) :
    (Text.encode chars).length ≤ limit := by
  rcases content_of_field? bounded read with rfl | ⟨item, itemBounded, content⟩
  · exact Nat.zero_le limit
  · unfold textContent? at content
    split at content
    next chunks =>
      split at content
      next wellFormed =>
        cases content
        cases itemBounded with
        | text short => rwa [Text.encode_decode (Text.isWellFormed_flatten wellFormed)]
      next => cases content
    next => cases content

/-- A byte string is no longer than the image, or than the most items of an array. -/
theorem length_of_bytesField?
    {content : List UInt8}
    (read : bytesField? item? = some content) :
    content.length ≤ max limit maxItems := by
  rcases content_of_field? bounded read with rfl | ⟨item, itemBounded, found⟩
  · exact Nat.zero_le _
  · split at found
    next =>
      cases found
      cases itemBounded with
      | bytes short => exact short.trans (Nat.le_max_left _ _)
    next =>
      cases found
      cases itemBounded with
      | tag itemBounded =>
          cases itemBounded with
          | bytes short => exact short.trans (Nat.le_max_left _ _)
    next =>
      cases itemBounded with
      | array few =>
          rw [length_of_mapM found]
          exact few.trans (Nat.le_max_right _ _)
    next => cases found

/-- A list has no more elements than an array may have items. -/
theorem length_of_arrayField?
    {α : Type}
    {element? : Option Item → Option α}
    {elements : List α}
    (read : arrayField? element? item? = some elements) :
    elements.length ≤ maxItems := by
  rcases content_of_field? bounded read with rfl | ⟨item, itemBounded, found⟩
  · exact Nat.zero_le _
  · split at found
    next =>
      cases itemBounded with
      | array few => rwa [length_of_mapM found]
    next => cases found

/-- The values of a record are bounded. -/
theorem bounded_of_recordField?
    {entries : List (Item × Item)}
    (read : recordField? item? = some entries) :
    ∀ entry ∈ entries, Bounded limit entry.2 := by
  rcases content_of_field? bounded read with rfl | ⟨item, itemBounded, found⟩
  · simp
  · split at found
    next =>
      split at found
      next =>
        cases found
        cases itemBounded with
        | map _ _ values => exact values
      next => cases found
    next => cases found

end Fields

/-- A value that is found by its key is bounded. -/
theorem bounded_of_find?
    {limit : Nat}
    {entries : List (Item × Item)}
    (bounded : ∀ entry ∈ entries, Bounded limit entry.2)
    (number : Nat) :
    ∀ item ∈ find? entries number, Bounded limit item := by
  intro item found
  obtain ⟨entry, search, rfl⟩ := Option.map_eq_some_iff.mp found
  exact bounded entry (List.mem_of_find?_eq_some search)

end Reckon.Cbor
