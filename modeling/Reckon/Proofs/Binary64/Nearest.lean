import Reckon.Proofs.Binary64

namespace Reckon.Binary64

/-!
# The nearest double

A ratio is rounded to the double that is nearest to it and, of two that are equally near, to the one
with the even significand.  No two doubles of different values are that.
-/

/-- The number that a finite double stands for. -/
def value? (number : Float) : Option ℚ :=
  match shape number with
  | .finite negative significand exponent =>
      some ((if negative then -1 else 1) * (significand * 2 ^ exponent))
  | _ => none

/-- The double is finite, and its significand is even. -/
def HasEvenSignificand (number : Float) : Prop :=
  match shape number with
  | .finite _ significand _ => Even significand
  | _ => False

/--
Rounding a ratio chooses the first of two numbers over the second: it is nearer, or it is as near
and even where the second is odd.
-/
def IsChosen (ratio first second : ℚ) (firstEven secondEven : Prop) : Prop :=
  second = first ∨
    |ratio - first| < |ratio - second| ∨
    |ratio - first| = |ratio - second| ∧ firstEven ∧ ¬ secondEven

/-- The double is chosen over every finite double. -/
def IsNearest (ratio : ℚ) (number : Float) : Prop :=
  ∃ value,
    value? number = some value ∧
      ∀ other otherValue,
        value? other = some otherValue →
          IsChosen ratio value otherValue (HasEvenSignificand number) (HasEvenSignificand other)

/-- The value of the double that is nearest to the ratio. -/
def RoundsTo (ratio value : ℚ) : Prop :=
  ∃ number, IsNearest ratio number ∧ value? number = some value

/-- A double with a value has a finite shape of that value. -/
theorem exists_shape_of_value?
    {number : Float}
    {value : ℚ}
    (found : value? number = some value) :
    ∃ negative significand exponent,
      shape number = .finite negative significand exponent ∧
        value = (if negative then -1 else 1) * (significand * 2 ^ exponent) := by
  unfold value? at found
  split at found
  next negative significand exponent shaped =>
    exact ⟨negative, significand, exponent, shaped, (Option.some.inj found).symm⟩
  next => cases found

/-- The value of a finite shape is its significand times its power of two. -/
theorem value?_of_shape
    {number : Float}
    {significand : Nat}
    {exponent : Int}
    (shaped : shape number = .finite false significand exponent) :
    value? number = some ((significand : ℚ) * 2 ^ exponent) := by
  simp [value?, shaped]

/-- The parity of a finite double is that of its significand. -/
theorem hasEvenSignificand_iff
    {number : Float}
    {negative : Bool}
    {significand : Nat}
    {exponent : Int}
    (shaped : shape number = .finite negative significand exponent) :
    HasEvenSignificand number ↔ Even significand := by
  simp [HasEvenSignificand, shaped]

/-! ### Choosing -/

namespace IsChosen

variable
  {ratio first second : ℚ}
  {firstEven secondEven : Prop}

/-- What is chosen is at least as near. -/
theorem distance_le
    (chosen : IsChosen ratio first second firstEven secondEven) :
    |ratio - first| ≤ |ratio - second| := by
  rcases chosen with same | nearer | ⟨equal, -⟩
  · rw [same]
  · exact nearer.le
  · exact equal.le

/-- No two different numbers are chosen over each other. -/
theorem antisymm
    (chosen : IsChosen ratio first second firstEven secondEven)
    (conversely : IsChosen ratio second first secondEven firstEven) :
    first = second := by
  rcases chosen with same | nearer | ⟨equal, -, odd⟩
  · exact same.symm
  · exact absurd conversely.distance_le (not_le_of_gt nearer)
  · rcases conversely with same | nearer | ⟨-, secondIsEven, -⟩
    · exact same
    · exact absurd nearer equal.not_gt
    · exact absurd secondIsEven odd

/-- A choice is the same in any unit. -/
theorem scale
    {unit : ℚ}
    (positive : 0 < unit)
    (chosen : IsChosen ratio first second firstEven secondEven) :
    IsChosen (ratio * unit) (first * unit) (second * unit) firstEven secondEven := by
  have distance (number : ℚ) : |ratio * unit - number * unit| = |ratio - number| * unit := by
    rw [← sub_mul, abs_mul, abs_of_pos positive]
  unfold IsChosen
  rw [distance, distance, mul_lt_mul_iff_left₀ positive, mul_left_inj' positive.ne',
    mul_left_inj' positive.ne']
  exact chosen

/-- A choice is kept if the first stays even and the second does not become so. -/
theorem imp
    {firstEven' secondEven' : Prop}
    (chosen : IsChosen ratio first second firstEven secondEven)
    (ofFirst : firstEven → firstEven')
    (ofSecond : secondEven' → secondEven) :
    IsChosen ratio first second firstEven' secondEven' := by
  rcases chosen with same | nearer | ⟨equal, even, odd⟩
  · exact Or.inl same
  · exact Or.inr (Or.inl nearer)
  · exact Or.inr (Or.inr ⟨equal, ofFirst even, mt ofSecond odd⟩)

/-- A number that is chosen over an even zero is chosen over what is below zero. -/
theorem of_nonpos
    {other : ℚ}
    {otherEven : Prop}
    (chosen : IsChosen ratio first 0 firstEven secondEven)
    (even : secondEven)
    (nonnegative : 0 ≤ ratio)
    (nonpositive : other ≤ 0) :
    IsChosen ratio first other firstEven otherEven := by
  have distance : |ratio - other| = ratio - other :=
    abs_of_nonneg (by linarith)
  rcases chosen with rfl | nearer | ⟨-, -, odd⟩
  · rcases nonpositive.eq_or_lt with same | negative
    · exact Or.inl same
    · refine Or.inr (Or.inl ?_)
      rw [distance, sub_zero, abs_of_nonneg nonnegative]
      linarith
  · refine Or.inr (Or.inl (nearer.trans_le ?_))
    rw [distance, sub_zero, abs_of_nonneg nonnegative]
    linarith
  · exact absurd even odd

end IsChosen

/-- A double is nearest to its own value. -/
theorem isNearest_of_value?
    {number : Float}
    {value : ℚ}
    (found : value? number = some value) :
    IsNearest value number := by
  refine ⟨value, found, fun other otherValue _ => ?_⟩
  by_cases same : otherValue = value
  · exact Or.inl same
  · refine Or.inr (Or.inl ?_)
    rw [sub_self, abs_zero]
    exact abs_pos.mpr (sub_ne_zero.mpr (Ne.symm same))

/-- A ratio is rounded to one value. -/
theorem RoundsTo.unique
    {ratio first second : ℚ}
    (toFirst : RoundsTo ratio first)
    (toSecond : RoundsTo ratio second) :
    first = second := by
  obtain ⟨number, ⟨value, found, chosen⟩, firstFound⟩ := toFirst
  obtain ⟨other, ⟨otherValue, otherFound, otherChosen⟩, secondFound⟩ := toSecond
  cases found.symm.trans firstFound
  cases otherFound.symm.trans secondFound
  exact (chosen other _ otherFound).antisymm (otherChosen number _ found)

/-- A ratio is rounded to the value of a nearest double, and to no other value. -/
theorem IsNearest.roundsTo_iff
    {ratio value : ℚ}
    {number : Float}
    (nearest : IsNearest ratio number) :
    RoundsTo ratio value ↔ value? number = some value := by
  constructor
  · intro rounds
    have ⟨own, found, _⟩ := nearest
    rw [found, rounds.unique ⟨number, nearest, found⟩]
  · intro found
    exact ⟨number, nearest, found⟩

/-! ### Rounding to whole numbers -/

section Whole

variable {numerator denominator : Nat}

/-- The rounded number is the quotient or the one above it, by the size of the remainder. -/
theorem roundRatio_cases
    (numerator denominator : Nat) :
    let quotient := numerator / denominator
    let twice := 2 * (numerator % denominator)
    let rounded := roundRatio numerator denominator
    (twice = denominator → Even rounded) ∧
      (rounded = quotient ∧ twice ≤ denominator ∨
        rounded = quotient + 1 ∧ denominator ≤ twice) := by
  intro quotient twice rounded
  simp only [rounded, roundRatio]
  split
  next below => exact ⟨by omega, Or.inl ⟨rfl, by omega⟩⟩
  next =>
    split
    next above => exact ⟨by omega, Or.inr ⟨rfl, by omega⟩⟩
    next =>
      have parity := Nat.mod_two_eq_zero_or_one quotient
      simp only [Nat.even_iff]
      omega

/-- The rounded number is off by a half at most, and by a half only if it is even. -/
theorem roundRatio_error
    (below : 0 < denominator) :
    let rounded := roundRatio numerator denominator
    2 * |(numerator : ℚ) / denominator - rounded| ≤ 1 ∧
      (2 * |(numerator : ℚ) / denominator - rounded| = 1 → Even rounded) := by
  obtain ⟨tie, cases⟩ := roundRatio_cases numerator denominator
  simp only
  generalize roundRatio numerator denominator = rounded at tie cases ⊢
  have positive : (0 : ℚ) < denominator := by
    exact_mod_cast below
  generalize fractionShape : ((numerator % denominator : Nat) : ℚ) / denominator = fraction
  have remainder : ((numerator % denominator : Nat) : ℚ) = fraction * denominator :=
    (div_eq_iff positive.ne').mp fractionShape
  have ratio : (numerator : ℚ) / denominator = (numerator / denominator : Nat) + fraction := by
    rw [div_eq_iff positive.ne', add_mul, ← remainder]
    exact_mod_cast (Nat.div_add_mod' numerator denominator).symm
  have nonnegative : 0 ≤ fraction := by
    rw [← fractionShape]
    positivity
  have small : fraction < 1 := by
    rw [← fractionShape, div_lt_one positive]
    exact_mod_cast Nat.mod_lt numerator below
  have even (half : 2 * fraction = 1) : Even rounded := by
    apply tie
    have twice : (2 * (numerator % denominator : Nat) : ℚ) = denominator := by
      rw [remainder, ← mul_assoc, half, one_mul]
    exact_mod_cast twice
  rcases cases with ⟨isDown, low⟩ | ⟨isUp, high⟩
  · have half : 2 * fraction ≤ 1 := by
      rw [← fractionShape, ← mul_div_assoc, div_le_one positive]
      exact_mod_cast low
    have error : |(numerator : ℚ) / denominator - rounded| = fraction := by
      rw [ratio, isDown, add_sub_cancel_left, abs_of_nonneg nonnegative]
    rw [error]
    exact ⟨half, even⟩
  · have half : 1 ≤ 2 * fraction := by
      rw [← fractionShape, ← mul_div_assoc, one_le_div positive]
      exact_mod_cast high
    have error : |(numerator : ℚ) / denominator - rounded| = 1 - fraction := by
      rw [ratio, isUp, Nat.cast_succ, add_sub_add_left_eq_sub, abs_sub_comm,
        abs_of_pos (by linarith)]
    rw [error]
    exact ⟨by linarith, fun tight => even (by linarith)⟩

/--
The rounded ratio is chosen over every whole number.  Where both are a half away, they are next to
each other and the rounded one is even.
-/
theorem isChosen_roundRatio
    (below : 0 < denominator)
    (whole : Int) :
    IsChosen (numerator / denominator) (roundRatio numerator denominator) whole
      (Even (roundRatio numerator denominator)) (Even whole) := by
  obtain ⟨half, even⟩ := @roundRatio_error numerator denominator below
  generalize (numerator : ℚ) / denominator = ratio at half even ⊢
  generalize roundRatio numerator denominator = rounded at half even ⊢
  by_cases same : whole = rounded
  · exact Or.inl (by rw [same, Int.cast_natCast])
  have apart : (1 : ℚ) ≤ |(rounded : ℚ) - whole| := by
    exact_mod_cast Int.one_le_abs (sub_ne_zero.mpr (Ne.symm same))
  have triangle : |(rounded : ℚ) - whole| ≤ |ratio - rounded| + |ratio - whole| := by
    rw [abs_sub_comm ratio rounded]
    exact abs_sub_le _ _ _
  rcases lt_trichotomy |ratio - rounded| |ratio - whole| with nearer | equal | farther
  · exact Or.inr (Or.inl nearer)
  · have isEven : Even rounded := even (le_antisymm half (by linarith))
    have adjacent : |(rounded : Int) - whole| = 1 := by
      have atMost : |(rounded : ℚ) - whole| ≤ 1 := by
        linarith
      exact_mod_cast le_antisymm atMost apart
    refine Or.inr (Or.inr ⟨equal, isEven, ?_⟩)
    rw [Nat.even_iff] at isEven
    rw [Int.even_iff]
    rcases (abs_eq zero_le_one).mp adjacent with above | below <;> omega
  · linarith

/-- A ratio is not rounded past a whole number above it. -/
theorem roundRatio_le
    (below : 0 < denominator)
    {whole : Nat}
    (atMost : (numerator : ℚ) / denominator ≤ whole) :
    roundRatio numerator denominator ≤ whole := by
  have nearest := (@isChosen_roundRatio numerator denominator below whole).distance_le
  rw [Int.cast_natCast, abs_sub_comm _ (whole : ℚ), abs_of_nonneg (sub_nonneg.mpr atMost)]
    at nearest
  have bound := (neg_le_abs _).trans nearest
  have rounded : (roundRatio numerator denominator : ℚ) ≤ whole := by
    linarith
  exact_mod_cast rounded

theorem le_roundRatio
    (below : 0 < denominator)
    {whole : Nat}
    (atLeast : (whole : ℚ) ≤ numerator / denominator) :
    whole ≤ roundRatio numerator denominator := by
  have nearest := (@isChosen_roundRatio numerator denominator below whole).distance_le
  rw [Int.cast_natCast, abs_of_nonneg (sub_nonneg.mpr atLeast)] at nearest
  have bound := (le_abs_self _).trans nearest
  have rounded : (whole : ℚ) ≤ roundRatio numerator denominator := by
    linarith
  exact_mod_cast rounded

end Whole

/-! ### Rounding to doubles -/

section Doubles

variable {numerator denominator : Nat}

/-- The significand of a ratio at its exponent has at most 53 bits, and no fewer if it can. -/
theorem exponentOfRatio_room
    (above : 0 < numerator)
    (below : 0 < denominator) :
    let exponent := exponentOfRatio numerator denominator
    leastExponent ≤ exponent ∧
      (numerator : ℚ) / denominator < 2 ^ (exponent + 53) ∧
      (leastExponent < exponent → (2 : ℚ) ^ (exponent + 52) ≤ numerator / denominator) := by
  obtain ⟨found, shape, low, high⟩ := exponentOfRatio_bounds above below
  intro exponent
  have isMax : exponent = max found leastExponent := shape
  refine ⟨by omega, high.trans_le ?_, fun more => ?_⟩
  · exact zpow_le_zpow_right₀ (by norm_num) (by omega)
  · rw [show exponent = found by omega]
    exact low

/-- The significand that a ratio is rounded to, at the exponent of the ratio. -/
def significandOfRatio (numerator denominator : Nat) : Nat :=
  let scaled := scaleDown numerator denominator (exponentOfRatio numerator denominator)
  roundRatio scaled.1 scaled.2

/-- The magnitude of a positive ratio is made of its significand and its exponent. -/
theorem magnitudeOfRatio_eq
    (above : 0 < numerator) :
    magnitudeOfRatio numerator denominator =
      magnitudeBits (significandOfRatio numerator denominator)
        (exponentOfRatio numerator denominator) := by
  rw [magnitudeOfRatio, if_neg above.ne']
  rfl

/--
A rounded significand is at most the 53rd power of two, and has 53 bits above the least exponent.
-/
theorem significandOfRatio_bounds
    (above : 0 < numerator)
    (below : 0 < denominator) :
    significandOfRatio numerator denominator ≤ 0x20000000000000 ∧
      (leastExponent < exponentOfRatio numerator denominator →
        0x10000000000000 ≤ significandOfRatio numerator denominator) := by
  obtain ⟨-, high, low⟩ := exponentOfRatio_room above below
  have two : (2 : ℚ) ≠ 0 := by
    norm_num
  rw [significandOfRatio]
  constructor
  · apply roundRatio_le (scaleDown_pos below _)
    rw [scaleDown_ratio, div_le_iff₀ (by positivity)]
    rw [zpow_add₀ two, mul_comm] at high
    exact_mod_cast high.le
  · intro more
    apply le_roundRatio (scaleDown_pos below _)
    rw [scaleDown_ratio, le_div_iff₀ (by positivity)]
    have low := low more
    rw [zpow_add₀ two, mul_comm] at low
    exact_mod_cast low

/-- The rounded significand, or half of it at the next exponent, is that of a double. -/
theorem exists_canonical_of_magnitudeOfRatio
    (above : 0 < numerator)
    (below : 0 < denominator)
    (finite : magnitudeOfRatio numerator denominator < infinityBits) :
    ∃ significand exponent,
      IsCanonical significand exponent ∧
        magnitudeOfRatio numerator denominator = magnitudeBits significand exponent ∧
        (significand : ℚ) * 2 ^ exponent =
          significandOfRatio numerator denominator *
            2 ^ exponentOfRatio numerator denominator ∧
        (Even (significandOfRatio numerator denominator) → Even significand) := by
  obtain ⟨least, -, -⟩ := exponentOfRatio_room above below
  obtain ⟨narrow, wide⟩ := significandOfRatio_bounds above below
  rw [magnitudeOfRatio_eq above] at finite ⊢
  generalize significandOfRatio numerator denominator = significand at *
  generalize exponentOfRatio numerator denominator = exponent at *
  have bottom : leastExponent = -1074 := rfl
  simp only [magnitudeBits, infinityBits] at finite
  by_cases carries : significand = 0x20000000000000
  · refine ⟨0x10000000000000, exponent + 1, ?_, ?_, ?_, fun _ => by decide⟩
    · constructor <;> omega
    · simp only [magnitudeBits]
      omega
    · rw [carries, zpow_add_one₀ (by norm_num)]
      push_cast
      ring
  · refine ⟨significand, exponent, ?_, rfl, rfl, id⟩
    constructor <;> omega

/-- The rounded significand is chosen over every other multiple of its power of two. -/
theorem isChosen_significandOfRatio
    (below : 0 < denominator)
    (whole : Int) :
    IsChosen (numerator / denominator)
      (significandOfRatio numerator denominator * 2 ^ exponentOfRatio numerator denominator)
      (whole * 2 ^ exponentOfRatio numerator denominator)
      (Even (significandOfRatio numerator denominator)) (Even whole) := by
  rw [significandOfRatio]
  generalize exponentOfRatio numerator denominator = exponent
  have power : (0 : ℚ) < 2 ^ exponent := by
    positivity
  have positive := @scaleDown_pos numerator denominator below exponent
  have chosen :=
    (@isChosen_roundRatio (scaleDown numerator denominator exponent).1 _ positive whole).scale power
  rw [scaleDown_ratio, div_mul_cancel₀ _ power.ne'] at chosen
  exact chosen

/--
The rounded significand is chosen over the magnitude of every double.  At an exponent that is no
smaller the other magnitude is a multiple of the same power of two, and at a smaller one it has
fewer bits.
-/
theorem isChosen_significandOfRatio_of_isCanonical
    (above : 0 < numerator)
    (below : 0 < denominator)
    {significand : Nat}
    {exponent : Int}
    (canonical : IsCanonical significand exponent) :
    IsChosen (numerator / denominator)
      (significandOfRatio numerator denominator * 2 ^ exponentOfRatio numerator denominator)
      (significand * 2 ^ exponent)
      (Even (significandOfRatio numerator denominator)) (Even significand) := by
  obtain ⟨-, -, low⟩ := exponentOfRatio_room above below
  have chosen := @isChosen_significandOfRatio numerator denominator below
  generalize exponentOfRatio numerator denominator = place at low chosen ⊢
  have two : (2 : ℚ) ≠ 0 := by
    norm_num
  by_cases reaches : place ≤ exponent
  · obtain ⟨more, rfl⟩ := Int.le.dest reaches
    have multiple :
        (significand : ℚ) * 2 ^ (place + more) =
          ((significand * 2 ^ more : Nat) : Int) * 2 ^ place := by
      rw [zpow_add₀ two, zpow_natCast]
      push_cast
      ring
    rw [multiple]
    refine (chosen _).imp id fun even => ?_
    exact_mod_cast even.mul_right _
  · have least := canonical.least
    have atLeast := low (by omega)
    have smaller : (significand : ℚ) * 2 ^ exponent < 2 ^ (place + 52) := by
      calc
        (significand : ℚ) * 2 ^ exponent
          < 2 ^ (53 : Int) * 2 ^ exponent := by
            gcongr
            exact_mod_cast canonical.narrow
        _ = 2 ^ (exponent + 53) := by
            rw [← zpow_add₀ two, add_comm]
        _ ≤ 2 ^ (place + 52) :=
            zpow_le_zpow_right₀ (by norm_num) (by omega)
    have nearest := (chosen (2 ^ 52)).distance_le
    have leastShape : (((2 ^ 52 : Int) : ℚ) * 2 ^ place) = 2 ^ (place + 52) := by
      rw [zpow_add₀ two, mul_comm]
      norm_num
    rw [leastShape, abs_of_nonneg (sub_nonneg.mpr atLeast)] at nearest
    refine Or.inr (Or.inl (nearest.trans_lt ?_))
    exact (sub_lt_sub_left smaller _).trans_le (le_abs_self _)

/-- A double with the rounded significand for its value is nearest to the ratio. -/
theorem isNearest_of_shape
    (above : 0 < numerator)
    (below : 0 < denominator)
    {number : Float}
    {significand : Nat}
    {exponent : Int}
    (shaped : shape number = .finite false significand exponent)
    (value :
      (significand : ℚ) * 2 ^ exponent =
        significandOfRatio numerator denominator * 2 ^ exponentOfRatio numerator denominator)
    (parity : Even (significandOfRatio numerator denominator) → Even significand) :
    IsNearest (numerator / denominator) number := by
  refine ⟨_, value?_of_shape shaped, fun other otherValue otherFound => ?_⟩
  obtain ⟨negative, otherSignificand, otherExponent, otherShaped, rfl⟩ :=
    exists_shape_of_value? otherFound
  rw [hasEvenSignificand_iff shaped, hasEvenSignificand_iff otherShaped, value]
  cases negative with
  | false =>
      have chosen :=
        isChosen_significandOfRatio_of_isCanonical above below
          (isCanonical_of_shapeOfBits otherShaped)
      simpa using chosen.imp parity id
  | true =>
      have chosen := @isChosen_significandOfRatio numerator denominator below 0
      rw [Int.cast_zero, zero_mul] at chosen
      refine (chosen.of_nonpos Even.zero (by positivity) ?_).imp parity id
      simp only [↓reduceIte, neg_mul, one_mul, Left.neg_nonpos_iff]
      positivity

theorem isCanonical_zero :
    IsCanonical 0 leastExponent :=
  ⟨le_rfl, by decide, by decide, fun more => absurd more (lt_irrefl _)⟩

/-- A ratio is rounded to the double that is nearest to it. -/
theorem isNearest_of_ofRatio?
    (below : 0 < denominator)
    {number : Float}
    (found : ofRatio? false numerator denominator = some number) :
    IsNearest (numerator / denominator) number := by
  unfold ofRatio? at found
  simp only at found
  split at found
  case isFalse => cases found
  case isTrue finite =>
    rcases Nat.eq_zero_or_pos numerator with rfl | above
    · cases found
      apply isNearest_of_value?
      rw [show magnitudeOfRatio 0 denominator = magnitudeBits 0 leastExponent from rfl,
        value?_of_shape (shape_ofMagnitude isCanonical_zero false)]
      simp
    · obtain ⟨significand, exponent, canonical, magnitude, value, parity⟩ :=
        exists_canonical_of_magnitudeOfRatio above below finite
      have shaped := shape_ofMagnitude canonical false
      rw [← magnitude, Option.some.inj found] at shaped
      exact isNearest_of_shape above below shaped value parity

/-- Only a large ratio is too large for a double. -/
theorem le_of_ofRatio?_eq_none
    (below : 0 < denominator)
    (unbounded : ofRatio? false numerator denominator = none) :
    (2 : ℚ) ^ (1023 : Int) ≤ numerator / denominator := by
  have infinite : infinityBits ≤ magnitudeOfRatio numerator denominator := by
    unfold ofRatio? at unbounded
    simp only at unbounded
    split at unbounded
    next => cases unbounded
    next infinite => exact Nat.le_of_not_lt infinite
  rcases Nat.eq_zero_or_pos numerator with rfl | above
  · rw [magnitudeOfRatio, if_pos rfl] at infinite
    exact absurd infinite (by decide)
  · obtain ⟨narrow, -⟩ := significandOfRatio_bounds above below
    obtain ⟨-, -, low⟩ := exponentOfRatio_room above below
    have bottom : leastExponent = -1074 := rfl
    have large : 971 ≤ exponentOfRatio numerator denominator := by
      rw [magnitudeOfRatio_eq above, magnitudeBits, infinityBits] at infinite
      omega
    exact (zpow_le_zpow_right₀ (by norm_num) (by omega)).trans (low (by omega))

end Doubles

/-! ### Values that are rounded to -/

namespace RoundsTo

variable {ratio value : ℚ}

/-- Rounding does not go below a double that is below the ratio. -/
theorem le_of_le
    (rounds : RoundsTo ratio value)
    {boundary : Float}
    {least : ℚ}
    (found : value? boundary = some least)
    (atLeast : least ≤ ratio) :
    least ≤ value := by
  obtain ⟨number, ⟨_, own, chosen⟩, rounded⟩ := rounds
  cases own.symm.trans rounded
  have distance := (chosen boundary least found).distance_le
  rw [abs_of_nonneg (sub_nonneg.mpr atLeast)] at distance
  have bound := (le_abs_self _).trans distance
  linarith

end RoundsTo

/--
A whole number below the 53rd power of two is the value of a double, with its bits shifted up to
53.
-/
theorem exists_value?_natCast
    {whole : Nat}
    (small : whole < 2 ^ 53) :
    ∃ number, value? number = some (whole : ℚ) := by
  rcases Nat.eq_zero_or_pos whole with rfl | positive
  · exact ⟨_, (value?_of_shape (shape_ofMagnitude isCanonical_zero false)).trans (by simp)⟩
  · obtain ⟨room, width⟩ :=
      Nat.exists_eq_add_of_le (Nat.le_of_lt_succ ((Nat.log2_lt positive.ne').mpr small))
    have low : 2 ^ 52 ≤ whole * 2 ^ room := by
      rw [width, pow_add]
      exact Nat.mul_le_mul_right _ (Nat.log2_self_le positive.ne')
    have high : whole * 2 ^ room < 2 ^ 53 := by
      rw [show 53 = whole.log2 + 1 + room by omega, pow_add]
      exact Nat.mul_lt_mul_of_pos_right Nat.lt_log2_self (by positivity)
    have bottom : leastExponent = -1074 := rfl
    have canonical : IsCanonical (whole * 2 ^ room) (-(room : Int)) :=
      ⟨by omega, by omega, high, fun _ => low⟩
    refine ⟨_, (value?_of_shape (shape_ofMagnitude canonical false)).trans ?_⟩
    rw [zpow_neg, zpow_natCast]
    push_cast
    rw [mul_inv_cancel_right₀ (by positivity)]

/-- A whole number below the 53rd power of two is rounded to itself. -/
theorem roundsTo_natCast_iff
    {whole : Nat}
    (small : whole < 2 ^ 53)
    {value : ℚ} :
    RoundsTo whole value ↔ value = whole := by
  obtain ⟨number, found⟩ := exists_value?_natCast small
  rw [(isNearest_of_value? found).roundsTo_iff, found, Option.some.injEq, eq_comm]

/-- A ratio below half of the least double is rounded to zero. -/
theorem roundsTo_iff_of_tiny
    {ratio : ℚ}
    (nonnegative : 0 ≤ ratio)
    (tiny : ratio < 2 ^ (-1075 : Int))
    {value : ℚ} :
    RoundsTo ratio value ↔ value = 0 := by
  have found : value? (ofMagnitude false (magnitudeBits 0 leastExponent)) = some 0 :=
    (value?_of_shape (shape_ofMagnitude isCanonical_zero false)).trans (by simp)
  have nearest : IsNearest ratio (ofMagnitude false (magnitudeBits 0 leastExponent)) := by
    refine ⟨0, found, fun other otherValue otherFound => ?_⟩
    obtain ⟨negative, significand, exponent, shaped, rfl⟩ := exists_shape_of_value? otherFound
    rcases Nat.eq_zero_or_pos significand with rfl | positive
    · exact Or.inl (by simp)
    · have least : (2 : ℚ) ^ (-1074 : Int) ≤ significand * 2 ^ exponent := by
        calc
          (2 : ℚ) ^ (-1074 : Int)
            ≤ 2 ^ exponent :=
              zpow_le_zpow_right₀ (by norm_num) (isCanonical_of_shapeOfBits shaped).least
          _ ≤ significand * 2 ^ exponent :=
              le_mul_of_one_le_left (by positivity) (by exact_mod_cast positive)
      have half : (2 : ℚ) ^ (-1074 : Int) = 2 * 2 ^ (-1075 : Int) := by
        rw [← zpow_one_add₀ (by norm_num)]
        rfl
      refine Or.inr (Or.inl ?_)
      rw [sub_zero, abs_of_nonneg nonnegative, lt_abs]
      cases negative with
      | false =>
          right
          simp only [Bool.false_eq_true, ↓reduceIte, one_mul]
          linarith
      | true =>
          left
          simp only [↓reduceIte]
          linarith
  rw [nearest.roundsTo_iff, found, Option.some.injEq, eq_comm]

/-! ### Whole numbers -/

/-- The whole part of a value without a fraction is the value. -/
theorem wholePart_of_isWhole
    {significand : Nat}
    {exponent : Int}
    (whole : isWhole significand exponent = true) :
    (wholePart significand exponent : ℚ) = significand * 2 ^ exponent := by
  cases exponent with
  | ofNat up =>
      simp [wholePart]
  | negSucc down =>
      have divides : 2 ^ (down + 1) ∣ significand :=
        Nat.dvd_of_mod_eq_zero (by simpa [isWhole] using whole)
      rw [wholePart, Nat.pow_eq, Nat.cast_div divides (by positivity), zpow_negSucc,
        div_eq_mul_inv]
      push_cast
      rfl

/-- The value of a whole number has no fraction. -/
theorem isWhole_of_eq
    {significand whole : Nat}
    {exponent : Int}
    (same : (significand : ℚ) * 2 ^ exponent = whole) :
    isWhole significand exponent = true := by
  cases exponent with
  | ofNat up => rfl
  | negSucc down =>
      have product : significand = whole * 2 ^ (down + 1) := by
        rw [zpow_negSucc, ← div_eq_mul_inv, div_eq_iff (by positivity)] at same
        exact_mod_cast same
      simp [isWhole, product]

/-- The whole number that a double stands for is its value. -/
theorem toInt?_eq_some_iff
    {number : Float}
    {whole : Int} :
    toInt? number = some whole ↔ value? number = some (whole : ℚ) := by
  cases shaped : shape number with
  | nan => simp [toInt?, value?, shaped]
  | infinite => simp [toInt?, value?, shaped]
  | finite negative significand exponent =>
      simp only [toInt?, value?, shaped, Option.some.injEq]
      split
      next isWhole =>
        rw [← wholePart_of_isWhole isWhole, Option.some.injEq]
        cases negative with
        | false =>
            simp only [Bool.false_eq_true, ↓reduceIte, one_mul]
            norm_cast
        | true =>
            simp only [↓reduceIte, neg_mul, one_mul]
            norm_cast
      next notWhole =>
        refine ⟨nofun, fun same => ?_⟩
        have magnitude : (significand : ℚ) * 2 ^ exponent = whole.natAbs := by
          have nonnegative : (0 : ℚ) ≤ significand * 2 ^ exponent := by
            positivity
          rw [Nat.cast_natAbs, Int.cast_abs, ← same, abs_mul, abs_of_nonneg nonnegative]
          cases negative <;> simp
        exact absurd (isWhole_of_eq magnitude) notWhole

end Reckon.Binary64
