import LedgerWire.Proofs.Decimal.Sum
import LedgerWire.Proofs.Decimal.Words

namespace LedgerWire.Decimal

open Positional

/-!
Addition in words, and its laws. Operands cut to the window have mantissas of at most 38 digits
once they are brought to one exponent, so that their sum still fits a word. What a sum is does not
depend on the order of the operands: where both lead at one exponent, either order rounds both
operands to one unit, and a number has one normal form.
-/

section Checked

def leadingExponent? (decimal : Decimal) : Option Int :=
  exponent? (decimal.exponent + ((decimal.precision : Int) - 1))

def cutBelow? (decimal : Decimal) (low : Int) : Option Decimal :=
  if decimal.exponent < low then do
    let places ← exponent? (-low)
    decimal.roundScale? places
  else some decimal

/-- The mantissa brought down to an exponent. -/
def alignedMantissa? (decimal : Decimal) (exponent : Int) : Option Nat := do
  let shift ← exponent? (decimal.exponent - exponent)
  let factor ← word? (weight 10 shift.toNat)
  word? (decimal.mantissa * factor)

def addAligned? (big small : Decimal) : Option Decimal := do
  let exponent := min big.exponent small.exponent
  let left ← big.alignedMantissa? exponent
  let right ← small.alignedMantissa? exponent
  if big.negative = small.negative then do
    let sum ← word? (left + right)
    normal? big.negative sum exponent
  else if right ≤ left then normal? big.negative (left - right) exponent
  else normal? small.negative (right - left) exponent

def addOrdered? (big small : Decimal) : Option Decimal := do
  let leading ← big.leadingExponent?
  let low ← exponent? (leading - ((sumWidth : Int) - 1))
  let least ← exponent? (low - 1)
  let smallLeading ← small.leadingExponent?
  if smallLeading < least then some big
  else do
    let cutBig ← big.cutBelow? low
    let cutSmall ← small.cutBelow? low
    if cutSmall.isZero then some cutBig else cutBig.addAligned? cutSmall

/-- The sum in words. -/
def add? (left right : Decimal) : Option Decimal :=
  if left.isZero then some right
  else if right.isZero then some left
  else do
    let leftLeading ← left.leadingExponent?
    let rightLeading ← right.leadingExponent?
    if rightLeading ≤ leftLeading then left.addOrdered? right else right.addOrdered? left

end Checked

section Window

variable {decimal big small : Decimal} {low exponent : Int}

theorem leadingExponent?_eq (moderate : decimal.Moderate) :
    decimal.leadingExponent? = some decimal.leadingExponent := by
  have leading := moderate.leadingExponent
  obtain ⟨narrow, lower, upper⟩ := moderate
  rw [leadingExponent?, exponent?_of_bounds (by omega) (by omega)]
  congr 1
  omega

theorem cutBelow?_eq (moderate : decimal.Moderate) (small : low.natAbs ≤ 2147483647) :
    decimal.cutBelow? low = some (decimal.cutBelow low) := by
  obtain ⟨lower, upper⟩ := bounds_of_small (show (-low).natAbs ≤ 2147483647 by omega)
  obtain ⟨floorLower, floorUpper⟩ := bounds_of_small (show (- -low).natAbs ≤ 2147483647 by omega)
  rw [cutBelow?, cutBelow, exponent?_of_bounds lower upper, clamp_of_bounds lower upper]
  split
  · exact roundScale?_eq moderate.inRange moderate.narrow floorLower floorUpper
  · rfl

theorem alignedMantissa?_eq (inside : decimal.InWindow low) (above : low ≤ exponent)
    (below : exponent ≤ decimal.exponent) : decimal.alignedMantissa? exponent =
      some (decimal.mantissa * alignFactor (decimal.exponent - exponent).toNat) := by
  have short := aligned_lt inside above below
  have upper := inside.upper
  obtain ⟨shiftLower, shiftUpper⟩ :=
    bounds_of_small (show (decimal.exponent - exponent).natAbs ≤ 2147483647 by omega)
  rw [alignFactor, if_pos (by omega)] at short ⊢
  simp only [alignedMantissa?, exponent?_of_bounds shiftLower shiftUpper,
    word?_weight (show (decimal.exponent - exponent).toNat ≤ 38 by omega), word?_of_lt short,
    Option.bind_eq_bind, Option.bind_some]

/-- Numbers in one window are added without an overflow. -/
theorem addAligned?_eq (bigInside : big.InWindow low) (smallInside : small.InWindow low)
    (lower : minimumExponent ≤ low) (upper : low + 80 ≤ maximumExponent) :
    big.addAligned? small = some (big.addAligned small) := by
  have above : low ≤ min big.exponent small.exponent := le_min bigInside.lower smallInside.lower
  have bigBelow := min_le_left big.exponent small.exponent
  have smallBelow := min_le_right big.exponent small.exponent
  have bigUpper := bigInside.upper
  have bigShort := aligned_lt bigInside above bigBelow
  have smallShort := aligned_lt smallInside above smallBelow
  have normalised (negative : Bool) {mantissa : Nat} (short : mantissa < 2 * weight 10 38) :
      normal? negative mantissa (min big.exponent small.exponent) =
        some (normal negative mantissa (min big.exponent small.exponent)) := by
    have wide : 2 * weight 10 38 ≤ weight 10 39 := by decide
    have length := decimalLength_le_iff.mpr (short.trans_le wide)
    exact normal?_eq negative (by omega) (by omega)
  simp only [addAligned?, addAligned, alignedMantissa?_eq bigInside above bigBelow,
    alignedMantissa?_eq smallInside above smallBelow, Option.bind_eq_bind, Option.bind_some]
  generalize big.mantissa * alignFactor (big.exponent - min big.exponent small.exponent).toNat =
    left at *
  generalize small.mantissa * alignFactor (small.exponent - min big.exponent small.exponent).toNat =
    right at *
  split
  · have wide : 2 * weight 10 38 ≤ maximumMantissa := by decide
    rw [word?, if_pos (by omega)]
    exact normalised _ (by omega)
  · split
    · exact normalised _ (by omega)
    · exact normalised _ (by omega)

end Window

section Ordered

variable {big small : Decimal} (bigNormal : big.IsNormal) (smallNormal : small.IsNormal)
  (bigModerate : big.Moderate) (smallModerate : small.Moderate) (nonzero : big.isZero = false)
  (ordered : small.leadingExponent ≤ big.leadingExponent)

include bigNormal smallNormal bigModerate smallModerate nonzero ordered

theorem addOrdered?_eq : big.addOrdered? small = some (big.addOrdered small) := by
  have leading := bigModerate.leadingExponent
  have smallLeading := smallModerate.leadingExponent
  have lowest := bigModerate.lowest_eq
  obtain ⟨least, greatest⟩ := bigModerate.lowest_bounds
  have inside : big.lowest.natAbs ≤ 2147483647 := by
    simp only [minimumExponent, maximumExponent] at least greatest
    omega
  have low : big.leadingExponent - ((sumWidth : Int) - 1) = big.lowest := by
    simp only [sumWidth]
    omega
  simp only [addOrdered?, addOrdered, leadingExponent?_eq bigModerate,
    leadingExponent?_eq smallModerate, low, Option.bind_eq_bind, Option.bind_some,
    exponent?_of_bounds (show minimumExponent ≤ big.lowest by omega) (by omega),
    exponent?_of_bounds (show minimumExponent ≤ big.lowest - 1 by omega) (by omega),
    clamp_of_bounds (show minimumExponent ≤ big.lowest by omega) (by omega),
    clamp_of_bounds (show minimumExponent ≤ big.lowest - 1 by omega) (by omega),
    cutBelow?_eq bigModerate inside, cutBelow?_eq smallModerate inside]
  split
  · rfl
  · split
    · rfl
    · rename_i remains
      exact addAligned?_eq
        (inWindow_cutBelow bigNormal bigModerate inside (by omega)
          (cutBelow_lowest_nonzero bigModerate nonzero))
        (inWindow_cutBelow smallNormal smallModerate inside (by omega)
          (Bool.eq_false_iff.mpr remains))
        (by omega) (by omega)

end Ordered

section Laws

variable {left right : Decimal} (leftNormal : left.IsNormal) (rightNormal : right.IsNormal)
  (leftModerate : left.Moderate) (rightModerate : right.Moderate)

protected theorem zero_add (other : Decimal) : zero.add other = other :=
  rfl

protected theorem add_zero {other : Decimal} (normal : other.IsNormal) :
    other.add zero = other := by
  have none : zero.isZero = true := rfl
  cases isZero : other.isZero with
  | true => rw [normal.eq_zero isZero, Decimal.zero_add]
  | false => rw [add, if_neg (Bool.eq_false_iff.mp isZero), if_pos none]

include leftNormal rightNormal leftModerate rightModerate

/-- An addition does not overflow. -/
theorem add?_eq : left.add? right = some (left.add right) := by
  rw [add?, add]
  split
  · rfl
  · rename_i leftSome
    split
    · rfl
    · rename_i rightSome
      simp only [leadingExponent?_eq leftModerate, leadingExponent?_eq rightModerate,
        Option.bind_eq_bind, Option.bind_some]
      split
      · rename_i ordered
        exact addOrdered?_eq leftNormal rightNormal leftModerate rightModerate
          (Bool.eq_false_iff.mpr leftSome) ordered
      · exact addOrdered?_eq rightNormal leftNormal rightModerate leftModerate
          (Bool.eq_false_iff.mpr rightSome) (by omega)

/-- Operands that lead at one exponent may be taken in either order. -/
theorem addOrdered_comm (leftSome : left.isZero = false) (rightSome : right.isZero = false)
    (same : left.leadingExponent = right.leadingExponent) :
    left.addOrdered right = right.addOrdered left := by
  have units : left.lowest = right.lowest := by rw [lowest, lowest, same]
  refine (leftNormal.addOrdered right).eq_of_toRat_eq (rightNormal.addOrdered left) ?_
  have leftLeading := leftModerate.leadingExponent
  have rightLeading := rightModerate.leadingExponent
  have leftLowest := leftModerate.lowest_eq
  rw [toRat_addOrdered_of_reaching leftNormal rightNormal leftModerate rightModerate leftSome
      same.ge rightSome (by omega),
    toRat_addOrdered_of_reaching rightNormal leftNormal rightModerate leftModerate rightSome
      same.le leftSome (by omega), units, add_comm]

protected theorem add_comm : left.add right = right.add left := by
  cases leftZero : left.isZero with
  | true => rw [leftNormal.eq_zero leftZero, Decimal.zero_add, Decimal.add_zero rightNormal]
  | false =>
      cases rightZero : right.isZero with
      | true => rw [rightNormal.eq_zero rightZero, Decimal.zero_add, Decimal.add_zero leftNormal]
      | false =>
          simp only [add, leftZero, rightZero, Bool.false_eq_true, if_false]
          rcases lt_trichotomy left.leadingExponent right.leadingExponent with below | same | above
          · rw [if_neg (by omega), if_pos (by omega)]
          · rw [if_pos (by omega), if_pos (by omega)]
            exact addOrdered_comm leftNormal rightNormal leftModerate rightModerate leftZero
              rightZero same
          · rw [if_pos (by omega), if_neg (by omega)]

/-- A sum misses the exact one by at most the unit of the larger operand's window. -/
theorem abs_toRat_add_sub_le : |(left.add right).toRat - (left.toRat + right.toRat)| ≤
    10 ^ max left.lowest right.lowest := by
  have unit := ten_zpow_pos (max left.lowest right.lowest)
  rcases add_cases left right with ⟨isZero, same⟩ | ⟨isZero, same⟩ | ⟨leftSome, rightSome, sum⟩
  · rw [same, toRat_eq_zero_iff.mpr isZero, zero_add, sub_self, abs_zero]
    exact unit.le
  · rw [same, toRat_eq_zero_iff.mpr isZero, add_zero, sub_self, abs_zero]
    exact unit.le
  · rcases sum with ⟨ordered, same⟩ | ⟨ordered, same⟩
    · rw [same]
      exact (abs_addOrdered_sub_le leftNormal rightNormal leftModerate rightModerate leftSome
        ordered).trans (ten_zpow_mono (le_max_left _ _))
    · rw [same, add_comm left.toRat]
      exact (abs_addOrdered_sub_le rightNormal leftNormal rightModerate leftModerate rightSome
        ordered).trans (ten_zpow_mono (le_max_right _ _))

end Laws

section Difference

variable {decimal : Decimal}

/-- A number's digits are rounded alike with either sign, so nothing is left of a difference. -/
theorem sub_self_eq_zero (normal : decimal.IsNormal) (moderate : decimal.Moderate) :
    decimal.sub decimal = zero := by
  rw [sub]
  cases isZero : decimal.isZero with
  | true => rw [normal.eq_zero isZero, Decimal.zero_add]; rfl
  | false =>
      have some : decimal.negate.isZero = false := (isZero_negate decimal).trans isZero
      have same := leadingExponent_negate decimal
      refine (normal.add normal.negate).eq_zero (toRat_eq_zero_iff.mp ?_)
      simp only [add, isZero, some, Bool.false_eq_true, if_false]
      have reaches : decimal.lowest ≤ decimal.negate.exponent + decimal.negate.precision := by
        have leading := moderate.negate.leadingExponent
        rw [lowest]
        omega
      rw [if_pos same.le, toRat_addOrdered_of_reaching normal normal.negate moderate
        moderate.negate isZero same.le some reaches, toRat_negate, nearest_neg, add_neg_cancel]

/-- Addition of numbers of at most 38 digits does not overflow and does not depend on the order of
the operands. It is exact where no operand has digits below the window, and otherwise misses the
exact sum by at most the window's unit. A zero on either side changes nothing; subtraction adds the
opposite, and equal numbers leave nothing. -/
theorem add_within_window {left right : Decimal} (leftNormal : left.IsNormal)
    (rightNormal : right.IsNormal) (leftModerate : left.Moderate) (rightModerate : right.Moderate) :
    left.add? right = some (left.add right) ∧ left.add right = right.add left ∧
    (max left.lowest right.lowest ≤ left.exponent → max left.lowest right.lowest ≤ right.exponent →
      (left.add right).toRat = left.toRat + right.toRat) ∧
    |(left.add right).toRat - (left.toRat + right.toRat)| ≤ 10 ^ max left.lowest right.lowest ∧
    (∀ other : Decimal, other.IsNormal → zero.add other = other ∧ other.add zero = other) ∧
    left.sub right = left.add right.negate ∧
    (left.toRat = right.toRat → left.sub right = zero) := by
  refine ⟨add?_eq leftNormal rightNormal leftModerate rightModerate,
    Decimal.add_comm leftNormal rightNormal leftModerate rightModerate,
    toRat_add leftNormal rightNormal leftModerate rightModerate,
    abs_toRat_add_sub_le leftNormal rightNormal leftModerate rightModerate,
    fun other normal => ⟨Decimal.zero_add other, Decimal.add_zero normal⟩, rfl, fun same => ?_⟩
  rw [← leftNormal.eq_of_toRat_eq rightNormal same]
  exact sub_self_eq_zero leftNormal leftModerate

/-- One and a half and a quarter. -/
theorem add_within_window_quarters :
    add? ⟨false, 15, -1⟩ ⟨false, 25, -2⟩ = some ⟨false, 175, -2⟩ ∧
      add ⟨false, 25, -2⟩ ⟨false, 15, -1⟩ = ⟨false, 175, -2⟩ ∧
      sub ⟨false, 15, -1⟩ ⟨false, 15, -1⟩ = zero := by
  have short (negative : Bool) {mantissa : Nat} (exponent : Int) (few : mantissa < 100) :
      precision ⟨negative, mantissa, exponent⟩ ≤ 2 := decimalLength_le_iff.mpr few
  have leftShort := short false (-1) (show 15 < 100 by decide)
  have rightShort := short false (-2) (show 25 < 100 by decide)
  have leftNormal : IsNormal ⟨false, 15, -1⟩ := Or.inr (by decide)
  have rightNormal : IsNormal ⟨false, 25, -2⟩ := Or.inr (by decide)
  have leftModerate : Moderate ⟨false, 15, -1⟩ :=
    ⟨leftShort.trans (by decide), by decide, by decide⟩
  have rightModerate : Moderate ⟨false, 25, -2⟩ :=
    ⟨rightShort.trans (by decide), by decide, by decide⟩
  have leftLowest : lowest ⟨false, 15, -1⟩ = -1 + _ - 36 := leftModerate.lowest_eq
  have rightLowest : lowest ⟨false, 25, -2⟩ = -2 + _ - 36 := rightModerate.lowest_eq
  obtain ⟨checked, commutes, exact, -⟩ :=
    add_within_window leftNormal rightNormal leftModerate rightModerate
  have sum : add ⟨false, 15, -1⟩ ⟨false, 25, -2⟩ = ⟨false, 175, -2⟩ := by
    refine (leftNormal.add rightNormal).eq_of_toRat_eq (Or.inr (by decide)) ?_
    rw [exact (show max _ _ ≤ (-1 : ℤ) by omega) (show max _ _ ≤ (-2 : ℤ) by omega)]
    norm_num [toRat, magnitude, signed]
  exact ⟨checked.trans (congrArg some sum), commutes.symm.trans sum,
    (add_within_window leftNormal leftNormal leftModerate leftModerate).2.2.2.2.2.2 rfl⟩

end Difference

end LedgerWire.Decimal
