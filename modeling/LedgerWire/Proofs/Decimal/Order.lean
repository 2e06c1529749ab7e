import LedgerWire.Proofs.Decimal.Addition
import Mathlib.Order.Compare

namespace LedgerWire.Decimal

open Positional

/-!
Equality and order of decimals. Whatever operations a decimal comes from, it is in normal form, so
that two decimals that denote one number are equal. The order found from signs, leading digits and
mantissas of one length is that of the numbers, and no mantissa outgrows its word on the way.
-/

section Built

/-- The decimals that constructors, the reader and operations answer. -/
inductive Built : Decimal → Prop where
  | normal (negative : Bool) (mantissa : Nat) (exponent : Int) :
      Built (Decimal.normal negative mantissa exponent)
  | ofInt (number : Int) : Built (Decimal.ofInt number)
  | parse {text : String} {decimal : Decimal} (parsed : Decimal.parse text = .ok decimal) :
      Built decimal
  | abs {operand : Decimal} (built : Built operand) : Built operand.abs
  | negate {operand : Decimal} (built : Built operand) : Built operand.negate
  | shift {operand : Decimal} (built : Built operand) (places : Int) : Built (operand.shift places)
  | roundSignificant {operand : Decimal} (built : Built operand) (digits : Nat) :
      Built (operand.roundSignificant digits)
  | roundScale {operand : Decimal} (built : Built operand) (scale : Int) :
      Built (operand.roundScale scale)
  | add {left right : Decimal} (leftBuilt : Built left) (rightBuilt : Built right) :
      Built (left.add right)
  | sub {left right : Decimal} (leftBuilt : Built left) (rightBuilt : Built right) :
      Built (left.sub right)
  | mul {left right : Decimal} (leftBuilt : Built left) (rightBuilt : Built right) :
      Built (left.mul right)
  | div {left right quotient : Decimal} {digits : Nat} (leftBuilt : Built left)
      (rightBuilt : Built right) (divided : left.div right digits = .ok quotient) : Built quotient

theorem Built.isNormal {decimal : Decimal} (built : Built decimal) : decimal.IsNormal := by
  induction built with
  | normal negative mantissa exponent => exact isNormal_normal negative mantissa exponent
  | ofInt number => exact isNormal_ofInt number
  | parse parsed => exact isNormal_parse parsed
  | abs _ operand => exact operand.abs
  | negate _ operand => exact operand.negate
  | shift _ places operand => exact operand.shift places
  | roundSignificant _ digits operand => exact operand.roundSignificant digits
  | roundScale _ scale operand => exact operand.roundScale scale
  | add _ _ left right => exact left.add right
  | sub _ _ left right => exact left.add right.negate
  | mul => exact isNormal_mul _ _
  | div _ _ divided => exact isNormal_div divided

end Built

section Checked

/-- The mantissa lengthened to so many digits. -/
def lengthened? (decimal : Decimal) (width : Nat) : Option Nat := do
  let factor ← word? (weight 10 (width - decimal.precision))
  word? (decimal.mantissa * factor)

def compareMagnitude? (left right : Decimal) : Option Ordering := do
  let leftLeading ← left.leadingExponent?
  let rightLeading ← right.leadingExponent?
  match Ord.compare leftLeading rightLeading with
  | .eq =>
    let width := max left.precision right.precision
    let leftDigits ← left.lengthened? width
    let rightDigits ← right.lengthened? width
    return Ord.compare leftDigits rightDigits
  | unequal => return unequal

/-- The order in words. -/
def compare? (left right : Decimal) : Option Ordering :=
  if left.sign ≠ right.sign ∨ left.sign = 0 then some (Ord.compare left.sign right.sign)
  else if left.sign < 0 then (compareMagnitude? left right).map Ordering.swap
  else compareMagnitude? left right

end Checked

/-- At most 38 digits, the first of them at an exponent in range. -/
structure Comparable (decimal : Decimal) : Prop where
  narrow : decimal.precision ≤ 38
  lower : minimumExponent ≤ decimal.exponent + decimal.precision - 1
  upper : decimal.exponent + decimal.precision - 1 ≤ maximumExponent

section Magnitudes

variable {decimal left right : Decimal} {width : Nat}

theorem Comparable.leadingExponent (comparable : decimal.Comparable) :
    decimal.leadingExponent = decimal.exponent + decimal.precision - 1 := by
  rw [Decimal.leadingExponent, ← Int.add_sub_assoc, clamp_of_bounds comparable.lower comparable.upper]

theorem Comparable.leadingExponent?_eq (comparable : decimal.Comparable) :
    decimal.leadingExponent? = some decimal.leadingExponent := by
  rw [comparable.leadingExponent, leadingExponent?, ← Int.add_sub_assoc,
    exponent?_of_bounds comparable.lower comparable.upper]

/-- A mantissa lengthened to at most 38 digits fits a word. -/
theorem lengthened?_eq (long : decimal.precision ≤ width) (narrow : width ≤ 38) :
    decimal.lengthened? width =
      some (decimal.mantissa * alignFactor (width - decimal.precision)) := by
  have short : decimal.mantissa * weight 10 (width - decimal.precision) < weight 10 38 :=
    calc decimal.mantissa * weight 10 (width - decimal.precision)
        < weight 10 decimal.precision * weight 10 (width - decimal.precision) :=
          Nat.mul_lt_mul_of_pos_right (lt_weight_decimalLength _) (weight_pos (by decide) _)
      _ = weight 10 width := by rw [← weight_add, Nat.add_sub_cancel' long]
      _ ≤ weight 10 38 := weight_mono (by decide) narrow
  rw [alignFactor, if_pos (by omega)]
  simp only [lengthened?, word?_weight (show width - decimal.precision ≤ 38 by omega),
    word?_of_lt short, Option.bind_eq_bind, Option.bind_some]

/-- The units that a lengthened mantissa counts depend on the leading exponent alone. -/
theorem magnitude_lengthened (long : decimal.precision ≤ width) (narrow : width ≤ 38) :
    decimal.magnitude = (decimal.mantissa * alignFactor (width - decimal.precision) : Nat) *
      10 ^ (decimal.exponent + decimal.precision - width) := by
  rw [alignFactor, if_pos (by omega), scaled_mul_ten_zpow, magnitude]
  congr 2
  omega

theorem magnitude_lt_of_leading (rightSome : right.isZero = false)
    (leads : left.exponent + left.precision < right.exponent + right.precision) :
    left.magnitude < right.magnitude :=
  calc left.magnitude < 10 ^ (left.exponent + left.precision) := left.magnitude_lt
    _ ≤ 10 ^ (right.exponent + right.precision - 1) := ten_zpow_mono (by omega)
    _ ≤ right.magnitude := ten_zpow_le_magnitude rightSome

theorem compares_units {unit : ℚ} (positive : 0 < unit) (left right : Nat) :
    (Ord.compare left right).Compares (left * unit) (right * unit) := by
  cases order : Ord.compare left right with
  | lt => exact mul_lt_mul_of_pos_right (Nat.cast_lt.mpr (Nat.compare_eq_lt.mp order)) positive
  | eq => exact congrArg (· * unit) (congrArg Nat.cast (Nat.compare_eq_eq.mp order))
  | gt => exact mul_lt_mul_of_pos_right (Nat.cast_lt.mpr (Nat.compare_eq_gt.mp order)) positive

variable (leftComparable : left.Comparable) (rightComparable : right.Comparable)

include leftComparable rightComparable

theorem compareMagnitude?_eq :
    compareMagnitude? left right = some (compareMagnitude left right) := by
  have leftNarrow := leftComparable.narrow
  have rightNarrow := rightComparable.narrow
  have narrow : max left.precision right.precision ≤ 38 := max_le leftNarrow rightNarrow
  simp only [compareMagnitude?, compareMagnitude, leftComparable.leadingExponent?_eq,
    rightComparable.leadingExponent?_eq, lengthened?_eq (le_max_left _ _) narrow,
    lengthened?_eq (le_max_right _ _) narrow, Option.bind_eq_bind, Option.bind_some]
  cases Ord.compare left.leadingExponent right.leadingExponent <;> rfl

/-- A number that leads higher is larger; numbers that lead at one exponent compare by their
digits. -/
theorem compares_magnitude (leftSome : left.isZero = false) (rightSome : right.isZero = false) :
    (compareMagnitude left right).Compares left.magnitude right.magnitude := by
  have leftLeads := leftComparable.leadingExponent
  have rightLeads := rightComparable.leadingExponent
  have narrow : max left.precision right.precision ≤ 38 :=
    max_le leftComparable.narrow rightComparable.narrow
  simp only [compareMagnitude]
  cases order : Ord.compare left.leadingExponent right.leadingExponent with
  | lt =>
      rw [Int.compare_eq_lt] at order
      exact magnitude_lt_of_leading rightSome (show _ < _ by omega)
  | gt =>
      rw [Int.compare_eq_gt] at order
      exact magnitude_lt_of_leading leftSome (show _ < _ by omega)
  | eq =>
      rw [Int.compare_eq_eq] at order
      have units : left.exponent + left.precision = right.exponent + right.precision := by omega
      rw [magnitude_lengthened (le_max_left _ _) narrow, units,
        magnitude_lengthened (le_max_right left.precision _) narrow]
      exact compares_units (ten_zpow_pos _) _ _

end Magnitudes

section Signs

variable {decimal left right : Decimal}

theorem sign_of_zero (isZero : decimal.isZero = true) : decimal.sign = 0 :=
  if_pos isZero

theorem sign_of_nonzero (some : decimal.isZero = false) :
    decimal.sign = if decimal.negative then -1 else 1 :=
  if_neg (Bool.eq_false_iff.mp some)

theorem isZero_of_sign (nonzero : decimal.sign ≠ 0) : decimal.isZero = false :=
  Bool.eq_false_iff.mpr fun isZero => nonzero (sign_of_zero isZero)

theorem toRat_eq_sign (decimal : Decimal) : decimal.toRat = decimal.sign * decimal.magnitude := by
  cases isZero : decimal.isZero with
  | true => rw [toRat_eq_zero_iff.mpr isZero, sign_of_zero isZero, Int.cast_zero, zero_mul]
  | false =>
      rw [toRat, sign_of_nonzero isZero]
      cases decimal.negative <;> simp

theorem sign_bounds (decimal : Decimal) : -1 ≤ decimal.sign ∧ decimal.sign ≤ 1 := by
  rw [sign]
  split
  · omega
  · split <;> omega

theorem toRat_lt_of_sign_lt (less : left.sign < right.sign) : left.toRat < right.toRat := by
  obtain ⟨least, _⟩ := left.sign_bounds
  obtain ⟨_, most⟩ := right.sign_bounds
  rw [toRat_eq_sign left, toRat_eq_sign right]
  rcases lt_or_ge left.sign 0 with below | above
  · have leftSign : left.sign = -1 := by omega
    have positive := magnitude_pos (isZero_of_sign below.ne)
    have nonnegative : (0 : ℚ) ≤ right.sign := by exact_mod_cast (by omega : 0 ≤ right.sign)
    have atLeast := mul_nonneg nonnegative right.magnitude_nonneg
    rw [leftSign, Int.cast_neg, Int.cast_one, neg_one_mul]
    linarith
  · have leftSign : left.sign = 0 := by omega
    have rightSign : right.sign = 1 := by omega
    have positive := magnitude_pos (isZero_of_sign (by omega : right.sign ≠ 0))
    rwa [leftSign, rightSign, Int.cast_zero, zero_mul, Int.cast_one, one_mul]

/-- Opposite numbers stand in the opposite order. -/
theorem compares_neg {order : Ordering} {less more : ℚ} (compares : order.Compares less more) :
    order.swap.Compares (-less) (-more) := by
  rw [Ordering.compares_swap]
  cases order with
  | lt => exact neg_lt_neg compares
  | eq => exact congrArg Neg.neg compares.symm
  | gt => exact neg_lt_neg compares

variable (leftComparable : left.Comparable) (rightComparable : right.Comparable)

include leftComparable rightComparable

/-- The comparison finds the order of the numbers. -/
theorem compares_toRat : (left.compare right).Compares left.toRat right.toRat := by
  rw [compare]
  split
  · rename_i decided
    cases order : Ord.compare left.sign right.sign with
    | lt => exact toRat_lt_of_sign_lt (Int.compare_eq_lt.mp order)
    | gt => exact toRat_lt_of_sign_lt (Int.compare_eq_gt.mp order)
    | eq =>
        have same := Int.compare_eq_eq.mp order
        have none : left.sign = 0 := decided.resolve_left (not_not_intro same)
        show left.toRat = right.toRat
        rw [toRat_eq_sign left, toRat_eq_sign right, ← same, none, Int.cast_zero, zero_mul, zero_mul]
  · rename_i alike
    rw [not_or, not_not] at alike
    obtain ⟨same, nonzero⟩ := alike
    obtain ⟨least, most⟩ := left.sign_bounds
    have magnitudes := compares_magnitude leftComparable rightComparable (isZero_of_sign nonzero)
      (isZero_of_sign (same ▸ nonzero))
    rw [toRat_eq_sign left, toRat_eq_sign right, ← same]
    split
    · have negative : left.sign = -1 := by omega
      rw [negative, Int.cast_neg, Int.cast_one, neg_one_mul, neg_one_mul]
      exact compares_neg magnitudes
    · have positive : left.sign = 1 := by omega
      rwa [positive, Int.cast_one, one_mul, one_mul]

theorem compare?_eq : left.compare? right = some (left.compare right) := by
  rw [compare?, compare, compareMagnitude?_eq leftComparable rightComparable]
  split
  · rfl
  · split <;> rfl

end Signs

/-- Every decimal that is built is in normal form. Of such decimals, with at most 38 digits and a
leading exponent in range, those that denote one number are equal; the comparison does not overflow
and answers the order of the numbers, so that it is total and transitive and finds equal ones
alone equal. -/
theorem order_is_numeric :
    (∀ decimal : Decimal, Built decimal → decimal.IsNormal) ∧
    ∀ left right other : Decimal, Built left → Built right → Built other →
      left.Comparable → right.Comparable → other.Comparable →
        (left = right ↔ left.toRat = right.toRat) ∧
        left.compare? right = some (left.compare right) ∧
        left.compare right = cmp left.toRat right.toRat ∧
        (left.compare right = .eq ↔ left = right) ∧
        right.compare left = (left.compare right).swap ∧
        (left.compare right ≠ .gt → right.compare other ≠ .gt → left.compare other ≠ .gt) := by
  refine ⟨fun _ built => built.isNormal, ?_⟩
  intro left right other leftBuilt rightBuilt otherBuilt leftComparable rightComparable
    otherComparable
  have compares := compares_toRat leftComparable rightComparable
  have onward := compares_toRat rightComparable otherComparable
  have across := compares_toRat leftComparable otherComparable
  have backward := compares_toRat rightComparable leftComparable
  have equal : left = right ↔ left.toRat = right.toRat :=
    ⟨congrArg toRat, leftBuilt.isNormal.eq_of_toRat_eq rightBuilt.isNormal⟩
  refine ⟨equal, compare?_eq leftComparable rightComparable, compares.cmp_eq.symm,
    compares.eq_eq.trans equal.symm, backward.inj compares.swap, fun first second => ?_⟩
  exact across.ne_gt.mpr ((compares.ne_gt.mp first).trans (onward.ne_gt.mp second))

/-- The mantissa of a hundred is one, and ninety-nine is still less. -/
theorem order_is_numeric_hundred :
    Built (ofInt 99) ∧ Built (ofInt 100) ∧ (ofInt 99).Comparable ∧ (ofInt 100).Comparable ∧
      (ofInt 100).mantissa = 1 ∧ (ofInt 99).compare? (ofInt 100) = some .lt := by
  have ninetyNine : ofInt 99 = ⟨false, 99, 0⟩ := @normal_scaled false 99 (by decide) 0 0 (by decide)
  have hundred : ofInt 100 = ⟨false, 1, 2⟩ := @normal_scaled false 1 (by decide) 2 0 (by decide)
  have comparable (exponent : Int) (near : exponent.natAbs ≤ 2) {mantissa : Nat}
      (few : mantissa < 100) : Comparable ⟨false, mantissa, exponent⟩ := by
    have short : precision ⟨false, mantissa, exponent⟩ ≤ 2 := decimalLength_le_iff.mpr few
    exact ⟨short.trans (by decide), by simp only [minimumExponent]; omega,
      by simp only [maximumExponent]; omega⟩
  have less : (ofInt 99).Comparable := ninetyNine ▸ comparable 0 (by decide) (by decide)
  have more : (ofInt 100).Comparable := hundred ▸ comparable 2 (by decide) (by decide)
  obtain ⟨-, checked, numeric, -⟩ := order_is_numeric.2 (ofInt 99) (ofInt 100) (ofInt 100)
    (Built.ofInt 99) (Built.ofInt 100) (Built.ofInt 100) less more more
  refine ⟨Built.ofInt 99, Built.ofInt 100, less, more, by rw [hundred], ?_⟩
  have ordered : (ofInt 99).toRat < (ofInt 100).toRat := by
    rw [ninetyNine, hundred]
    norm_num [toRat, magnitude, signed]
  rw [checked, numeric, ordered.cmp_eq_lt]

end LedgerWire.Decimal
