import LedgerWire.Proofs.Decimal.Rounding
import Mathlib.Order.Monotone.Odd

namespace LedgerWire

/-!
Laws of rounding. The nearest multiple of a unit is characterised by its distance alone, with the
larger magnitude on a tie, and a larger number never rounds to a smaller one, although the unit of
rounding to significant digits grows with the number. Both roundings of decimals are nearest in
this sense, keep what is a multiple already, and treat opposite numbers alike.
-/

/-- A multiple of a unit that no other is nearer to a number than, and that no other as near
exceeds in magnitude. -/
structure IsNearest (unit number rounded : ℚ) : Prop where
  multiple : ∃ count : ℤ, rounded = count * unit
  closest : ∀ count : ℤ, |rounded - number| ≤ |count * unit - number|
  away : ∀ count : ℤ, |count * unit - number| = |rounded - number| → |count * unit| ≤ |rounded|

section Nearest

variable {unit number rounded : ℚ}

/-- What a number rounds to is mirrored with it. -/
theorem IsNearest.neg (isNearest : IsNearest unit number rounded) :
    IsNearest unit (-number) (-rounded) := by
  have mirrored (count : ℤ) :
      |(count : ℚ) * unit - -number| = |((-count : ℤ) : ℚ) * unit - number| := by
    rw [← abs_neg]
    push_cast
    ring_nf
  have opposite : |-rounded - -number| = |rounded - number| := by
    rw [← abs_neg]
    ring_nf
  obtain ⟨count, same⟩ := isNearest.multiple
  refine ⟨⟨-count, by rw [same, Int.cast_neg, neg_mul]⟩, fun other => ?_, fun other tie => ?_⟩
  · rw [opposite, mirrored]
    exact isNearest.closest (-other)
  · rw [mirrored, opposite] at tie
    have bounded := isNearest.away (-other) tie
    rw [Int.cast_neg, neg_mul, abs_neg] at bounded
    rwa [abs_neg]

variable (positive : 0 < unit)

include positive

/-- The multiple whose surrounding half units hold a number, the upper end excluded. -/
theorem isNearest_of_bounds {count : ℤ} (nonnegative : 0 ≤ number)
    (lower : (count - 1 / 2) * unit ≤ number) (upper : number < (count + 1 / 2) * unit) :
    IsNearest unit number (count * unit) := by
  have near : |count * unit - number| ≤ unit / 2 := by
    rw [abs_le]
    constructor <;> linarith
  -- Other multiples lie a whole unit off, on either side.
  have below (other : ℤ) (less : other < count) : (other : ℚ) * unit + unit ≤ count * unit := by
    have next : (other : ℚ) + 1 ≤ count := by exact_mod_cast less
    linarith [mul_le_mul_of_nonneg_right next positive.le]
  have above (other : ℤ) (more : count < other) : (count : ℚ) * unit + unit ≤ other * unit := by
    have next : (count : ℚ) + 1 ≤ other := by exact_mod_cast more
    linarith [mul_le_mul_of_nonneg_right next positive.le]
  refine ⟨⟨count, rfl⟩, fun other => ?_, fun other tie => ?_⟩
  · rcases lt_trichotomy other count with less | rfl | more
    · have apart := below other less
      exact near.trans (le_abs.mpr (Or.inr (by linarith)))
    · exact le_rfl
    · have apart := above other more
      exact near.trans (le_abs.mpr (Or.inl (by linarith)))
  · rcases lt_trichotomy other count with less | rfl | more
    · have apart := below other less
      rw [abs_of_nonpos (show (other : ℚ) * unit - number ≤ 0 by linarith)] at tie
      have reached : (count : ℚ) * unit - number = number - other * unit := by
        linarith [le_abs_self ((count : ℚ) * unit - number)]
      rw [abs_of_nonneg (show (0 : ℚ) ≤ count * unit by linarith), abs_le]
      constructor <;> linarith
    · exact le_rfl
    · have apart := above other more
      rw [← tie] at near
      linarith [le_abs_self ((other : ℚ) * unit - number)]

theorem isNearest_nearest (number : ℚ) : IsNearest unit number (nearest unit number) := by
  have upward (number : ℚ) (nonnegative : 0 ≤ number) :
      IsNearest unit number (nearest unit number) := by
    obtain ⟨count, rounded, lower, upper⟩ := exists_nearest positive nonnegative
    rw [rounded]
    exact isNearest_of_bounds positive nonnegative lower upper
  rcases le_or_gt 0 number with above | below
  · exact upward number above
  · have mirrored := (upward (-number) (neg_pos.mpr below).le).neg
    rwa [nearest_neg, neg_neg, neg_neg] at mirrored

theorem nearest_mono : Monotone (nearest unit) := by
  refine monotone_of_odd_of_monotoneOn_nonneg (nearest_neg unit) fun less nonnegative more _ ordered => ?_
  rw [nearest_of_nonneg nonnegative, nearest_of_nonneg (le_trans nonnegative ordered)]
  have divided := div_le_div_of_nonneg_right ordered positive.le
  have counts : round (less / unit) ≤ round (more / unit) := by
    rw [round_eq, round_eq]
    exact Int.floor_le_floor (by linarith)
  exact mul_le_mul_of_nonneg_right (Int.cast_le.mpr counts) positive.le

end Nearest

/-- Rounding to digits keeps the order also where the larger number has the coarser unit: the power
of ten between them is not passed from either side. -/
theorem nearestDigits_mono {digits : ℕ} (some : 0 < digits) : Monotone (nearestDigits digits) := by
  refine monotone_of_odd_of_monotoneOn_nonneg (nearestDigits_signed digits true)
    fun less nonnegative more _ ordered => ?_
  have nonnegative : 0 ≤ less := nonnegative
  have moreNonnegative : 0 ≤ more := nonnegative.trans ordered
  rcases nonnegative.eq_or_lt with rfl | positive
  · rw [nearestDigits_zero]
    exact nearest_nonneg (ten_zpow_pos _) moreNonnegative
  · have morePositive := positive.trans_le ordered
    have leads : Int.log 10 less ≤ Int.log 10 more := Int.log_mono_right positive ordered
    rcases leads.eq_or_lt with same | lower
    · rw [nearestDigits, nearestDigits, abs_of_pos positive, abs_of_pos morePositive, same]
      exact nearest_mono (ten_zpow_pos _) ordered
    · have most := abs_nearestDigits_le digits less
      have least := ten_zpow_le_nearestDigits some morePositive.ne'
      have between : (10 : ℚ) ^ (Int.log 10 less + 1) ≤ 10 ^ Int.log 10 more :=
        ten_zpow_mono (by omega)
      have rounded : 0 ≤ nearestDigits digits more :=
        nearest_nonneg (ten_zpow_pos _) moreNonnegative
      rw [abs_of_pos positive] at most
      rw [abs_of_pos morePositive, abs_of_nonneg rounded] at least
      exact (le_abs_self _).trans (most.trans (between.trans least))

namespace Decimal

open Positional

/-- At most 38 digits in normal form, with room above them in the range of exponents. -/
structure Roundable (decimal : Decimal) : Prop where
  isNormal : decimal.IsNormal
  narrow : decimal.precision ≤ 38
  lower : minimumExponent ≤ decimal.exponent
  upper : decimal.exponent + decimal.precision < maximumExponent

/-- A rounding answers the nearest multiple of a unit in normal form, and the number itself if it is
one. It changes nothing the second time and treats the opposite number alike. -/
structure RoundsToUnit (unit : ℚ) (round : Decimal → Decimal) (decimal : Decimal) : Prop where
  isNormal : (round decimal).IsNormal
  isNearest : IsNearest unit decimal.toRat (round decimal).toRat
  fixed : (∃ count : ℤ, decimal.toRat = count * unit) → round decimal = decimal
  idempotent : round (round decimal) = round decimal
  negate : round decimal.negate = (round decimal).negate

/-- What rounding the number of a decimal, and of its opposite, tells of the decimal. -/
theorem roundsToUnit {unit : ℚ} {round : Decimal → Decimal} {decimal : Decimal} (positive : 0 < unit)
    (normal : decimal.IsNormal) (kept : ∀ operand, operand.IsNormal → (round operand).IsNormal)
    (rounded : (round decimal).toRat = nearest unit decimal.toRat)
    (opposite : (round decimal.negate).toRat = nearest unit decimal.negate.toRat)
    (again : round (round decimal) = round decimal) : RoundsToUnit unit round decimal where
  isNormal := kept decimal normal
  isNearest := rounded ▸ isNearest_nearest positive decimal.toRat
  fixed := by
    rintro ⟨count, multiple⟩
    refine (kept decimal normal).eq_of_toRat_eq normal ?_
    rw [rounded, multiple, nearest_multiple positive]
  idempotent := again
  negate := by
    refine (kept _ normal.negate).eq_of_toRat_eq (kept _ normal).negate ?_
    rw [opposite, toRat_negate, nearest_neg, toRat_negate, rounded]

section Roundable

variable {decimal : Decimal} (roundable : decimal.Roundable)

include roundable

theorem Roundable.inRange : decimal.InRange :=
  ⟨roundable.lower, roundable.upper.le⟩

theorem Roundable.negate : decimal.negate.Roundable := by
  have kept : decimal.negate.precision = decimal.precision ∧
      decimal.negate.exponent = decimal.exponent := by
    rw [Decimal.negate]
    split <;> exact ⟨rfl, rfl⟩
  obtain ⟨isNormal, narrow, lower, upper⟩ := roundable
  exact ⟨isNormal.negate, by omega, by omega, by omega⟩

theorem Roundable.mantissa_le : decimal.mantissa ≤ maximumMantissa := by
  have short := decimalLength_le_iff.mp roundable.narrow
  have wide : weight 10 38 ≤ maximumMantissa := by decide
  omega

theorem Roundable.leadingExponent (nonzero : decimal.isZero = false) :
    decimal.leadingExponent = decimal.exponent + decimal.precision - 1 := by
  have some := precision_pos nonzero
  obtain ⟨_, _, lower, upper⟩ := roundable
  rw [Decimal.leadingExponent, clamp_of_bounds (by omega) (by omega)]
  omega

end Roundable

section Significant

variable {decimal other : Decimal} {digits : Nat} (roundable : decimal.Roundable)
  (some : 0 < digits)

include roundable some

theorem toRat_roundSignificant_unit : (decimal.roundSignificant digits).toRat =
    nearest (10 ^ (decimal.leadingExponent + 1 - digits)) decimal.toRat := by
  have narrow := roundable.narrow
  rw [toRat_roundSignificant roundable.inRange some (by omega)]
  cases isZero : decimal.isZero with
  | true => rw [toRat_eq_zero_iff.mpr isZero, nearestDigits_zero, nearest_zero]
  | false => rw [nearestDigits, log_toRat isZero, roundable.leadingExponent isZero]

theorem roundsToUnit_roundSignificant :
    RoundsToUnit (10 ^ (decimal.leadingExponent + 1 - digits)) (roundSignificant · digits)
      decimal := by
  have opposite := toRat_roundSignificant_unit roundable.negate some
  rw [leadingExponent_negate] at opposite
  refine roundsToUnit (ten_zpow_pos _) roundable.isNormal (fun _ normal => normal.roundSignificant _)
    (toRat_roundSignificant_unit roundable some) opposite ?_
  exact roundSignificant_of_precision_le (precision_roundSignificant_le roundable.mantissa_le some)

theorem roundSignificant_mono (otherRoundable : other.Roundable)
    (ordered : decimal.toRat ≤ other.toRat) :
    (decimal.roundSignificant digits).toRat ≤ (other.roundSignificant digits).toRat := by
  have narrow := roundable.narrow
  have otherNarrow := otherRoundable.narrow
  rw [toRat_roundSignificant roundable.inRange some (by omega),
    toRat_roundSignificant otherRoundable.inRange some (by omega)]
  exact nearestDigits_mono some ordered

end Significant

section Scale

variable {decimal other : Decimal} (scale : ℤ)

/-- A multiple of the unit has no digits to drop. -/
theorem roundScale_of_multiple {scale count : ℤ} (normal : decimal.IsNormal)
    (multiple : decimal.toRat = count * 10 ^ (-scale)) (floor : clamp (-scale) ≤ -scale) :
    decimal.roundScale scale = decimal := by
  cases isZero : decimal.isZero with
  | true => exact if_pos (Or.inl isZero)
  | false =>
      have below : |decimal.toRat| < 10 ^ (decimal.exponent + decimal.precision) := by
        rw [abs_toRat]
        exact decimal.magnitude_lt
      exact if_pos (Or.inr (floor.trans (normal.exponent_bounds isZero multiple below).1))

variable (roundable : decimal.Roundable)

include roundable

theorem Roundable.toRat_roundScale :
    (decimal.roundScale scale).toRat = nearest (10 ^ (-scale)) decimal.toRat :=
  Decimal.toRat_roundScale roundable.inRange roundable.narrow (Or.inr roundable.upper)

theorem roundScale_roundScale :
    (decimal.roundScale scale).roundScale scale = decimal.roundScale scale := by
  have floor : clamp (-scale) = max minimumExponent (min maximumExponent (-scale)) := rfl
  rcases le_or_gt minimumExponent (-scale) with inside | below
  · obtain ⟨count, multiple⟩ := exists_count (10 ^ (-scale)) decimal.toRat
    rw [← roundable.toRat_roundScale] at multiple
    exact roundScale_of_multiple (roundable.isNormal.roundScale scale) multiple (by omega)
  · have lower := roundable.lower
    have kept : decimal.roundScale scale = decimal :=
      if_pos (Or.inr (show clamp (-scale) ≤ decimal.exponent by omega))
    rw [kept, kept]

theorem roundsToUnit_roundScale :
    RoundsToUnit (10 ^ (-scale)) (roundScale · scale) decimal :=
  roundsToUnit (ten_zpow_pos _) roundable.isNormal (fun _ normal => normal.roundScale _)
    (roundable.toRat_roundScale scale) (roundable.negate.toRat_roundScale scale)
    (roundScale_roundScale scale roundable)

theorem roundScale_mono (otherRoundable : other.Roundable)
    (ordered : decimal.toRat ≤ other.toRat) :
    (decimal.roundScale scale).toRat ≤ (other.roundScale scale).toRat := by
  rw [roundable.toRat_roundScale, otherRoundable.toRat_roundScale]
  exact nearest_mono (ten_zpow_pos _) ordered

end Scale

/-- Rounding to significant digits and to places answers the nearest multiple of the target unit,
of two the one of larger magnitude, and a multiple as it is, in normal form. Both are idempotent,
commute with the change of sign and keep the order of numbers; rounding to digits leaves something
of every number but zero. -/
theorem rounding_is_nearest {decimal other : Decimal} (roundable : decimal.Roundable)
    (otherRoundable : other.Roundable) {digits : Nat} (some : 0 < digits) (scale : ℤ) :
    RoundsToUnit (10 ^ (decimal.leadingExponent - digits + 1)) (roundSignificant · digits) decimal ∧
    RoundsToUnit (10 ^ (-scale)) (roundScale · scale) decimal ∧
    (decimal.toRat ≤ other.toRat →
      (decimal.roundSignificant digits).toRat ≤ (other.roundSignificant digits).toRat ∧
      (decimal.roundScale scale).toRat ≤ (other.roundScale scale).toRat) ∧
    (decimal.toRat ≠ 0 → (decimal.roundSignificant digits).toRat ≠ 0) := by
  refine ⟨?_, roundsToUnit_roundScale scale roundable, fun ordered =>
    ⟨roundSignificant_mono roundable some otherRoundable ordered,
      roundScale_mono scale roundable otherRoundable ordered⟩, fun nonzero => ?_⟩
  · rw [sub_add_eq_add_sub]
    exact roundsToUnit_roundSignificant roundable some
  · rwa [ne_eq, toRat_eq_zero_iff, isZero_roundSignificant roundable.mantissa_le some,
      ← toRat_eq_zero_iff]

/-- Fifteen is halfway between the tens, and its opposite rounds away from zero too. -/
theorem rounding_is_nearest_fifteen :
    Roundable ⟨false, 15, 0⟩ ∧ Roundable ⟨true, 15, 0⟩ ∧
      IsNearest 10 15 (roundSignificant ⟨false, 15, 0⟩ 1).toRat ∧
      roundSignificant ⟨true, 15, 0⟩ 1 = (roundSignificant ⟨false, 15, 0⟩ 1).negate ∧
      (roundScale ⟨true, 15, 0⟩ (-1)).toRat ≤ (roundScale ⟨false, 15, 0⟩ (-1)).toRat := by
  have length : decimalLength 15 = 2 :=
    le_antisymm (decimalLength_le_iff.mpr (by decide))
      (Nat.lt_of_not_le (mt decimalLength_le_iff.mp (by decide)))
  have two (negative : Bool) : precision ⟨negative, 15, 0⟩ = 2 := length
  have roundable (negative : Bool) : Roundable ⟨negative, 15, 0⟩ := by
    refine ⟨Or.inr (show 15 % 10 ≠ 0 by decide), ?_, show minimumExponent ≤ 0 by decide, ?_⟩ <;>
      rw [two] <;> decide +revert
  have leads : leadingExponent ⟨false, 15, 0⟩ = 1 := by
    rw [(roundable false).leadingExponent rfl, two]
    rfl
  have number : toRat ⟨false, 15, 0⟩ = 15 := by norm_num [toRat, magnitude, signed]
  have opposite : toRat ⟨true, 15, 0⟩ = -15 := by norm_num [toRat, magnitude, signed]
  obtain ⟨toTens, -, -, -⟩ := rounding_is_nearest (roundable false) (roundable false) one_pos (-1)
  obtain ⟨-, -, ordered, -⟩ := rounding_is_nearest (roundable true) (roundable false) one_pos (-1)
  have nearest := toTens.isNearest
  rw [leads, number] at nearest
  exact ⟨roundable false, roundable true, by norm_num at nearest; exact nearest, toTens.negate,
    (ordered (by rw [number, opposite]; norm_num)).2⟩

end Decimal

end LedgerWire
