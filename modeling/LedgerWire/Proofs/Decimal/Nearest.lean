import Mathlib.Algebra.Order.Round
import Mathlib.Data.Int.Log
import Mathlib.Data.Rat.Floor
import Mathlib.Tactic.FieldSimp
import Mathlib.Tactic.Linarith
import Mathlib.Tactic.NormNum
import Mathlib.Tactic.Positivity
import Mathlib.Tactic.Ring

namespace LedgerWire

/-!
Rounding of rational numbers to the nearest multiple of a unit, ties away from zero; in particular
to a number of decimal places or of significant digits. Rounding twice is rounding once when no tie
of the coarse unit lies just above the number.
-/

/-- The number or its opposite. -/
def signed (negative : Bool) (number : ℚ) : ℚ :=
  if negative then -number else number

/-- The multiple of a unit that is nearest to a number; of two, the one of larger magnitude. -/
def nearest (unit number : ℚ) : ℚ :=
  if number < 0 then -(round (-number / unit) * unit) else round (number / unit) * unit

/-- The nearest number of so many decimal places. -/
def nearestPlaces (places : ℤ) (number : ℚ) : ℚ :=
  nearest (10 ^ (-places)) number

/-- The nearest number of so many significant digits. -/
def nearestDigits (digits : ℕ) (number : ℚ) : ℚ :=
  nearest (10 ^ (Int.log 10 |number| + 1 - digits)) number

section Signed

variable {negative : Bool} {number : ℚ}

@[simp] theorem signed_false (number : ℚ) : signed false number = number := rfl

@[simp] theorem signed_true (number : ℚ) : signed true number = -number := rfl

@[simp] theorem signed_zero (negative : Bool) : signed negative 0 = 0 := by
  cases negative <;> simp

theorem abs_signed (negative : Bool) (number : ℚ) : |signed negative number| = |number| := by
  cases negative <;> simp

theorem signed_not (negative : Bool) (number : ℚ) :
    signed (!negative) number = -signed negative number := by
  cases negative <;> simp

theorem signed_add (negative : Bool) (left right : ℚ) :
    signed negative (left + right) = signed negative left + signed negative right := by
  cases negative
  · rfl
  · exact neg_add left right

theorem signed_sub (negative : Bool) (left right : ℚ) :
    signed negative (left - right) = signed negative left - signed negative right := by
  cases negative
  · rfl
  · exact neg_sub' left right

theorem signed_mul_signed (first second : Bool) (left right : ℚ) :
    signed first left * signed second right = signed (first != second) (left * right) := by
  cases first <;> cases second <;> simp

end Signed

section PowersOfTen

theorem ten_zpow_pos (exponent : ℤ) : (0 : ℚ) < 10 ^ exponent :=
  zpow_pos (by norm_num) exponent

theorem ten_zpow_add (left right : ℤ) : (10 : ℚ) ^ (left + right) = 10 ^ left * 10 ^ right :=
  zpow_add₀ (by norm_num) left right

theorem ten_zpow_mono {left right : ℤ} (ordered : left ≤ right) :
    (10 : ℚ) ^ left ≤ 10 ^ right :=
  zpow_le_zpow_right₀ (by norm_num) ordered

theorem ten_zpow_raise {low high : ℤ} (places : ℕ) (apart : high = low + places) :
    (10 : ℚ) ^ high = 10 ^ places * 10 ^ low := by
  rw [apart, add_comm, ten_zpow_add, zpow_natCast]

theorem ten_zpow_add_natCast (low : ℤ) (places : ℕ) :
    (10 : ℚ) ^ (low + places) = ((10 ^ places : ℕ) : ℤ) * 10 ^ low := by
  rw [ten_zpow_raise places rfl, Int.cast_natCast, Nat.cast_pow, Nat.cast_ofNat]

theorem ten_zpow_eq {low high : ℤ} (ordered : low ≤ high) :
    (10 : ℚ) ^ high = ((10 ^ (high - low).toNat : ℕ) : ℤ) * 10 ^ low := by
  rw [← ten_zpow_add_natCast]
  congr 1
  omega

theorem log_eq {number : ℚ} {exponent : ℤ} (lower : 10 ^ exponent ≤ number)
    (upper : number < 10 ^ (exponent + 1)) : Int.log 10 number = exponent := by
  have positive : 0 < number := (ten_zpow_pos exponent).trans_le lower
  have low : exponent ≤ Int.log 10 number :=
    (Int.zpow_le_iff_le_log (by decide) positive).mp (by exact_mod_cast lower)
  have high : Int.log 10 number < exponent + 1 :=
    (Int.lt_zpow_iff_log_lt (by decide) positive).mp (by exact_mod_cast upper)
  omega

theorem ten_zpow_log_le {number : ℚ} (positive : 0 < number) :
    (10 : ℚ) ^ Int.log 10 number ≤ number := by
  exact_mod_cast Int.zpow_log_le_self (b := 10) (by decide) positive

theorem lt_ten_zpow_log (number : ℚ) : number < (10 : ℚ) ^ (Int.log 10 number + 1) := by
  exact_mod_cast Int.lt_zpow_succ_log_self (b := 10) (by decide) number

theorem le_log_iff {number : ℚ} (positive : 0 < number) {exponent : ℤ} :
    exponent ≤ Int.log 10 number ↔ 10 ^ exponent ≤ number := by
  rw [← Int.zpow_le_iff_le_log (by decide) positive, Nat.cast_ofNat]

theorem log_lt_iff {number : ℚ} (positive : 0 < number) {exponent : ℤ} :
    Int.log 10 number < exponent ↔ number < 10 ^ exponent := by
  rw [← Int.lt_zpow_iff_log_lt (by decide) positive, Nat.cast_ofNat]

end PowersOfTen

section Nearest

variable {unit number : ℚ} (positive : 0 < unit)

theorem nearest_of_nonneg (nonnegative : 0 ≤ number) :
    nearest unit number = round (number / unit) * unit :=
  if_neg (not_lt.mpr nonnegative)

@[simp] theorem nearest_zero (unit : ℚ) : nearest unit 0 = 0 := by
  rw [nearest_of_nonneg le_rfl, zero_div, round_zero, Int.cast_zero, zero_mul]

theorem nearest_neg (unit number : ℚ) : nearest unit (-number) = -nearest unit number := by
  rcases lt_trichotomy number 0 with below | rfl | above
  · rw [nearest_of_nonneg (by linarith), nearest, if_pos below, neg_neg]
  · simp
  · rw [nearest, if_pos (by linarith), neg_neg, nearest_of_nonneg above.le]

theorem nearest_signed (unit : ℚ) (negative : Bool) (number : ℚ) :
    nearest unit (signed negative number) = signed negative (nearest unit number) := by
  cases negative
  · rfl
  · exact nearest_neg unit number

theorem exists_count (unit number : ℚ) : ∃ count : ℤ, nearest unit number = count * unit := by
  rw [nearest]
  split
  · exact ⟨-_, by rw [Int.cast_neg, neg_mul]⟩
  · exact ⟨_, rfl⟩

include positive

/-- The nearest multiple of a number that is not negative, and the interval that rounds to it. -/
theorem exists_nearest (nonnegative : 0 ≤ number) :
    ∃ count : ℤ, nearest unit number = count * unit ∧ (count - 1 / 2) * unit ≤ number ∧
      number < (count + 1 / 2) * unit := by
  have lower := Int.floor_le (number / unit + 1 / 2)
  have upper := Int.lt_floor_add_one (number / unit + 1 / 2)
  rw [← round_eq] at lower upper
  refine ⟨round (number / unit), nearest_of_nonneg nonnegative, ?_, ?_⟩
  · rw [← le_div_iff₀ positive]
    linarith
  · rw [← div_lt_iff₀ positive]
    linarith

theorem nearest_eq {count : ℤ} (nonnegative : 0 ≤ number)
    (lower : (count - 1 / 2) * unit ≤ number) (upper : number < (count + 1 / 2) * unit) :
    nearest unit number = count * unit := by
  rw [← le_div_iff₀ positive] at lower
  rw [← div_lt_iff₀ positive] at upper
  have rounded : round (number / unit) = count := by
    rw [round_eq, Int.floor_eq_iff]
    constructor <;> linarith
  rw [nearest_of_nonneg nonnegative, rounded]

theorem nearest_multiple (count : ℤ) : nearest unit (count * unit) = count * unit := by
  rcases le_or_gt 0 count with nonnegative | below
  · have nonnegative : (0 : ℚ) ≤ count := by exact_mod_cast nonnegative
    exact nearest_eq positive (by positivity) (by linarith) (by linarith)
  · have opposite : (0 : ℚ) ≤ ((-count : ℤ) : ℚ) := by exact_mod_cast (by omega : 0 ≤ -count)
    have rounded : nearest unit ((-count : ℤ) * unit) = (-count : ℤ) * unit :=
      nearest_eq positive (by positivity) (by linarith) (by linarith)
    rw [Int.cast_neg, neg_mul, nearest_neg] at rounded
    exact neg_injective rounded

theorem abs_nearest_sub_le (number : ℚ) : |nearest unit number - number| ≤ unit / 2 := by
  have nonnegative (number : ℚ) (nonnegative : 0 ≤ number) :
      |nearest unit number - number| ≤ unit / 2 := by
    obtain ⟨count, rounded, lower, upper⟩ := exists_nearest positive nonnegative
    rw [rounded, abs_le]
    constructor <;> linarith
  rcases le_or_gt 0 number with above | below
  · exact nonnegative number above
  · have opposite := nonnegative (-number) (by linarith)
    rwa [nearest_neg, sub_neg_eq_add, neg_add_eq_sub, abs_sub_comm] at opposite

/-- Rounding does not pass a multiple of the unit. -/
theorem multiple_le_nearest {count : ℤ} (nonnegative : 0 ≤ number) (below : count * unit ≤ number) :
    count * unit ≤ nearest unit number := by
  obtain ⟨rounded, same, _, upper⟩ := exists_nearest positive nonnegative
  have apart : (count : ℚ) < rounded + 1 / 2 := lt_of_mul_lt_mul_right (below.trans_lt upper) positive.le
  have ordered : count ≤ rounded := by
    have apart : (count : ℚ) < (rounded + 1 : ℤ) := by
      push_cast
      linarith
    exact Int.lt_add_one_iff.mp (by exact_mod_cast apart)
  rw [same]
  exact mul_le_mul_of_nonneg_right (by exact_mod_cast ordered) positive.le

theorem nearest_le_multiple {count : ℤ} (nonnegative : 0 ≤ number) (above : number ≤ count * unit) :
    nearest unit number ≤ count * unit := by
  obtain ⟨rounded, same, lower, _⟩ := exists_nearest positive nonnegative
  have apart : (rounded : ℚ) - 1 / 2 ≤ count := le_of_mul_le_mul_right (lower.trans above) positive
  have ordered : rounded ≤ count := by
    have apart : (rounded : ℚ) < (count + 1 : ℤ) := by
      push_cast
      linarith
    exact Int.lt_add_one_iff.mp (by exact_mod_cast apart)
  rw [same]
  exact mul_le_mul_of_nonneg_right (by exact_mod_cast ordered) positive.le

theorem nearest_nonneg (nonnegative : 0 ≤ number) : 0 ≤ nearest unit number := by
  have below : ((0 : ℤ) : ℚ) * unit ≤ number := by
    rwa [Int.cast_zero, zero_mul]
  simpa using multiple_le_nearest positive nonnegative below

theorem abs_nearest (number : ℚ) : |nearest unit number| = nearest unit |number| := by
  rcases le_or_gt 0 number with above | below
  · rw [abs_of_nonneg above, abs_of_nonneg (nearest_nonneg positive above)]
  · rw [abs_of_neg below, nearest_neg,
      abs_of_nonpos (neg_nonneg.mp (nearest_neg unit number ▸
        nearest_nonneg positive (neg_pos.mpr below).le))]

/-- A tie of a coarse unit, half of which is a multiple of the fine one, is not passed from above. -/
theorem tie_le_nearest {coarse : ℚ} {half : ℕ} {count : ℤ} (divides : coarse = 2 * half * unit)
    (nonnegative : 0 ≤ number) (lower : (count - 1 / 2) * coarse ≤ number) :
    (count - 1 / 2) * coarse ≤ nearest unit number := by
  have tie : (count - 1 / 2) * coarse = ((2 * count - 1) * half : ℤ) * unit := by
    rw [divides]
    push_cast
    ring
  rw [tie] at lower ⊢
  exact multiple_le_nearest positive nonnegative lower

/-- Rounding to a fine unit first changes nothing, provided that half the coarse unit is a multiple
of the fine one and that no tie of the coarse unit lies within half a fine unit above. -/
theorem nearest_nearest {coarse : ℚ} {half : ℕ} {count : ℤ} (some : 0 < half)
    (divides : coarse = 2 * half * unit) (nonnegative : 0 ≤ number)
    (lower : (count - 1 / 2) * coarse ≤ number)
    (gap : number + unit / 2 < (count + 1 / 2) * coarse) :
    nearest coarse (nearest unit number) = count * coarse := by
  have halfPositive : (0 : ℚ) < half := by exact_mod_cast some
  have coarsePositive : 0 < coarse := by
    rw [divides]
    positivity
  have close := (abs_le.mp (abs_nearest_sub_le positive number)).2
  exact nearest_eq coarsePositive (nearest_nonneg positive nonnegative)
    (tie_le_nearest positive divides nonnegative lower) (by linarith)

/-- Rounding to a fine unit first may raise the count of coarse units by one, but no more. -/
theorem nearest_nearest_count {coarse : ℚ} {half : ℕ} {once : ℤ}
    (divides : coarse = 2 * half * unit) (finer : unit ≤ coarse) (nonnegative : 0 ≤ number)
    (lower : (once - 1 / 2) * coarse ≤ number) (upper : number < (once + 1 / 2) * coarse) :
    ∃ twice : ℤ, nearest coarse (nearest unit number) = twice * coarse ∧ once ≤ twice ∧
      twice ≤ once + 1 := by
  have coarsePositive := positive.trans_le finer
  obtain ⟨twice, rounded, twiceLower, twiceUpper⟩ :=
    exists_nearest coarsePositive (nearest_nonneg positive nonnegative)
  have tie := tie_le_nearest positive divides nonnegative lower
  have close := (abs_le.mp (abs_nearest_sub_le positive number)).2
  refine ⟨twice, rounded, ?_, ?_⟩
  · have counts := lt_of_mul_lt_mul_right (tie.trans_lt twiceUpper) coarsePositive.le
    exact Int.lt_add_one_iff.mp (by exact_mod_cast (by linarith : (once : ℚ) < twice + 1))
  · have apart : ((twice : ℚ) - 1 / 2) * coarse < (once + 1) * coarse := by linarith
    have counts := lt_of_mul_lt_mul_right apart coarsePositive.le
    have below : twice < once + 1 + 1 := by
      exact_mod_cast (by linarith : (twice : ℚ) < once + 1 + 1)
    exact Int.lt_add_one_iff.mp below

/-- What lies above a whole number of fine units and below the next does not matter. -/
theorem nearest_truncated {coarse fraction : ℚ} {half whole : ℕ} (some : 0 < half)
    (divides : coarse = 2 * half * unit) (nonnegative : 0 ≤ fraction) (proper : fraction < 1) :
    nearest coarse ((whole + fraction) * unit) = nearest coarse (whole * unit) := by
  have halfPositive : (0 : ℚ) < half := by exact_mod_cast some
  have coarsePositive : 0 < coarse := by
    rw [divides]
    positivity
  obtain ⟨count, rounded, lower, upper⟩ :=
    exists_nearest coarsePositive (show 0 ≤ (whole : ℚ) * unit by positivity)
  have more : (whole : ℚ) * unit ≤ (whole + fraction) * unit :=
    mul_le_mul_of_nonneg_right (by linarith) positive.le
  rw [rounded]
  apply nearest_eq coarsePositive (by positivity) (lower.trans more)
  -- The tie above is a multiple of the fine unit, so the next one does not pass it either.
  have tie : (count + 1 / 2) * coarse = ((2 * count + 1) * half : ℤ) * unit := by
    rw [divides]
    push_cast
    ring
  rw [tie] at upper ⊢
  have below : (whole : ℤ) + 1 ≤ (2 * count + 1) * half := by
    have apart := lt_of_mul_lt_mul_right upper positive.le
    exact Int.add_one_le_iff.mpr (by exact_mod_cast apart)
  have next : (whole : ℚ) + 1 ≤ ((2 * count + 1) * half : ℤ) := by exact_mod_cast below
  exact mul_lt_mul_of_pos_right (by linarith) positive

end Nearest

section Digits

variable {digits : ℕ} {number : ℚ}

/-- A number of at most so many significant digits. -/
def HasDigits (digits : ℕ) (number : ℚ) : Prop :=
  ∃ mantissa exponent : ℤ, |mantissa| < 10 ^ digits ∧ number = mantissa * 10 ^ exponent

@[simp] theorem nearestDigits_zero (digits : ℕ) : nearestDigits digits 0 = 0 :=
  nearest_zero _

theorem nearestDigits_signed (digits : ℕ) (negative : Bool) (number : ℚ) :
    nearestDigits digits (signed negative number) = signed negative (nearestDigits digits number) := by
  rw [nearestDigits, abs_signed, nearest_signed, nearestDigits]

theorem nearestPlaces_signed (places : ℤ) (negative : Bool) (number : ℚ) :
    nearestPlaces places (signed negative number) = signed negative (nearestPlaces places number) :=
  nearest_signed _ negative number

theorem abs_nearestDigits (digits : ℕ) (number : ℚ) :
    |nearestDigits digits number| = nearestDigits digits |number| := by
  rw [nearestDigits, abs_nearest (ten_zpow_pos _), nearestDigits, abs_abs]

theorem nearestDigits_of_log {exponent : ℤ} (leading : Int.log 10 |number| = exponent) :
    nearestDigits digits number = nearest (10 ^ (exponent + 1 - digits)) number := by
  rw [nearestDigits, leading]

/-- Rounding to digits does not fall below the power of ten at the leading digit. -/
theorem ten_zpow_le_nearestDigits (some : 0 < digits) (nonzero : number ≠ 0) :
    (10 : ℚ) ^ Int.log 10 |number| ≤ |nearestDigits digits number| := by
  have positive := abs_pos.mpr nonzero
  have unit : (10 : ℚ) ^ Int.log 10 |number| =
      ((10 ^ (digits - 1) : ℕ) : ℤ) * 10 ^ (Int.log 10 |number| + 1 - digits) := by
    rw [← ten_zpow_add_natCast]
    congr 1
    omega
  rw [abs_nearestDigits, nearestDigits, abs_abs, unit]
  apply multiple_le_nearest (ten_zpow_pos _) positive.le
  rw [← unit]
  exact ten_zpow_log_le positive

theorem nearestDigits_ne_zero (some : 0 < digits) (nonzero : number ≠ 0) :
    nearestDigits digits number ≠ 0 :=
  abs_pos.mp ((ten_zpow_pos _).trans_le (ten_zpow_le_nearestDigits some nonzero))

theorem log_le_log_nearestDigits (some : 0 < digits) (nonzero : number ≠ 0) :
    Int.log 10 |number| ≤ Int.log 10 |nearestDigits digits number| :=
  (le_log_iff (abs_pos.mpr (nearestDigits_ne_zero some nonzero))).mpr
    (ten_zpow_le_nearestDigits some nonzero)

theorem abs_nearestDigits_le (digits : ℕ) (number : ℚ) :
    |nearestDigits digits number| ≤ 10 ^ (Int.log 10 |number| + 1) := by
  have unit : (10 : ℚ) ^ (Int.log 10 |number| + 1) =
      ((10 ^ digits : ℕ) : ℤ) * 10 ^ (Int.log 10 |number| + 1 - digits) := by
    rw [← ten_zpow_add_natCast, sub_add_cancel]
  rw [abs_nearestDigits, nearestDigits, abs_abs, unit]
  apply nearest_le_multiple (ten_zpow_pos _) (abs_nonneg _)
  rw [← unit]
  exact (lt_ten_zpow_log _).le

theorem nearestDigits_multiple {count low : ℤ} (multiple : number = count * 10 ^ low)
    (short : Int.log 10 |number| + 1 - digits ≤ low) : nearestDigits digits number = number := by
  have rounded := nearest_multiple (ten_zpow_pos (Int.log 10 |number| + 1 - digits))
    (count * (10 ^ (low - (Int.log 10 |number| + 1 - digits)).toNat : ℕ))
  rwa [Int.cast_mul, mul_assoc, ← ten_zpow_eq short, ← multiple] at rounded

/-- A multiple of a power of ten with few digits above it has few significant digits. -/
theorem log_lt_of_multiple {count low : ℤ} (multiple : number = count * 10 ^ low)
    (few : |count| < 10 ^ digits) (nonzero : number ≠ 0) : Int.log 10 |number| < low + digits := by
  rw [log_lt_iff (abs_pos.mpr nonzero), multiple, abs_mul, abs_of_pos (ten_zpow_pos low), add_comm,
    ten_zpow_add, zpow_natCast]
  exact mul_lt_mul_of_pos_right (by exact_mod_cast few) (ten_zpow_pos low)

theorem nearestDigits_of_hasDigits (short : HasDigits digits number) :
    nearestDigits digits number = number := by
  obtain ⟨count, low, few, multiple⟩ := short
  by_cases nonzero : number = 0
  · rw [nonzero, nearestDigits_zero]
  · have leading := log_lt_of_multiple multiple few nonzero
    exact nearestDigits_multiple multiple (by omega)

/-- A positive number of few digits counts the units of its own rounding, and leaves room for one
more below the next power of ten. -/
theorem HasDigits.exists_units (short : HasDigits digits number) (positive : 0 < number) :
    ∃ count : ℤ, number = count * 10 ^ (Int.log 10 number + 1 - digits) ∧
      number + 10 ^ (Int.log 10 number + 1 - digits) ≤ 10 ^ (Int.log 10 number + 1) := by
  obtain ⟨mantissa, low, few, multiple⟩ := short
  have leading := log_lt_of_multiple multiple few positive.ne'
  rw [abs_of_pos positive] at leading
  have unitPositive := ten_zpow_pos (Int.log 10 number + 1 - digits)
  obtain ⟨count, spelled⟩ : ∃ count : ℤ, number = count * 10 ^ (Int.log 10 number + 1 - digits) := by
    refine ⟨mantissa * (10 ^ (low - (Int.log 10 number + 1 - digits)).toNat : ℕ), ?_⟩
    rw [Int.cast_mul, mul_assoc, ← ten_zpow_eq (by omega), ← multiple]
  have above : (10 : ℚ) ^ (Int.log 10 number + 1) =
      ((10 ^ digits : ℕ) : ℤ) * 10 ^ (Int.log 10 number + 1 - digits) := by
    rw [← ten_zpow_add_natCast, sub_add_cancel]
  refine ⟨count, spelled, ?_⟩
  have bound : (count : ℚ) * 10 ^ (Int.log 10 number + 1 - digits) <
      ((10 ^ digits : ℕ) : ℤ) * 10 ^ (Int.log 10 number + 1 - digits) := by
    rw [← spelled, ← above]
    exact lt_ten_zpow_log number
  have fewer : count + 1 ≤ ((10 ^ digits : ℕ) : ℤ) := by
    have smaller : (count : ℚ) < ((10 ^ digits : ℕ) : ℤ) := lt_of_mul_lt_mul_right bound unitPositive.le
    exact Int.add_one_le_iff.mpr (by exact_mod_cast smaller)
  have scaled := mul_le_mul_of_nonneg_right (Int.cast_le (R := ℚ).mpr fewer) unitPositive.le
  rw [Int.cast_add, Int.cast_one, add_mul, one_mul, ← spelled, ← above] at scaled
  exact scaled

/-- Rounding what was rounded to more digits uses the unit that rounding the number itself would,
also where the first rounding reaches the next power of ten. -/
theorem nearestDigits_nearestDigits {fewer : ℕ} (some : 0 < fewer) (ordered : fewer ≤ digits)
    (positive : 0 < number) : nearestDigits fewer (nearestDigits digits number) =
      nearest (10 ^ (Int.log 10 number + 1 - fewer)) (nearestDigits digits number) := by
  have nonzero := positive.ne'
  have least := ten_zpow_le_nearestDigits (show 0 < digits by omega) nonzero
  have most := abs_nearestDigits_le digits number
  have nonnegative : 0 ≤ nearestDigits digits number :=
    nearest_nonneg (ten_zpow_pos _) positive.le
  rw [abs_of_nonneg nonnegative, abs_of_pos positive] at least most
  rcases lt_or_eq_of_le most with below | reached
  · rw [nearestDigits_of_log]
    rw [abs_of_nonneg nonnegative]
    exact log_eq least below
  · have digit : (10 : ℚ) ^ (Int.log 10 number + 1) =
        ((10 ^ fewer : ℕ) : ℤ) * 10 ^ (Int.log 10 number + 1 - fewer) := by
      rw [← ten_zpow_add_natCast, sub_add_cancel]
    have short : HasDigits fewer (nearestDigits digits number) :=
      ⟨1, Int.log 10 number + 1, by simpa using one_lt_pow₀ (by norm_num) some.ne', by
        rw [reached, Int.cast_one, one_mul]⟩
    rw [nearestDigits_of_hasDigits short, reached, digit, nearest_multiple (ten_zpow_pos _)]

private theorem nearestDigits_of_near_pos {center : ℚ} (short : HasDigits digits center)
    (positive : 0 < center) (near : |number - center| < 10 ^ (Int.log 10 center - digits) / 2) :
    nearestDigits digits number = center := by
  obtain ⟨count, spelled, room⟩ := short.exists_units positive
  obtain ⟨lower, upper⟩ := abs_lt.mp near
  have least := ten_zpow_log_le positive
  generalize Int.log 10 center = exponent at *
  have finePositive := ten_zpow_pos (exponent - digits)
  have coarse : (10 : ℚ) ^ (exponent + 1 - digits) = 10 ^ 1 * 10 ^ (exponent - digits) :=
    ten_zpow_raise 1 (by omega)
  have fine : (10 : ℚ) ^ (exponent - digits) ≤ 10 ^ exponent := ten_zpow_mono (by omega)
  have numberPositive : 0 < number := by linarith
  rcases le_or_gt (10 ^ exponent) number with above | below
  · have leading : Int.log 10 |number| = exponent := by
      rw [abs_of_pos numberPositive]
      exact log_eq above (by linarith)
    rw [nearestDigits_of_log leading, spelled]
    rw [spelled] at lower upper
    apply nearest_eq (ten_zpow_pos _) numberPositive.le <;> linarith
  · -- Below the power of ten the unit is ten times finer.
    have tenth : (10 : ℚ) ^ exponent = 10 ^ 1 * 10 ^ (exponent - 1) :=
      ten_zpow_raise 1 (by omega)
    have leading : Int.log 10 |number| = exponent - 1 := by
      rw [abs_of_pos numberPositive]
      have room := ten_zpow_pos (exponent - 1)
      apply log_eq
      · linarith
      · rwa [sub_add_cancel]
    have finer : center = ((10 * count : ℤ) : ℚ) * 10 ^ (exponent - digits) := by
      rw [spelled, coarse]
      push_cast
      ring
    rw [nearestDigits_of_log leading, sub_add_cancel, finer]
    rw [finer] at lower upper
    apply nearest_eq (ten_zpow_pos _) numberPositive.le <;> linarith

/-- What is close to a number of few digits rounds to it, also from below a power of ten. -/
theorem nearestDigits_of_near {center : ℚ} (short : HasDigits digits center) (nonzero : center ≠ 0)
    (near : |number - center| < 10 ^ (Int.log 10 |center| - digits) / 2) :
    nearestDigits digits number = center := by
  rcases lt_or_gt_of_ne nonzero with below | above
  · obtain ⟨mantissa, exponent, few, spelled⟩ := short
    have opposite : HasDigits digits (-center) :=
      ⟨-mantissa, exponent, by rwa [abs_neg], by rw [spelled]; push_cast; ring⟩
    have mirrored : |-number - -center| = |number - center| := by
      rw [← abs_neg]
      ring_nf
    rw [← mirrored, abs_of_neg below] at near
    have rounded := nearestDigits_of_near_pos opposite (neg_pos.mpr below) near
    rw [← signed_true, nearestDigits_signed, signed_true] at rounded
    exact neg_injective rounded
  · rw [abs_of_pos above] at near
    exact nearestDigits_of_near_pos short above near

end Digits

end LedgerWire
