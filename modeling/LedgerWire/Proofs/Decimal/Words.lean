import LedgerWire.Proofs.Decimal.Rounding

namespace LedgerWire.Decimal

open Positional

/-!
Arithmetic in words. A mantissa is an unsigned word of 128 bits and an exponent a signed one of 32.
Each operation is repeated here with every number on the way checked: there is no answer where a
number would pass the end of its word or an exponent would stay at an end of the range. Where there
is one, it is the answer of the operation itself.
-/

/-- The number, if a word of 128 bits holds it. -/
def word? (number : Nat) : Option Nat :=
  if number ≤ maximumMantissa then some number else none

/-- The exponent, if it is in range. -/
def exponent? (exponent : Int) : Option Int :=
  if inExponentRange exponent then some exponent else none

def stripZeros? (mantissa : Nat) (exponent : Int) : Option (Nat × Int) :=
  if 0 < mantissa ∧ mantissa % 10 = 0 then do
    let raised ← exponent? (exponent + 1)
    stripZeros? (mantissa / 10) raised
  else
    some (mantissa, exponent)
termination_by mantissa
decreasing_by omega

def normal? (negative : Bool) (mantissa : Nat) (exponent : Int) : Option Decimal :=
  if mantissa = 0 then some zero
  else (stripZeros? mantissa exponent).map fun stripped => ⟨negative, stripped.1, stripped.2⟩

/-- The mantissa without its last digits, raised if the first dropped digit is five or more. -/
def keptDigits? (mantissa count : Nat) : Option Nat := do
  let divisor ← word? (weight 10 count)
  let tie ← word? (weight 10 (count - 1))
  if count ≠ 0 ∧ 5 ≤ mantissa / tie % 10 then word? (mantissa / divisor + 1)
  else some (mantissa / divisor)

def dropDigits? (decimal : Decimal) (count : Nat) : Option Decimal := do
  let kept ← keptDigits? decimal.mantissa count
  let exponent ← exponent? (decimal.exponent + count)
  normal? decimal.negative kept exponent

def roundSignificant? (decimal : Decimal) (digits : Nat) : Option Decimal :=
  if decimal.precision ≤ digits then some decimal
  else decimal.dropDigits? (decimal.precision - digits)

def roundScale? (decimal : Decimal) (scale : Int) : Option Decimal := do
  let floor ← exponent? (-scale)
  if decimal.isZero ∨ floor ≤ decimal.exponent then some decimal
  else
    let drop := (floor - decimal.exponent).toNat
    if decimal.precision < drop then some zero else decimal.dropDigits? drop

section Checks

variable {number : Nat} {exponent : Int}

theorem word?_of_lt (small : number < weight 10 38) : word? number = some number := by
  have wide : weight 10 38 ≤ maximumMantissa := by decide
  exact if_pos (by omega)

theorem word?_weight {count : Nat} (narrow : count ≤ 38) :
    word? (weight 10 count) = some (weight 10 count) := by
  have wide : weight 10 38 ≤ maximumMantissa := by decide
  have below := weight_mono (by decide : 0 < 10) narrow
  exact if_pos (by omega)

theorem exponent?_of_bounds (lower : minimumExponent ≤ exponent)
    (upper : exponent ≤ maximumExponent) : exponent? exponent = some exponent := by
  have inside : inExponentRange exponent = true := by
    rw [inExponentRange, Bool.and_eq_true, decide_eq_true_iff, decide_eq_true_iff]
    exact ⟨lower, upper⟩
  exact if_pos inside

end Checks

section Rounding

variable {mantissa digits count : Nat} {exponent : Int} {decimal : Decimal}

theorem stripZeros?_eq (lower : minimumExponent ≤ exponent)
    (upper : exponent + decimalLength mantissa ≤ maximumExponent + 1) :
    stripZeros? mantissa exponent = some (stripZeros mantissa exponent) := by
  fun_induction stripZeros mantissa exponent with
  | case1 mantissa exponent trailing ih =>
      have longer := decimalLength_of_pos trailing.1
      have some := decimalLength_pos (show 0 < mantissa / 10 by omega)
      have raised := exponent?_of_bounds (show minimumExponent ≤ exponent + 1 by omega)
        (show exponent + 1 ≤ maximumExponent by omega)
      have placed : clamp (exponent + 1) = exponent + 1 :=
        clamp_of_bounds (by omega) (by omega)
      rw [placed] at ih
      rw [stripZeros?, if_pos trailing, raised, placed]
      exact ih (by omega) (by omega)
  | case2 mantissa exponent last => rw [stripZeros?, if_neg last]

theorem normal?_eq (negative : Bool) (lower : minimumExponent ≤ exponent)
    (upper : exponent + decimalLength mantissa ≤ maximumExponent + 1) :
    normal? negative mantissa exponent = some (normal negative mantissa exponent) := by
  rw [normal?, normal, stripZeros?_eq lower upper]
  split <;> rfl

theorem keptDigits?_eq (narrow : decimalLength mantissa ≤ 38) (some : 0 < count)
    (present : count ≤ decimalLength mantissa) :
    keptDigits? mantissa count = .some (keptDigits mantissa count) := by
  have bound : keptDigits mantissa count ≤ weight 10 (decimalLength mantissa - count) :=
    keptDigits_le (by omega)
  have fewer : weight 10 (decimalLength mantissa - count) < weight 10 38 :=
    Nat.pow_lt_pow_right (by decide) (by omega)
  simp only [keptDigits?, word?_weight (show count ≤ 38 by omega),
    word?_weight (show count - 1 ≤ 38 by omega), Option.bind_eq_bind, Option.bind_some,
    Nat.ne_of_gt some, ne_eq, not_false_eq_true, true_and]
  rw [keptDigits] at bound ⊢
  split
  · rename_i raised
    rw [if_pos raised] at bound
    exact word?_of_lt (by omega)
  · rfl

theorem dropDigits?_eq (inRange : decimal.InRange) (narrow : decimal.precision ≤ 38)
    (some : 0 < count) (present : count ≤ decimal.precision) :
    decimal.dropDigits? count = .some (decimal.dropDigits count) := by
  have lower := inRange.lower
  have upper := inRange.upper
  have length : decimalLength (keptDigits decimal.mantissa count) ≤
      decimal.precision - count + 1 :=
    decimalLength_keptDigits_le le_tsub_add
  have placed : clamp (decimal.exponent + count) = decimal.exponent + count :=
    clamp_of_bounds (by omega) (by omega)
  rw [dropDigits_eq decimal some (by omega), placed]
  simp only [dropDigits?, keptDigits?_eq narrow some present,
    exponent?_of_bounds (show minimumExponent ≤ decimal.exponent + count by omega) (by omega),
    Option.bind_eq_bind, Option.bind_some]
  exact normal?_eq decimal.negative (by omega) (by omega)

theorem roundSignificant?_eq (inRange : decimal.InRange) (narrow : decimal.precision ≤ 38)
    (some : 0 < digits) :
    decimal.roundSignificant? digits = .some (decimal.roundSignificant digits) := by
  rw [roundSignificant?, roundSignificant]
  split
  · rfl
  · exact dropDigits?_eq inRange narrow (by omega) (by omega)

theorem roundSignificant?_of_precision_le (short : decimal.precision ≤ digits) :
    decimal.roundSignificant? digits = .some decimal :=
  if_pos short

theorem roundScale?_eq {scale : Int} (inRange : decimal.InRange) (narrow : decimal.precision ≤ 38)
    (lower : minimumExponent ≤ -scale) (upper : -scale ≤ maximumExponent) :
    decimal.roundScale? scale = .some (decimal.roundScale scale) := by
  have placed : clamp (-scale) = -scale := clamp_of_bounds lower upper
  unfold roundScale
  simp only [roundScale?, exponent?_of_bounds lower upper, placed, Option.bind_eq_bind,
    Option.bind_some]
  split
  · rfl
  · rename_i fine
    rw [not_or] at fine
    split
    · rfl
    · exact dropDigits?_eq inRange narrow (by omega) (by omega)

end Rounding

end LedgerWire.Decimal
