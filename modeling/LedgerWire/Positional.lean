namespace LedgerWire.Positional

/-!
Positional numerals: the digits of a number in a base, most significant first and
without a leading zero, and the number that a list of digits denotes.
-/

/-- What a digit counts for that stands `place` places left of the units. -/
def weight (base place : Nat) : Nat :=
  Nat.pow base place

/-- The digits of a number; zero has none, and neither has anything below base two. -/
def digits (base number : Nat) : List Nat :=
  if 2 ≤ base ∧ 0 < number then
    digits base (number / base) ++ [number % base]
  else
    []
termination_by number
decreasing_by
  rename_i splits
  exact Nat.div_lt_self splits.2 splits.1

/-- The number that a list of digits denotes. -/
def value (base : Nat) (digits : List Nat) : Nat :=
  digits.foldl (fun number digit => number * base + digit) 0

/-- How many decimal digits a number has; zero has none. -/
def decimalLength (number : Nat) : Nat :=
  if 0 < number then decimalLength (number / 10) + 1 else 0
termination_by number
decreasing_by omega

theorem decimalLength_mono {small large : Nat} (ordered : small ≤ large) :
    decimalLength small ≤ decimalLength large := by
  induction large using Nat.strongRecOn generalizing small with
  | ind large ih =>
    rw [decimalLength.eq_def small, decimalLength.eq_def large]
    by_cases positive : 0 < small
    · have tail := @ih (large / 10) (by omega) (small / 10) (by omega)
      rw [if_pos positive, if_pos (by omega)]
      omega
    · rw [if_neg positive]
      omega

/-- Appending a digit lengthens a numeral, unless both are zero. -/
theorem decimalLength_lt_append {number digit : Nat} (positive : 0 < number * 10 + digit) :
    decimalLength number < decimalLength (number * 10 + digit) := by
  have tail : decimalLength number ≤ decimalLength ((number * 10 + digit) / 10) :=
    decimalLength_mono (by omega)
  rw [decimalLength.eq_def (number * 10 + digit), if_pos positive]
  omega

end LedgerWire.Positional
