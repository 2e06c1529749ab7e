import LedgerWire.Decimal.Basic

namespace LedgerWire.Decimal

/-!
The numeric order, found without computing the numbers: by sign, then by the exponent of the
leading digit, then by the digits brought to one length.
-/

def sign (decimal : Decimal) : Int :=
  if decimal.isZero then 0 else if decimal.negative then -1 else 1

/-- The factor that lengthens a mantissa by `count` digits. Beyond the widest mantissa it is
zero. -/
def alignFactor (count : Nat) : Nat :=
  if count ≤ 38 then Positional.weight 10 count else 0

/-- The order of the magnitudes of two nonzero numbers. -/
def compareMagnitude (left right : Decimal) : Ordering :=
  match Ord.compare left.leadingExponent right.leadingExponent with
  | .eq =>
    let width := max left.precision right.precision
    Ord.compare (left.mantissa * alignFactor (width - left.precision))
      (right.mantissa * alignFactor (width - right.precision))
  | unequal => unequal

def compare (left right : Decimal) : Ordering :=
  if left.sign ≠ right.sign ∨ left.sign = 0 then Ord.compare left.sign right.sign
  else if left.sign < 0 then (compareMagnitude left right).swap
  else compareMagnitude left right

end LedgerWire.Decimal
