import LedgerWire.Decimal.Basic

namespace LedgerWire.Decimal

/-!
Rounding to a number of significant digits or of fractional digits. The first dropped digit
decides: from five on, the magnitude grows.
-/

def maximumMantissa : Nat := Positional.weight 2 128 - 1

/-- The divisor that drops `count` digits. A power of ten wider than a mantissa is cut to the
largest mantissa. -/
def dropDivisor (count : Nat) : Nat :=
  min (Positional.weight 10 count) maximumMantissa

/-- Drops the last `count` digits of the mantissa. -/
def dropDigits (decimal : Decimal) (count : Nat) : Decimal :=
  let firstDropped :=
    if count = 0 then 0 else decimal.mantissa / dropDivisor (count - 1) % 10
  let kept := decimal.mantissa / dropDivisor count
  normal decimal.negative (if 5 ≤ firstDropped then kept + 1 else kept)
    (clamp (decimal.exponent + count))

/-- The nearest number of at most `digits` significant digits, ties away from zero. -/
def roundSignificant (decimal : Decimal) (digits : Nat) : Decimal :=
  if decimal.precision ≤ digits then decimal
  else decimal.dropDigits (decimal.precision - digits)

/-- The nearest number of at most `scale` fractional digits, ties away from zero. -/
def roundScale (decimal : Decimal) (scale : Int) : Decimal :=
  let floor := clamp (-scale)
  if decimal.isZero ∨ floor ≤ decimal.exponent then decimal
  else
    let drop := (floor - decimal.exponent).toNat
    -- Every digit lies below the first rounding position.
    if decimal.precision < drop then zero
    else decimal.dropDigits drop

end LedgerWire.Decimal
