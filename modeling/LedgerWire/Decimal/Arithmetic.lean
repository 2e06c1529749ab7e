import LedgerWire.Decimal.Order
import LedgerWire.Decimal.Rounding
import LedgerWire.Error.Value

namespace LedgerWire.Decimal

/-!
Sums, products and quotients within a working width. Sums keep the 36 digits from the larger
operand's leading digit on, products trim both operands to 19 digits, and quotients are long
divisions carried one digit past the wanted precision.
-/

/-- Digits that a sum keeps. -/
def sumWidth : Nat := 36

/-- Digits that each factor keeps. -/
def productWidth : Nat := 19

/-- Cuts an operand of a sum to the window whose lowest exponent is `low`. -/
def cutBelow (decimal : Decimal) (low : Int) : Decimal :=
  if decimal.exponent < low then decimal.roundScale (clamp (-low)) else decimal

/-- The sum of two numbers brought to one exponent. -/
def addAligned (big small : Decimal) : Decimal :=
  let exponent := min big.exponent small.exponent
  let left := big.mantissa * alignFactor (big.exponent - exponent).toNat
  let right := small.mantissa * alignFactor (small.exponent - exponent).toNat
  if big.negative = small.negative then normal big.negative (left + right) exponent
  else if right ≤ left then normal big.negative (left - right) exponent
  else normal small.negative (right - left) exponent

/-- The sum of nonzero numbers, the first leading at least as high as the second. -/
def addOrdered (big small : Decimal) : Decimal :=
  let low := clamp (big.leadingExponent - ((sumWidth : Int) - 1))
  if small.leadingExponent < clamp (low - 1) then big
  else
    let cutBig := big.cutBelow low
    let cutSmall := small.cutBelow low
    if cutSmall.isZero then cutBig else addAligned cutBig cutSmall

/-- The sum, exact where both operands lie in the window. -/
def add (left right : Decimal) : Decimal :=
  if left.isZero then right
  else if right.isZero then left
  else if right.leadingExponent ≤ left.leadingExponent then addOrdered left right
  else addOrdered right left

def sub (left right : Decimal) : Decimal :=
  left.add right.negate

/-- The product of the trimmed operands. -/
def mul (left right : Decimal) : Decimal :=
  if left.isZero ∨ right.isZero then zero
  else
    let left := left.roundSignificant productWidth
    let right := right.roundSignificant productWidth
    normal (left.negative != right.negative) (left.mantissa * right.mantissa)
      (clamp (left.exponent + right.exponent))

/-- Long division: brings down zeros until nothing remains or the quotient has more than
`digits` digits. Answers the quotient and its exponent. Every step lengthens the quotient, or,
while it is still zero, enlarges a remainder that stays below the divisor. -/
def longDivide (divisor digits quotient remainder : Nat) (exponent : Int) : Nat × Int :=
  if 0 < divisor ∧ 0 < remainder ∧ Positional.decimalLength quotient < digits + 1 then
    longDivide divisor digits (quotient * 10 + remainder * 10 / divisor)
      (remainder * 10 % divisor) (exponent - 1)
  else
    (quotient, exponent)
termination_by (digits + 1 - Positional.decimalLength quotient, divisor - remainder)
decreasing_by
  rename_i continues
  by_cases grows : 0 < quotient * 10 + remainder * 10 / divisor
  · have longer := Positional.decimalLength_lt_append grows
    exact Prod.Lex.left _ _ (by omega)
  · have still : quotient = 0 ∧ remainder * 10 / divisor = 0 := by
      generalize remainder * 10 / divisor = digit at grows
      omega
    have fits : remainder * 10 < divisor :=
      (Nat.div_eq_zero_iff.mp still.2).resolve_left (by omega)
    rw [still.2, still.1, Nat.mod_eq_of_lt fits]
    exact Prod.Lex.right _ (by omega)

/-- The quotient rounded to `digits` significant digits, at most 35. -/
def div (left right : Decimal) (digits : Nat) : Except ValueError Decimal :=
  if right.isZero then .error .divisionByZero
  else if left.isZero then .ok zero
  else
    let divisor := right.roundSignificant sumWidth
    let dividend := left.roundSignificant sumWidth
    let digits := min digits (sumWidth - 1)
    let quotient := longDivide divisor.mantissa digits (dividend.mantissa / divisor.mantissa)
      (dividend.mantissa % divisor.mantissa) (clamp (dividend.exponent - divisor.exponent))
    .ok ((normal (left.negative != right.negative) quotient.1 quotient.2).roundSignificant digits)

end LedgerWire.Decimal
