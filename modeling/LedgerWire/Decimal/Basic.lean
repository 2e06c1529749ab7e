import LedgerWire.Positional

namespace LedgerWire

/-!
Decimal numbers `±m · 10^e`. A decimal is in normal form when its mantissa has no trailing zero,
zero being `(false, 0, 0)`; every operation answers in normal form. Exponents are 32-bit: a step
past either end stays at that end.
-/

/-- The number `mantissa · 10^exponent`, negated when `negative`. -/
structure Decimal where
  negative : Bool
  mantissa : Nat
  exponent : Int
deriving DecidableEq, Repr

namespace Decimal

def minimumExponent : Int := -2147483648

def maximumExponent : Int := 2147483647

/-- The exponent nearest to a number. -/
def clamp (exponent : Int) : Int :=
  max minimumExponent (min maximumExponent exponent)

def zero : Decimal := ⟨false, 0, 0⟩

instance : Inhabited Decimal := ⟨zero⟩

/-- Moves the trailing zeros of a positive mantissa into the exponent. -/
def stripZeros (mantissa : Nat) (exponent : Int) : Nat × Int :=
  if 0 < mantissa ∧ mantissa % 10 = 0 then
    stripZeros (mantissa / 10) (clamp (exponent + 1))
  else
    (mantissa, exponent)
termination_by mantissa
decreasing_by omega

/-- The normal form of `±mantissa · 10^exponent`. -/
def normal (negative : Bool) (mantissa : Nat) (exponent : Int) : Decimal :=
  if mantissa = 0 then
    zero
  else
    let stripped := stripZeros mantissa exponent
    ⟨negative, stripped.1, stripped.2⟩

def ofInt (number : Int) : Decimal :=
  normal (number < 0) number.natAbs 0

def isZero (decimal : Decimal) : Bool :=
  decimal.mantissa == 0

/-- The number of significant digits; none for zero. -/
def precision (decimal : Decimal) : Nat :=
  Positional.decimalLength decimal.mantissa

/-- The number of fractional digits; negative for multiples of ten. -/
def scale (decimal : Decimal) : Int :=
  clamp (-decimal.exponent)

/-- The exponent of the leading digit. -/
def leadingExponent (decimal : Decimal) : Int :=
  clamp (decimal.exponent + ((decimal.precision : Int) - 1))

def abs (decimal : Decimal) : Decimal :=
  { decimal with negative := false }

/-- The opposite number; zero has no sign. -/
def negate (decimal : Decimal) : Decimal :=
  if decimal.isZero then decimal else { decimal with negative := !decimal.negative }

/-- The number times `10^places`. -/
def shift (decimal : Decimal) (places : Int) : Decimal :=
  if decimal.isZero then decimal
  else { decimal with exponent := clamp (decimal.exponent + places) }

/-- The integer that the number times `10^places` is, when it is one and fits a signed word of
128 bits without passing through a wider one. -/
def toScaledInt? (decimal : Decimal) (places : Int) : Option Int :=
  let exponent := decimal.exponent + places
  if exponent < 0 ∨ 38 < exponent then none
  else
    let magnitude := decimal.mantissa * Positional.weight 10 exponent.toNat
    if magnitude < Positional.weight 2 127 then
      some (if decimal.negative then -(magnitude : Int) else magnitude)
    else none

end Decimal

end LedgerWire
