import LedgerWire.Decimal.Text

namespace LedgerWire

/-!
IEEE 754 doubles as words: rounding a fraction to the nearest double, and the shortest decimal
text that rounds back to a double. Everything is exact arithmetic on naturals.
-/

/-- A double, by its 64 bits. -/
structure Double where
  bits : UInt64
deriving DecidableEq, Repr

namespace Double

open Positional

def signBit : Nat := 0x8000000000000000

/-- The weight of the exponent field's lowest bit, `2 ^ 52`. -/
def exponentUnit : Nat := 0x10000000000000

/-- How many smallest positive doubles, of `2 ^ -1074` each, make one. -/
def unitsPerOne : Nat := weight 2 1074

def negative (double : Double) : Bool :=
  signBit ≤ double.bits.toNat

def exponentField (double : Double) : Nat :=
  double.bits.toNat / exponentUnit % 2048

def fraction (double : Double) : Nat :=
  double.bits.toNat % exponentUnit

/-- A finite magnitude is `significand · 2 ^ (power - 1074)`. -/
def significand (double : Double) : Nat :=
  if double.exponentField = 0 then double.fraction else exponentUnit + double.fraction

def power (double : Double) : Nat :=
  double.exponentField - 1

/-- The word of a sign and the other 63 bits. -/
def ofMagnitude (negative : Bool) (magnitude : Nat) : Double :=
  ⟨UInt64.ofNat (if negative then signBit + magnitude else magnitude)⟩

/-- The nearest integer to a fraction, ties to even. -/
def roundHalfEven (numerator denominator : Nat) : Nat :=
  let quotient := numerator / denominator
  let twice := 2 * (numerator % denominator)
  if denominator < twice ∨ (twice = denominator ∧ quotient % 2 = 1) then quotient + 1
  else quotient

/-- The least power whose unit keeps a number of smallest units within 53 bits. -/
def powerFor (units : Nat) : Nat :=
  units.log2 - 52

/-- The nearest double to `±numerator / denominator`, ties to even; none past the largest. Since a
significand that rounds up to `2 ^ 53` carries into the exponent field, adding fields is enough. -/
def ofFraction? (negative : Bool) (numerator denominator : Nat) : Option Double :=
  let power := powerFor (numerator * unitsPerOne / denominator)
  let significand := roundHalfEven (numerator * unitsPerOne) (denominator * weight 2 power)
  let magnitude := power * exponentUnit + significand
  if magnitude < 2047 * exponentUnit then some (ofMagnitude negative magnitude) else none

/-- The magnitude in units of `2 ^ -1074`. -/
def units (double : Double) : Nat :=
  double.significand * weight 2 double.power

/-- The nearest double to a product, with the sign of the first factor. -/
def mul? (double factor : Double) : Option Double :=
  ofFraction? double.negative (double.units * factor.units)
    (unitsPerOne * unitsPerOne)

/-- The nearest double to a quotient, with the sign of the dividend. -/
def div? (double divisor : Double) : Option Double :=
  ofFraction? double.negative double.units divisor.units

def powerOfTen? (exponent : Nat) : Option Double :=
  ofFraction? false (weight 10 exponent) 1

/-- The largest exponent of a power of ten that is a double. -/
def largestPower : Nat := 308

/-- A double times a power of ten, rounded at the multiplication. Small exponents take as many
divisions as their power of ten needs doubles. -/
def scaleByTen? (double : Double) (exponent : Int) : Option Double :=
  if double.units = 0 then some double
  else if (largestPower : Int) < exponent then none
  else if 0 ≤ exponent then do
    double.mul? (← powerOfTen? exponent.toNat)
  else if -(largestPower : Int) ≤ exponent then do
    double.div? (← powerOfTen? (-exponent).toNat)
  else do
    scaleByTen? (← double.div? (← powerOfTen? largestPower)) (exponent + largestPower)
termination_by (-exponent).toNat
decreasing_by simp only [largestPower] at *; omega

/-!
The shortest text. All numbers below are quarters of the smallest unit, so that the ends of the
interval that rounds to a double are integers.
-/

/-- The double itself, and the two ends of the interval that rounds to it. The lower neighbour of
a power of two is at half the distance. -/
def interval (double : Double) : Nat × Nat × Nat :=
  let step := weight 2 double.power
  let value := 4 * double.units
  let below := if double.fraction = 0 ∧ 1 < double.exponentField then step else 2 * step
  (value - below, value, value + 2 * step)

def leadingExponent (double : Double) : Int :=
  (decimalLength (double.units * weight 10 340 / unitsPerOne) : Int) - 341

/-- The multiple of `10 ^ exponent` that rounds to the double, if one does: of two the nearer, of
two equally near the even one. The ends of the interval belong to it when the significand is
even. -/
def onGrid? (double : Double) (exponent : Int) : Option Nat :=
  let unit := weight 10 exponent.toNat * (4 * unitsPerOne)
  let factor := weight 10 (-exponent).toNat
  let (low, value, high) := double.interval
  let inside (multiple : Nat) : Bool :=
    if double.significand % 2 = 0 then
      low * factor ≤ multiple * unit && multiple * unit ≤ high * factor
    else
      low * factor < multiple * unit && multiple * unit < high * factor
  let floor := value * factor / unit
  let remainder := value * factor % unit
  match inside floor, inside (floor + 1) with
  | true, true =>
    if 2 * remainder < unit ∨ (2 * remainder = unit ∧ floor % 2 = 0) then some floor
    else some (floor + 1)
  | true, false => some floor
  | false, true => some (floor + 1)
  | false, false => none

/-- The first grid, from coarse to fine, with a multiple that rounds to the double. Seventeen
digits always have one. -/
def shortestFrom (double : Double) (leading : Int) (digits : Nat) : Nat → Decimal
  | 0 => Decimal.zero
  | grids + 1 =>
    let exponent := leading - (digits - 1)
    match double.onGrid? exponent with
    | some multiple => Decimal.normal double.negative multiple exponent
    | none => shortestFrom double leading (digits + 1) grids

/-- The decimal of fewest digits that rounds to a finite double. -/
def shortest (double : Double) : Decimal :=
  if double.significand = 0 then Decimal.zero
  else shortestFrom double double.leadingExponent 1 17

/-- Plain notation, always with a fractional part, while the leading exponent lies from -5 to 15;
beyond, scientific notation with a signed exponent. -/
def text (double : Double) : String :=
  let sign := if double.negative then "-" else ""
  let decimal := double.shortest.abs
  if decimal.isZero then sign ++ "0.0"
  else
    let leading := decimal.leadingExponent
    if -5 ≤ leading ∧ leading ≤ 15 then
      sign ++ decimal.plain ++ (if 0 ≤ decimal.exponent then ".0" else "")
    else
      let digits := Decimal.digitText decimal.mantissa
      let rest := digits.drop 1
      sign ++ String.ofList (digits.take 1 ++ (if rest.isEmpty then [] else '.' :: rest)) ++ "e" ++
        (if 0 ≤ leading then "+" else "") ++ toString leading

end Double

end LedgerWire
