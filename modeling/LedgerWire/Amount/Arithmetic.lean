import LedgerWire.Amount.Basic
import LedgerWire.Decimal.Arithmetic

namespace LedgerWire.Amount

/-!
Arithmetic on amounts. A result has the denomination of the left operand; it is rounded to that
kind's precision and checked against that kind's bounds.
-/

def denomination (amount : Amount) : String :=
  if amount.isNative then amount.currency.toText
  else amount.currency.toText ++ "/" ++ amount.issuer.toAddress

def sameDenomination (left right : Amount) : Bool :=
  left.currency.same right.currency && (left.isNative || left.issuer == right.issuer)

def requireSameDenomination (left right : Amount) : Except ValueError Unit :=
  if left.sameDenomination right then .ok ()
  else .error (.currencyMismatch left.denomination right.denomination)

/-- Rounds a value to the precision of an amount's kind. -/
def roundFor (amount : Amount) (value : Decimal) : Decimal :=
  if amount.isNative then value.roundScale Limits.nativeScale
  else value.roundSignificant Limits.issuedPrecision

/-- The amount with another value, rounded and checked. -/
def withValue (amount : Amount) (value : Decimal) : Except ValueError Amount := do
  let changed := { amount with value := amount.roundFor value, unbounded := false }
  changed.check
  pure changed

def add (left right : Amount) : Except ValueError Amount := do
  left.requireSameDenomination right
  left.withValue (left.value.add right.value)

def subtract (left right : Amount) : Except ValueError Amount := do
  left.requireSameDenomination right
  left.withValue (left.value.sub right.value)

def multiply (left right : Amount) : Except ValueError Amount :=
  left.withValue (left.value.mul right.value)

def quality (left right : Amount) : Except ValueError Decimal :=
  left.value.div right.value Limits.qualityPrecision

def divide (left right : Amount) : Except ValueError Amount := do
  left.withValue (← left.quality right)

def negate (amount : Amount) : Except ValueError Amount :=
  amount.withValue amount.value.negate

def abs (amount : Amount) : Except ValueError Amount :=
  amount.withValue amount.value.abs

/-- The order of the values, within one denomination only. -/
def compare? (left right : Amount) : Option Ordering :=
  if left.sameDenomination right then some (left.value.compare right.value) else none

end LedgerWire.Amount
