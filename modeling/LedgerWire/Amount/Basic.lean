import LedgerWire.Account.Basic
import LedgerWire.Currency
import LedgerWire.Decimal.Rounding

namespace LedgerWire

/-!
Monetary amounts. A native amount is a value of one of the two native assets, in display units of
a million drops; an issued amount is a decimal in a currency of an issuer. Every constructor checks
the bounds of its kind.
-/

/-- An amount. Native amounts have the zero account as their issuer. An unbounded issued amount may
carry more digits than the wire holds, and is rounded when written. -/
structure Amount where
  value : Decimal
  currency : Currency
  issuer : Account
  unbounded : Bool
deriving DecidableEq

namespace Amount

def isNative (amount : Amount) : Bool :=
  amount.currency.isNative

def nativeAsset? (amount : Amount) : Option NativeAsset :=
  amount.currency.nativeAsset?

def isZero (amount : Amount) : Bool :=
  amount.value.isZero

def isNegative (amount : Amount) : Bool :=
  amount.value.negative

/-- A decimal in display units as a number of drops. -/
def toDrops? (value : Decimal) : Option Int :=
  value.toScaledInt? Limits.nativeScale

/-- Whether a decimal in display units is one of the values of early ledgers. -/
def isHistorical (value : Decimal) : Bool :=
  match toDrops? value with
  | some drops => Limits.historicalDrops.any fun exception => (exception : Int) == drops
  | none => false

def checkNative (value : Decimal) : Except ValueError Unit :=
  if value.isZero || isHistorical value then .ok ()
  else if Limits.nativeScale < value.scale then
    .error (.precision value.scientific .tooManyFractionalDigits)
  else
    match toDrops? value.abs with
    | some drops =>
      if drops ≤ Limits.maximumDrops then .ok ()
      else .error (.precision value.scientific .aboveNativeMaximum)
    | none => .error (.precision value.scientific .aboveNativeMaximum)

/-- The exponent that a value has once its mantissa is brought to sixteen digits. -/
def normalisedExponent (value : Decimal) : Int :=
  Decimal.clamp (value.exponent + ((value.precision : Int) - Limits.issuedPrecision))

/-- Whether a sixteen-digit mantissa may have the exponent. -/
def inExponentRange (exponent : Int) : Bool :=
  Limits.minimumExponent ≤ exponent && exponent ≤ Limits.maximumExponent

/-- Checks the bounds of an issued value. That of an unbounded amount is rounded first. -/
def checkIssued (value : Decimal) (unbounded : Bool) : Except ValueError Unit :=
  if value.isZero then .ok ()
  else if !unbounded && Limits.issuedPrecision < value.precision then
    .error (.precision value.scientific .tooManyIssuedDigits)
  else
    let rounded := if unbounded then value.roundSignificant Limits.issuedPrecision else value
    let exponent := normalisedExponent rounded
    if inExponentRange exponent then .ok ()
    else .error (.precision value.scientific (.issuedExponentRange exponent))

def check (amount : Amount) : Except ValueError Unit :=
  if amount.isNative then checkNative amount.value
  else checkIssued amount.value amount.unbounded

/-- A value of a native asset in display units. -/
def native (asset : NativeAsset) (value : Decimal) : Except ValueError Amount := do
  checkNative value
  pure ⟨value, asset.currency, Account.zero, false⟩

/-- A number of drops of a native asset. -/
def ofDrops (asset : NativeAsset) (drops : Int) : Except ValueError Amount :=
  native asset ((Decimal.ofInt drops).shift (-Limits.nativeScale))

/-- Reads a number of drops of the primary asset, a signed 64-bit literal. -/
def parseDrops (text : String) : Except ValueError Amount :=
  match Text.signed? 64 text.toList with
  | some drops => ofDrops .primary drops
  | none => .error (.malformedAmount (.invalidDropsText text))

/-- An issued amount; unbounded ones may exceed sixteen digits. -/
def issuedWith (unbounded : Bool) (value : Decimal) (currency : Currency) (issuer : Account) :
    Except ValueError Amount := do
  if currency.isNative then
    throw (.invalidCurrencyCode currency.toText)
  checkIssued value unbounded
  pure ⟨value, currency, issuer, unbounded⟩

/-- An issued amount of at most sixteen digits. -/
def issued (value : Decimal) (currency : Currency) (issuer : Account) :
    Except ValueError Amount :=
  issuedWith false value currency issuer

def drops? (amount : Amount) : Option Int :=
  if amount.isNative then
    (toDrops? amount.value).filter (Text.fitsSigned 64)
  else none

/-- The value as the wire holds it: rounded to sixteen digits if issued. -/
def wireValue (amount : Amount) : Decimal :=
  if amount.isNative then amount.value
  else amount.value.roundSignificant Limits.issuedPrecision

/-- Whether two amounts have equal value, currency and issuer. Whether they are unbounded does not
matter. -/
def same (left right : Amount) : Bool :=
  left.value == right.value && left.currency.same right.currency && left.issuer == right.issuer

end Amount

end LedgerWire
