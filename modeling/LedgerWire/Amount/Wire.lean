import LedgerWire.Amount.Basic
import LedgerWire.Wire.Framing

namespace LedgerWire.Amount

/-!
The wire form of amounts. A native amount is one 64-bit word: a zero bit, a bit for a non-negative
value, a bit for the secondary asset, and the drops. An issued amount is a word followed by the
currency and the issuer; the word has a one bit, a bit for a positive value, eight bits of biased
exponent and 54 bits of sixteen-digit mantissa. The word of an issued zero is its one bit alone.
-/

def bitIf (set : Bool) (weight : Nat) : Nat :=
  if set then weight else 0

def nativeWord (field : String) (amount : Amount) : Except EncodeError Nat :=
  match amount.drops? with
  | none => .error (.precision field amount.value.scientific .partialDrop)
  | some drops =>
    if Limits.dropsMask < drops.natAbs then
      .error (.precision field amount.value.scientific .dropsRange)
    else
      .ok (bitIf (0 ≤ drops) Limits.positiveBit +
        bitIf (amount.nativeAsset? = some .secondary) Limits.secondaryBit + drops.natAbs)

def issuedWord (field : String) (amount : Amount) : Except EncodeError Nat :=
  let value := amount.wireValue
  let exponent := normalisedExponent value
  let mantissa := value.mantissa * Positional.weight 10 (Limits.issuedPrecision - value.precision)
  if !amount.unbounded && Limits.issuedPrecision < amount.value.precision then
    .error (.precision field amount.value.scientific .tooManyDigits)
  else if value.isZero then .ok Limits.issuedBit
  else if !inExponentRange exponent then
    .error (.precision field amount.value.scientific .exponentRange)
  else if UInt64.size ≤ mantissa then
    .error (.precision field amount.value.scientific .mantissaRange)
  else
    .ok (Limits.issuedBit + bitIf (!value.negative) Limits.positiveBit +
      (exponent + Limits.exponentBias).toNat * Limits.exponentUnit + mantissa)

def toBytesFor (field : String) (amount : Amount) : Except EncodeError Bytes :=
  if amount.isNative then
    (amount.nativeWord field).map (Bytes.bigEndian 8)
  else
    (amount.issuedWord field).map fun word =>
      Bytes.bigEndian 8 word ++ amount.currency.toBytes ++ amount.issuer.toBytes

def toBytes (amount : Amount) : Except EncodeError Bytes :=
  amount.toBytesFor "Amount"

def hasBit (word weight : Nat) : Bool :=
  word / weight % 2 == 1

/-- The native amount of a word without the issued bit. -/
def ofNativeWord (word : Nat) : Except DecodeError Amount :=
  let drops := word % Limits.secondaryBit
  let positive := hasBit word Limits.positiveBit
  if !positive && drops == 0 then .error (.malformedAmount .negativeNativeZero)
  else
    let asset := if hasBit word Limits.secondaryBit then NativeAsset.secondary else .primary
    (ofDrops asset (if positive then (drops : Int) else -(drops : Int))).mapError .value

/-- The issued amount of a word with the issued bit. -/
def ofIssuedWord (word : Nat) (currency : Currency) (issuer : Account) :
    Except DecodeError Amount :=
  let mantissa := word % Limits.exponentUnit
  let exponent := (word / Limits.exponentUnit % 256 : Nat) - Limits.exponentBias
  if mantissa = 0 then
    if word = Limits.issuedBit then (issued Decimal.zero currency issuer).mapError .value
    else .error (.malformedAmount .nonCanonicalZero)
  else if mantissa < Limits.minimumMantissa ∨ Limits.maximumMantissa < mantissa then
    .error (.malformedAmount .mantissaNotNormalised)
  else if !inExponentRange exponent then .error (.malformedAmount .exponentRange)
  else
    let value := Decimal.normal (!hasBit word Limits.positiveBit) mantissa exponent
    (issued value currency issuer).mapError .value

/-- Reads part of an amount. Whatever part is missing, the amount is truncated. -/
def part {α : Type} (reader : Reader α) : Reader α :=
  reader.mapCause fun _ => .malformedAmount .truncated

def read : Reader Amount := do
  let word ← part (Reader.natural 8 "amount")
  if hasBit word Limits.issuedBit then
    let currency ← part (Reader.octets 20 "amount currency")
    let issuer ← part (Reader.octets 20 "amount issuer")
    Reader.ofExcept (ofIssuedWord word ⟨currency⟩ ⟨issuer⟩)
  else
    Reader.ofExcept (ofNativeWord word)

/-- The amount that bytes are the wire form of, nothing following it. -/
def ofBytes (bytes : Bytes) : Except DecodeError Amount :=
  match read.run bytes with
  | .done amount [] => .ok amount
  | .done _ (_ :: _) => .error (.malformedEncoding .trailingBytes)
  | .failed cause _ => .error cause

end LedgerWire.Amount
