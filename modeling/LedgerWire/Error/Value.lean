import LedgerWire.Error.Kind
import LedgerWire.Limits
import LedgerWire.Text.Hex

namespace LedgerWire

open Text

/-!
Why a value cannot be built, or read from text or JSON. Each failure is its cause; the wording
is in the `message` functions alone.
-/

/-- Why a number does not fit its place. -/
inductive PrecisionCause where
  | tooManyDigits
  | decimalExponentRange
  | tooManyFractionalDigits
  | aboveNativeMaximum
  | tooManyIssuedDigits
  | issuedExponentRange (exponent : Int)
deriving DecidableEq, Repr

def PrecisionCause.message : PrecisionCause → String
  | .tooManyDigits => "exceeds " ++ toString Limits.decimalPrecision ++ " significant digits"
  | .decimalExponentRange => "exponent out of range"
  | .tooManyFractionalDigits =>
    "has more than " ++ toString Limits.nativeScale ++ " fractional digits"
  | .aboveNativeMaximum => "exceeds the native maximum"
  | .tooManyIssuedDigits =>
    "has more than " ++ toString Limits.issuedPrecision ++ " significant digits"
  | .issuedExponentRange exponent =>
    "exponent " ++ toString exponent ++ " outside [" ++ toString Limits.minimumExponent ++ ", " ++
      toString Limits.maximumExponent ++ "]"

/-- Why a text is no account address. -/
inductive AddressCause where
  | invalidDigit
  | tooShort
  | checksumMismatch
  | emptyPayload
  | unexpectedVersion
  | payloadWidth
deriving DecidableEq, Repr

def AddressCause.message : AddressCause → String
  | .invalidDigit => "invalid base58"
  | .tooShort => "too short"
  | .checksumMismatch => "checksum mismatch"
  | .emptyPayload => "empty payload"
  | .unexpectedVersion => "unexpected version byte"
  | .payloadWidth => "payload is not 20 bytes"

/-- Why a text or a JSON value is no amount. -/
inductive AmountCause where
  | invalidDecimal (text : String)
  | invalidDropsText (text : String)
  | invalidDropsNumber (number : String)
  | missingIssuer (text : String)
  | unrecognised (text : String)
  | missingMember (key : String)
  | memberNotText (key : String)
  | notTextOrObject
deriving DecidableEq, Repr

def AmountCause.message : AmountCause → String
  | .invalidDecimal text => "invalid decimal " ++ quoted text
  | .invalidDropsText text => "invalid drops string " ++ quoted text
  | .invalidDropsNumber number => "invalid drops " ++ number
  | .missingIssuer text => quoted text ++ " names an issued currency without issuer"
  | .unrecognised text => "unrecognised amount " ++ quoted text
  | .missingMember key => "missing " ++ key
  | .memberNotText key => key ++ " must be a string"
  | .notTextOrObject => "expected a string or an object"

/-- Why a JSON value is not of a field's kind. -/
inductive JsonCause where
  | expectedObject
  | expectedString
  | expectedUnsigned
  | outOfRange (number : Nat)
  | expectedHexWord
  | invalidHexWord (text : String)
  | unknownTransactionType (name : String)
  | unknownLedgerEntryType (name : String)
  | unknownEngineResult (name : String)
  | expectedHashes
  | expectedArray
  | expectedSingleKey
  | expectedPaths
  | expectedHops
  | expectedHop
  | hopMemberNotText (key : String)
  | emptyHop
deriving DecidableEq, Repr

def JsonCause.message : JsonCause → String
  | .expectedObject => "expected a JSON object"
  | .expectedString => "expected a string"
  | .expectedUnsigned => "expected an unsigned integer"
  | .outOfRange number => toString number ++ " is out of range"
  | .expectedHexWord => "expected a hex string of up to 16 digits"
  | .invalidHexWord text => "invalid UInt64 hex " ++ quoted text
  | .unknownTransactionType name => "unknown transaction type " ++ quoted name
  | .unknownLedgerEntryType name => "unknown ledger entry type " ++ quoted name
  | .unknownEngineResult name => "unknown engine result " ++ quoted name
  | .expectedHashes => "expected an array of hashes"
  | .expectedArray => "expected an array"
  | .expectedSingleKey => "array elements must have exactly one key"
  | .expectedPaths => "expected an array of paths"
  | .expectedHops => "expected an array of hops"
  | .expectedHop => "expected a hop object"
  | .hopMemberNotText key => "hop " ++ key ++ " must be a string"
  | .emptyHop => "hop names no account, currency or issuer"

/-- Why a value cannot be built or read. -/
inductive ValueError where
  | precision (value : String) (cause : PrecisionCause)
  | invalidCurrencyCode (code : String)
  | malformedAddress (address : String) (cause : AddressCause)
  | malformedAmount (cause : AmountCause)
  | currencyMismatch (left right : String)
  | divisionByZero
  | invalidLength (subject : String) (expected actual : Nat)
  | invalidHex (subject : String) (cause : HexError)
  | unknownField (name : String)
  | typeMismatch (field expected : String)
  | invalidJson (field : String) (cause : JsonCause)
deriving DecidableEq, Repr

namespace ValueError

def message : ValueError → String
  | .precision value cause => "precision error: " ++ value ++ " " ++ cause.message
  | .invalidCurrencyCode code => "invalid currency code: " ++ quoted code
  | .malformedAddress address cause =>
    "malformed address " ++ quoted address ++ ": " ++ cause.message
  | .malformedAmount cause => "malformed amount: " ++ cause.message
  | .currencyMismatch left right => "currency mismatch: " ++ left ++ " vs " ++ right
  | .divisionByZero => "division by zero"
  | .invalidLength subject expected actual =>
    "invalid length for " ++ subject ++ ": expected " ++ toString expected ++ ", got " ++
      toString actual
  | .invalidHex subject cause => "invalid hex for " ++ subject ++ ": " ++ cause.message
  | .unknownField name => "unknown field: " ++ name
  | .typeMismatch field expected => "field " ++ field ++ " expects " ++ expected
  | .invalidJson field cause => "invalid JSON for " ++ field ++ ": " ++ cause.message

def kind : ValueError → ErrorKind
  | .precision .. => .precision
  | .invalidCurrencyCode .. => .invalidCurrencyCode
  | .malformedAddress .. => .malformedAddress
  | .malformedAmount .. => .malformedAmount
  | .unknownField .. => .unknownField
  | .currencyMismatch .. | .divisionByZero | .invalidLength .. | .invalidHex ..
  | .typeMismatch .. | .invalidJson .. => .invalidValue

end ValueError

end LedgerWire
