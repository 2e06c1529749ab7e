import LedgerWire.Error.Value

namespace LedgerWire

/-!
Why bytes cannot be read, and why a value cannot be written. A context names the part of the
format that was being read, for instance the field.
-/

/-- Why the word of an amount is refused. -/
inductive AmountWordCause where
  | truncated
  | nonCanonicalZero
  | mantissaNotNormalised
  | exponentRange
  | negativeNativeZero
deriving DecidableEq, Repr

def AmountWordCause.message : AmountWordCause → String
  | .truncated => "truncated amount"
  | .nonCanonicalZero => "non-canonical zero"
  | .mantissaNotNormalised => "mantissa not normalised"
  | .exponentRange => "exponent out of range"
  | .negativeNativeZero => "negative native zero"

/-- Which framing rule bytes break. -/
inductive FramingCause where
  | lengthAboveMaximum
  | smallExtendedType
  | smallExtendedField
  | trailingBytes
  | unknownHopBits
  | accountWidth
  | vectorWidth
  | strayEndMarker
  | duplicateField
  | elementNotObject
deriving DecidableEq, Repr

def FramingCause.message : FramingCause → String
  | .lengthAboveMaximum => "length prefix above maximum"
  | .smallExtendedType => "extended type code below 16"
  | .smallExtendedField => "extended field code below 16"
  | .trailingBytes => "trailing bytes after amount"
  | .unknownHopBits => "unknown path hop type bits"
  | .accountWidth => "account id is not 20 bytes"
  | .vectorWidth => "vector256 length is not a multiple of 32"
  | .strayEndMarker => "unexpected end marker"
  | .duplicateField => "duplicate field"
  | .elementNotObject => "array element is not an object"

/-- Why bytes cannot be read. -/
inductive DecodeError where
  | unexpectedEnd (context : String)
  | unknownField (typeCode fieldCode : Nat)
  | unknownType (typeCode : Nat)
  | malformedAmount (cause : AmountWordCause)
  | invalidLengthByte (byte : UInt8)
  | malformedEncoding (cause : FramingCause)
  | nestingTooDeep
  | invalidHex (cause : Text.HexError)
  | value (cause : ValueError)
deriving DecidableEq, Repr

namespace DecodeError

def message : DecodeError → String
  | .unexpectedEnd context => "unexpected end of input while reading " ++ context
  | .unknownField typeCode fieldCode =>
    "unknown field: type " ++ toString typeCode ++ ", field " ++ toString fieldCode
  | .unknownType typeCode => "unknown type code: " ++ toString typeCode
  | .malformedAmount cause => "malformed amount: " ++ cause.message
  | .invalidLengthByte byte => "invalid length prefix byte: 0x" ++ Text.Hex.encode [byte]
  | .malformedEncoding cause => "malformed encoding: " ++ cause.message
  | .nestingTooDeep => "nesting exceeds maximum depth of " ++ toString Limits.maximumDepth
  | .invalidHex cause => "invalid hex input: " ++ cause.message
  | .value cause => cause.message

def kind : DecodeError → ErrorKind
  | .unknownField .. => .unknownField
  | .unknownType .. => .unknownType
  | .malformedAmount .. => .malformedAmount
  | .value cause => cause.kind
  | .unexpectedEnd .. | .invalidLengthByte .. | .malformedEncoding .. | .nestingTooDeep
  | .invalidHex .. => .malformedWireInput

end DecodeError

/-- Why an amount has no word. -/
inductive AmountFitCause where
  | partialDrop
  | dropsRange
  | tooManyDigits
  | exponentRange
  | mantissaRange
deriving DecidableEq, Repr

def AmountFitCause.message : AmountFitCause → String
  | .partialDrop => "is not a whole number of drops"
  | .dropsRange => "does not fit the native drops field"
  | .tooManyDigits => "has more than 16 significant digits"
  | .exponentRange => "exponent out of range"
  | .mantissaRange => "mantissa overflow"

/-- Why a value cannot be written. -/
inductive EncodeError where
  | precision (field value : String) (cause : AmountFitCause)
  | fieldTooLong (field : String) (length : Nat)
  | typeMismatch (field expected : String)
  | malformedArrayElement (found : Nat)
  | emptyPathHop (field : String)
deriving DecidableEq, Repr

namespace EncodeError

def message : EncodeError → String
  | .precision field value cause =>
    "precision error encoding " ++ field ++ ": " ++ value ++ " " ++ cause.message
  | .fieldTooLong field length =>
    "field " ++ field ++ " is too long: " ++ toString length ++ " bytes (max " ++
      toString Limits.maximumLength ++ ")"
  | .typeMismatch field expected =>
    "field " ++ field ++ " holds a value that is not " ++ expected
  | .malformedArrayElement found =>
    "array element must wrap exactly one object field, found " ++ toString found
  | .emptyPathHop field =>
    "field " ++ field ++ " holds a path hop with no account, currency or issuer"

def kind : EncodeError → ErrorKind
  | .precision .. => .precision
  | .fieldTooLong .. => .fieldTooLong
  | .typeMismatch .. | .malformedArrayElement .. | .emptyPathHop .. => .invalidValue

end EncodeError

end LedgerWire
