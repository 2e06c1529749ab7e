namespace LedgerWire

/-- The flat classification of every failure, for callers that only sort failures. -/
inductive ErrorKind where
  | malformedWireInput
  | precision
  | invalidCurrencyCode
  | malformedAddress
  | malformedAmount
  | fieldTooLong
  | unknownField
  | unknownType
  | malformedTransaction
  | signingFailed
  | serialization
  | invalidValue
deriving DecidableEq, Repr

def ErrorKind.name : ErrorKind → String
  | .malformedWireInput => "MalformedWireInput"
  | .precision => "PrecisionError"
  | .invalidCurrencyCode => "InvalidCurrencyCode"
  | .malformedAddress => "AddressFormatMalformed"
  | .malformedAmount => "MalformedAmount"
  | .fieldTooLong => "FieldTooLong"
  | .unknownField => "UnknownField"
  | .unknownType => "UnknownType"
  | .malformedTransaction => "MalformedTransaction"
  | .signingFailed => "SigningFailed"
  | .serialization => "SerializationError"
  | .invalidValue => "InvalidValue"

end LedgerWire
