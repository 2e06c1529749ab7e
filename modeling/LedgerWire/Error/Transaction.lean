import LedgerWire.Error.Wire

namespace LedgerWire

/-!
Why a transaction breaks its format, and why it cannot be signed.
-/

/-- How a transaction breaks its format. -/
inductive FormatError where
  | missingField (field : String)
  | unknownTransactionType (code : Nat)
  | nonNativeFee (field : String)
deriving DecidableEq, Repr

namespace FormatError

def message : FormatError → String
  | .missingField field => "missing required field: " ++ field
  | .unknownTransactionType code => "unknown transaction type: " ++ toString code
  | .nonNativeFee field => "field " ++ field ++ " must be a native amount"

def kind (_ : FormatError) : ErrorKind :=
  .malformedTransaction

end FormatError

/-- Why a transaction cannot be signed. -/
inductive SignError where
  | malformedTransaction (cause : FormatError)
  | serialization (cause : EncodeError)
  | invalidField (cause : ValueError)
  | signingFailed (reason : String)
deriving DecidableEq, Repr

namespace SignError

def message : SignError → String
  | .malformedTransaction cause => "malformed transaction: " ++ cause.message
  | .serialization cause => "serialization failed: " ++ cause.message
  | .invalidField cause => "invalid pipeline field: " ++ cause.message
  | .signingFailed reason => "signing failed: " ++ reason

def kind : SignError → ErrorKind
  | .malformedTransaction _ => .malformedTransaction
  | .serialization _ | .invalidField _ => .serialization
  | .signingFailed _ => .signingFailed

end SignError

end LedgerWire
