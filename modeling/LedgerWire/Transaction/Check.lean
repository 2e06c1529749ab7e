import LedgerWire.Error.Transaction
import LedgerWire.Transaction.Format

namespace LedgerWire.Object

/-!
Checks of a transaction against the fields of its type.
-/

/-- The transaction type, which has to be present and known. -/
def requireTransactionType (transaction : Object) : Except FormatError TransactionType :=
  match transaction.uint16? Fields.transactionType with
  | none => .error (.missingField Fields.transactionType.name)
  | some code =>
    match TransactionType.ofCode? code with
    | some type => .ok type
    | none => .error (.unknownTransactionType code.toNat)

/-- The first required field of a type that applies and is absent. -/
def missingField? (transaction : Object) (type : TransactionType) (applies : Field → Bool) :
    Option Field :=
  (type.fields.find? fun entry =>
    entry.2 == .required && applies entry.1 && !transaction.contains entry.1).map Prod.fst

def checkRequired (transaction : Object) (applies : Field → Bool) :
    Except FormatError TransactionType := do
  let type ← transaction.requireTransactionType
  match transaction.missingField? type applies with
  | some field => throw (.missingField field.name)
  | none => pure type

/-- The fields that signing fills in. -/
def filledFields : List Field :=
  [Fields.fee, Fields.sequence, Fields.signingPubKey]

/-- Checks a transaction that is to be signed; what signing fills in may be absent. -/
def checkForSigning (transaction : Object) : Except FormatError TransactionType :=
  transaction.checkRequired fun field => !filledFields.any field.same

/-- Checks a whole transaction, whose fee has to be native. -/
def checkComplete (transaction : Object) : Except FormatError TransactionType := do
  let type ← transaction.checkRequired fun _ => true
  match transaction.amount? Fields.fee with
  | some fee =>
    unless fee.isNative do
      throw (.nonNativeFee Fields.fee.name)
    pure type
  | none => pure type

end LedgerWire.Object
