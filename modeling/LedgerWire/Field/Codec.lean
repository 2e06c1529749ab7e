import LedgerWire.Field.Known

namespace LedgerWire.Field

/-- The codec of a field's values, decided by its key. -/
def codec (field : Field) : Codec :=
  if field.same Fields.transactionType then .transactionType
  else if field.same Fields.ledgerEntryType then .ledgerEntryType
  else if field.same Fields.transactionResult then .transactionResult
  else if field.same Fields.takerPaysCurrency || field.same Fields.takerGetsCurrency then .currency
  else .plain field.type

end LedgerWire.Field
