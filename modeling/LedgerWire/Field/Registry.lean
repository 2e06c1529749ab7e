import LedgerWire.Field.Basic

namespace LedgerWire

namespace Registry

/-!
The registered fields, in one table for each type, by name and field code. Names and keys are
unique, so that a field is found by either.
-/

def uint8Table : List (String × UInt16) :=
  [("CloseResolution", 1), ("Method", 2), ("TransactionResult", 3), ("TickSize", 16)]

def uint16Table : List (String × UInt16) :=
  [("LedgerEntryType", 1), ("TransactionType", 2), ("SignerWeight", 3), ("TransferFee", 4)]

def uint32Table : List (String × UInt16) :=
  [("Flags", 2), ("SourceTag", 3), ("Sequence", 4), ("PreviousTxnLgrSeq", 5),
   ("LedgerSequence", 6), ("CloseTime", 7), ("ParentCloseTime", 8), ("SigningTime", 9),
   ("Expiration", 10), ("TransferRate", 11), ("WalletSize", 12), ("OwnerCount", 13),
   ("DestinationTag", 14), ("HighQualityIn", 16), ("HighQualityOut", 17), ("LowQualityIn", 18),
   ("LowQualityOut", 19), ("QualityIn", 20), ("QualityOut", 21), ("StampEscrow", 22),
   ("BondAmount", 23), ("LoadFee", 24), ("OfferSequence", 25), ("FirstLedgerSequence", 26),
   ("LastLedgerSequence", 27), ("TransactionIndex", 28), ("OperationLimit", 29),
   ("ReferenceFeeUnits", 30), ("ReserveBase", 31), ("ReserveIncrement", 32), ("SetFlag", 33),
   ("ClearFlag", 34), ("SignerQuorum", 35), ("CancelAfter", 36), ("FinishAfter", 37),
   ("SignerListID", 38), ("SettleDelay", 39)]

def uint64Table : List (String × UInt16) :=
  [("IndexNext", 1), ("IndexPrevious", 2), ("BookNode", 3), ("OwnerNode", 4), ("BaseFee", 5),
   ("ExchangeRate", 6), ("LowNode", 7), ("HighNode", 8)]

def hash128Table : List (String × UInt16) :=
  [("EmailHash", 1)]

def hash256Table : List (String × UInt16) :=
  [("LedgerHash", 1), ("ParentHash", 2), ("TransactionHash", 3), ("AccountHash", 4),
   ("PreviousTxnID", 5), ("LedgerIndex", 6), ("WalletLocator", 7), ("RootIndex", 8),
   ("AccountTxnID", 9), ("BookDirectory", 16), ("InvoiceID", 17), ("Nickname", 18),
   ("Amendment", 19), ("TicketID", 20), ("Digest", 21), ("hash", 257), ("index", 258)]

def amountTable : List (String × UInt16) :=
  [("Amount", 1), ("Balance", 2), ("LimitAmount", 3), ("TakerPays", 4), ("TakerGets", 5),
   ("LowLimit", 6), ("HighLimit", 7), ("Fee", 8), ("SendMax", 9), ("DeliverMin", 10),
   ("MinimumOffer", 16), ("RippleEscrow", 17), ("DeliveredAmount", 18)]

def blobTable : List (String × UInt16) :=
  [("PublicKey", 1), ("MessageKey", 2), ("SigningPubKey", 3), ("TxnSignature", 4),
   ("Signature", 6), ("Domain", 7), ("FundCode", 8), ("RemoveCode", 9), ("ExpireCode", 10),
   ("CreateCode", 11), ("MemoType", 12), ("MemoData", 13), ("MemoFormat", 14),
   ("Fulfillment", 16), ("Condition", 17)]

def accountTable : List (String × UInt16) :=
  [("Account", 1), ("Owner", 2), ("Destination", 3), ("Issuer", 4), ("Target", 7),
   ("RegularKey", 8)]

def objectTable : List (String × UInt16) :=
  [("ObjectEndMarker", 1), ("TransactionMetaData", 2), ("CreatedNode", 3), ("DeletedNode", 4),
   ("ModifiedNode", 5), ("PreviousFields", 6), ("FinalFields", 7), ("NewFields", 8),
   ("TemplateEntry", 9), ("Memo", 10), ("SignerEntry", 11), ("Signer", 16), ("Majority", 18)]

def arrayTable : List (String × UInt16) :=
  [("ArrayEndMarker", 1), ("Signers", 3), ("SignerEntries", 4), ("Template", 5), ("Necessary", 6),
   ("Sufficient", 7), ("AffectedNodes", 8), ("Memos", 9), ("Majorities", 16)]

def hash160Table : List (String × UInt16) :=
  [("TakerPaysCurrency", 1), ("TakerPaysIssuer", 2), ("TakerGetsCurrency", 3),
   ("TakerGetsIssuer", 4)]

def pathSetTable : List (String × UInt16) :=
  [("Paths", 1)]

def vector256Table : List (String × UInt16) :=
  [("Indexes", 1), ("Hashes", 2), ("Amendments", 3)]

/-- The registered fields that no signature covers, being signatures themselves. -/
def unsignedNames : List String := ["TxnSignature", "Signers"]

def ofTable (type : FieldType) (table : List (String × UInt16)) : List Field :=
  table.map fun entry => ⟨entry.1, type, entry.2, !unsignedNames.contains entry.1⟩

/-- Every registered field, grouped by type. -/
def all : List Field :=
  ofTable .uint8 uint8Table ++
  ofTable .uint16 uint16Table ++
  ofTable .uint32 uint32Table ++
  ofTable .uint64 uint64Table ++
  ofTable .hash128 hash128Table ++
  ofTable .hash256 hash256Table ++
  ofTable .amount amountTable ++
  ofTable .blob blobTable ++
  ofTable .account accountTable ++
  ofTable .object objectTable ++
  ofTable .array arrayTable ++
  ofTable .hash160 hash160Table ++
  ofTable .pathSet pathSetTable ++
  ofTable .vector256 vector256Table

end Registry

namespace Field

def named? (name : String) : Option Field :=
  Registry.all.find? (·.name == name)

def coded? (typeCode fieldCode : UInt16) : Option Field :=
  Registry.all.find? fun field => field.type.code == typeCode && field.code == fieldCode

end Field

end LedgerWire
