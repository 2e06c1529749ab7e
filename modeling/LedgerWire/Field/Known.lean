import LedgerWire.Field.Registry

namespace LedgerWire.Fields

/-!
The fields that rules of the ledger name. Each is the registered field of its name.
-/

def transactionType : Field := ⟨"TransactionType", .uint16, 2, true⟩
def ledgerEntryType : Field := ⟨"LedgerEntryType", .uint16, 1, true⟩
def transactionResult : Field := ⟨"TransactionResult", .uint8, 3, true⟩
def takerPaysCurrency : Field := ⟨"TakerPaysCurrency", .hash160, 1, true⟩
def takerGetsCurrency : Field := ⟨"TakerGetsCurrency", .hash160, 3, true⟩
def objectEndMarker : Field := ⟨"ObjectEndMarker", .object, 1, true⟩
def arrayEndMarker : Field := ⟨"ArrayEndMarker", .array, 1, true⟩
def account : Field := ⟨"Account", .account, 1, true⟩
def fee : Field := ⟨"Fee", .amount, 8, true⟩
def sequence : Field := ⟨"Sequence", .uint32, 4, true⟩
def signingPubKey : Field := ⟨"SigningPubKey", .blob, 3, true⟩
def flags : Field := ⟨"Flags", .uint32, 2, true⟩
def sourceTag : Field := ⟨"SourceTag", .uint32, 3, true⟩
def lastLedgerSequence : Field := ⟨"LastLedgerSequence", .uint32, 27, true⟩
def accountTxnId : Field := ⟨"AccountTxnID", .hash256, 9, true⟩
def txnSignature : Field := ⟨"TxnSignature", .blob, 4, false⟩
def memos : Field := ⟨"Memos", .array, 9, true⟩
def signers : Field := ⟨"Signers", .array, 3, false⟩
def signer : Field := ⟨"Signer", .object, 16, true⟩
def destination : Field := ⟨"Destination", .account, 3, true⟩
def amount : Field := ⟨"Amount", .amount, 1, true⟩
def sendMax : Field := ⟨"SendMax", .amount, 9, true⟩
def paths : Field := ⟨"Paths", .pathSet, 1, true⟩
def invoiceId : Field := ⟨"InvoiceID", .hash256, 17, true⟩
def destinationTag : Field := ⟨"DestinationTag", .uint32, 14, true⟩
def deliverMin : Field := ⟨"DeliverMin", .amount, 10, true⟩
def emailHash : Field := ⟨"EmailHash", .hash128, 1, true⟩
def walletLocator : Field := ⟨"WalletLocator", .hash256, 7, true⟩
def walletSize : Field := ⟨"WalletSize", .uint32, 12, true⟩
def messageKey : Field := ⟨"MessageKey", .blob, 2, true⟩
def domain : Field := ⟨"Domain", .blob, 7, true⟩
def transferRate : Field := ⟨"TransferRate", .uint32, 11, true⟩
def setFlag : Field := ⟨"SetFlag", .uint32, 33, true⟩
def clearFlag : Field := ⟨"ClearFlag", .uint32, 34, true⟩
def tickSize : Field := ⟨"TickSize", .uint8, 16, true⟩
def regularKey : Field := ⟨"RegularKey", .account, 8, true⟩
def takerPays : Field := ⟨"TakerPays", .amount, 4, true⟩
def takerGets : Field := ⟨"TakerGets", .amount, 5, true⟩
def expiration : Field := ⟨"Expiration", .uint32, 10, true⟩
def offerSequence : Field := ⟨"OfferSequence", .uint32, 25, true⟩
def signerQuorum : Field := ⟨"SignerQuorum", .uint32, 35, true⟩
def signerEntries : Field := ⟨"SignerEntries", .array, 4, true⟩
def limitAmount : Field := ⟨"LimitAmount", .amount, 3, true⟩
def qualityIn : Field := ⟨"QualityIn", .uint32, 20, true⟩
def qualityOut : Field := ⟨"QualityOut", .uint32, 21, true⟩
def amendment : Field := ⟨"Amendment", .hash256, 19, true⟩
def ledgerSequence : Field := ⟨"LedgerSequence", .uint32, 6, true⟩
def baseFee : Field := ⟨"BaseFee", .uint64, 5, true⟩
def referenceFeeUnits : Field := ⟨"ReferenceFeeUnits", .uint32, 30, true⟩
def reserveBase : Field := ⟨"ReserveBase", .uint32, 31, true⟩
def reserveIncrement : Field := ⟨"ReserveIncrement", .uint32, 32, true⟩
def balance : Field := ⟨"Balance", .amount, 2, true⟩
def ownerCount : Field := ⟨"OwnerCount", .uint32, 13, true⟩
def previousTxnId : Field := ⟨"PreviousTxnID", .hash256, 5, true⟩
def previousTxnLgrSeq : Field := ⟨"PreviousTxnLgrSeq", .uint32, 5, true⟩
def bookDirectory : Field := ⟨"BookDirectory", .hash256, 16, true⟩
def bookNode : Field := ⟨"BookNode", .uint64, 3, true⟩
def ownerNode : Field := ⟨"OwnerNode", .uint64, 4, true⟩
def lowLimit : Field := ⟨"LowLimit", .amount, 6, true⟩
def highLimit : Field := ⟨"HighLimit", .amount, 7, true⟩
def lowNode : Field := ⟨"LowNode", .uint64, 7, true⟩
def highNode : Field := ⟨"HighNode", .uint64, 8, true⟩
def owner : Field := ⟨"Owner", .account, 2, true⟩
def rootIndex : Field := ⟨"RootIndex", .hash256, 8, true⟩
def indexNext : Field := ⟨"IndexNext", .uint64, 1, true⟩
def indexPrevious : Field := ⟨"IndexPrevious", .uint64, 2, true⟩
def indexes : Field := ⟨"Indexes", .vector256, 1, true⟩

/-- All fields that rules name. -/
def all : List Field :=
  [transactionType, ledgerEntryType, transactionResult, takerPaysCurrency, takerGetsCurrency,
   objectEndMarker, arrayEndMarker, account, fee, sequence, signingPubKey, flags, sourceTag,
   lastLedgerSequence, accountTxnId, txnSignature, memos, signers, signer, destination, amount,
   sendMax, paths, invoiceId, destinationTag, deliverMin, emailHash, walletLocator, walletSize,
   messageKey, domain, transferRate, setFlag, clearFlag, tickSize, regularKey, takerPays,
   takerGets, expiration, offerSequence, signerQuorum, signerEntries, limitAmount, qualityIn,
   qualityOut, amendment, ledgerSequence, baseFee, referenceFeeUnits, reserveBase,
   reserveIncrement, balance, ownerCount, previousTxnId, previousTxnLgrSeq, bookDirectory,
   bookNode, ownerNode, lowLimit, highLimit, lowNode, highNode, owner, rootIndex, indexNext,
   indexPrevious, indexes]

theorem registered : all.all (fun field => Field.named? field.name == some field) = true := by
  decide +kernel

end LedgerWire.Fields
