import LedgerWire.Object.Basic

namespace LedgerWire

/-!
What objects stand for, and which fields each type of transaction has.
-/

/-- What an object stands for, by its kind field. -/
inductive Format where
  | transaction (type : TransactionType)
  | ledgerEntry (type : LedgerEntryType)
  | generic
deriving DecidableEq, Repr

/-- The format of an object. A known transaction type goes before a known ledger entry type. -/
def Object.format (object : Object) : Format :=
  match object.transactionType?, object.ledgerEntryType? with
  | some type, _ => .transaction type
  | none, some type => .ledgerEntry type
  | none, none => .generic

/-- Whether a field has to be present. A field of its default value may be left out. -/
inductive Requirement where
  | required
  | optional
  | default
deriving DecidableEq, Repr

def Requirement.name : Requirement → String
  | .required => "Required"
  | .optional => "Optional"
  | .default => "Default"

namespace TransactionType

def commonFields : List (Field × Requirement) :=
  [(Fields.transactionType, .required), (Fields.account, .required), (Fields.fee, .required),
   (Fields.sequence, .required), (Fields.signingPubKey, .required), (Fields.flags, .default),
   (Fields.sourceTag, .optional), (Fields.lastLedgerSequence, .optional),
   (Fields.accountTxnId, .optional), (Fields.txnSignature, .optional), (Fields.memos, .optional),
   (Fields.signers, .optional)]

def specificFields : TransactionType → List (Field × Requirement)
  | .payment =>
    [(Fields.destination, .required), (Fields.amount, .required), (Fields.sendMax, .optional),
     (Fields.paths, .default), (Fields.invoiceId, .optional), (Fields.destinationTag, .optional),
     (Fields.deliverMin, .optional)]
  | .accountSet =>
    [(Fields.emailHash, .optional), (Fields.walletLocator, .optional),
     (Fields.walletSize, .optional), (Fields.messageKey, .optional), (Fields.domain, .optional),
     (Fields.transferRate, .optional), (Fields.setFlag, .optional), (Fields.clearFlag, .optional),
     (Fields.tickSize, .optional)]
  | .setRegularKey => [(Fields.regularKey, .optional)]
  | .offerCreate =>
    [(Fields.takerPays, .required), (Fields.takerGets, .required), (Fields.expiration, .optional),
     (Fields.offerSequence, .optional)]
  | .offerCancel => [(Fields.offerSequence, .required)]
  | .signerListSet => [(Fields.signerQuorum, .required), (Fields.signerEntries, .optional)]
  | .trustSet =>
    [(Fields.limitAmount, .required), (Fields.qualityIn, .optional),
     (Fields.qualityOut, .optional)]
  | .enableAmendment => [(Fields.amendment, .required), (Fields.ledgerSequence, .optional)]
  | .setFee =>
    [(Fields.baseFee, .required), (Fields.referenceFeeUnits, .required),
     (Fields.reserveBase, .required), (Fields.reserveIncrement, .required)]

def fields (type : TransactionType) : List (Field × Requirement) :=
  commonFields ++ type.specificFields

/-- Whether a field has to be present, if it belongs to the type of transaction. -/
def requirement? (type : TransactionType) (field : Field) : Option Requirement :=
  (type.fields.find? fun entry => entry.1.same field).map Prod.snd

end TransactionType

end LedgerWire
