namespace LedgerWire

/-!
Kinds that are numbers on the wire and names in JSON. Codes and names are unique within a kind.
-/

inductive TransactionType where
  | payment
  | accountSet
  | setRegularKey
  | offerCreate
  | offerCancel
  | signerListSet
  | trustSet
  | enableAmendment
  | setFee
deriving DecidableEq, Repr

namespace TransactionType

def code : TransactionType → UInt16
  | .payment => 0
  | .accountSet => 3
  | .setRegularKey => 5
  | .offerCreate => 7
  | .offerCancel => 8
  | .signerListSet => 12
  | .trustSet => 20
  | .enableAmendment => 100
  | .setFee => 101

def name : TransactionType → String
  | .payment => "Payment"
  | .accountSet => "AccountSet"
  | .setRegularKey => "SetRegularKey"
  | .offerCreate => "OfferCreate"
  | .offerCancel => "OfferCancel"
  | .signerListSet => "SignerListSet"
  | .trustSet => "TrustSet"
  | .enableAmendment => "EnableAmendment"
  | .setFee => "SetFee"

def all : List TransactionType :=
  [.payment, .accountSet, .setRegularKey, .offerCreate, .offerCancel, .signerListSet, .trustSet,
   .enableAmendment, .setFee]

def ofCode? (code : UInt16) : Option TransactionType :=
  all.find? (·.code == code)

def ofName? (name : String) : Option TransactionType :=
  all.find? (·.name == name)

end TransactionType

inductive LedgerEntryType where
  | accountRoot
  | directoryNode
  | rippleState
  | offer
  | ledgerHashes
  | amendments
  | feeSettings
  | signerList
deriving DecidableEq, Repr

namespace LedgerEntryType

def code : LedgerEntryType → UInt16
  | .accountRoot => 97
  | .directoryNode => 100
  | .rippleState => 114
  | .offer => 111
  | .ledgerHashes => 104
  | .amendments => 102
  | .feeSettings => 115
  | .signerList => 83

def name : LedgerEntryType → String
  | .accountRoot => "AccountRoot"
  | .directoryNode => "DirectoryNode"
  | .rippleState => "RippleState"
  | .offer => "Offer"
  | .ledgerHashes => "LedgerHashes"
  | .amendments => "Amendments"
  | .feeSettings => "FeeSettings"
  | .signerList => "SignerList"

def all : List LedgerEntryType :=
  [.accountRoot, .directoryNode, .rippleState, .offer, .ledgerHashes, .amendments, .feeSettings,
   .signerList]

def ofCode? (code : UInt16) : Option LedgerEntryType :=
  all.find? (·.code == code)

def ofName? (name : String) : Option LedgerEntryType :=
  all.find? (·.name == name)

end LedgerEntryType

/-- The results of applying a transaction, as its metadata records them. -/
inductive EngineResult where
  | success
  | claim
  | pathPartial
  | unfundedAdd
  | unfundedOffer
  | unfundedPayment
  | failedProcessing
  | dirFull
  | insufReserveLine
  | insufReserveOffer
  | noDst
  | noDstInsufNative
  | noLineInsufReserve
  | noLineRedundant
  | pathDry
  | unfunded
  | noAlternativeKey
  | noRegularKey
  | owners
  | noIssuer
  | noAuth
  | noLine
  | insuffFee
  | frozen
  | noTarget
  | noPermission
  | noEntry
  | insufficientReserve
deriving DecidableEq, Repr

namespace EngineResult

def code : EngineResult → UInt8
  | .success => 0
  | .claim => 100
  | .pathPartial => 101
  | .unfundedAdd => 102
  | .unfundedOffer => 103
  | .unfundedPayment => 104
  | .failedProcessing => 105
  | .dirFull => 121
  | .insufReserveLine => 122
  | .insufReserveOffer => 123
  | .noDst => 124
  | .noDstInsufNative => 125
  | .noLineInsufReserve => 126
  | .noLineRedundant => 127
  | .pathDry => 128
  | .unfunded => 129
  | .noAlternativeKey => 130
  | .noRegularKey => 131
  | .owners => 132
  | .noIssuer => 133
  | .noAuth => 134
  | .noLine => 135
  | .insuffFee => 136
  | .frozen => 137
  | .noTarget => 138
  | .noPermission => 139
  | .noEntry => 140
  | .insufficientReserve => 141

def name : EngineResult → String
  | .success => "tesSUCCESS"
  | .claim => "tecCLAIM"
  | .pathPartial => "tecPATH_PARTIAL"
  | .unfundedAdd => "tecUNFUNDED_ADD"
  | .unfundedOffer => "tecUNFUNDED_OFFER"
  | .unfundedPayment => "tecUNFUNDED_PAYMENT"
  | .failedProcessing => "tecFAILED_PROCESSING"
  | .dirFull => "tecDIR_FULL"
  | .insufReserveLine => "tecINSUF_RESERVE_LINE"
  | .insufReserveOffer => "tecINSUF_RESERVE_OFFER"
  | .noDst => "tecNO_DST"
  | .noDstInsufNative => "tecNO_DST_INSUF_NATIVE"
  | .noLineInsufReserve => "tecNO_LINE_INSUF_RESERVE"
  | .noLineRedundant => "tecNO_LINE_REDUNDANT"
  | .pathDry => "tecPATH_DRY"
  | .unfunded => "tecUNFUNDED"
  | .noAlternativeKey => "tecNO_ALTERNATIVE_KEY"
  | .noRegularKey => "tecNO_REGULAR_KEY"
  | .owners => "tecOWNERS"
  | .noIssuer => "tecNO_ISSUER"
  | .noAuth => "tecNO_AUTH"
  | .noLine => "tecNO_LINE"
  | .insuffFee => "tecINSUFF_FEE"
  | .frozen => "tecFROZEN"
  | .noTarget => "tecNO_TARGET"
  | .noPermission => "tecNO_PERMISSION"
  | .noEntry => "tecNO_ENTRY"
  | .insufficientReserve => "tecINSUFFICIENT_RESERVE"

def all : List EngineResult :=
  [.success, .claim, .pathPartial, .unfundedAdd, .unfundedOffer, .unfundedPayment,
   .failedProcessing, .dirFull, .insufReserveLine, .insufReserveOffer, .noDst, .noDstInsufNative,
   .noLineInsufReserve, .noLineRedundant, .pathDry, .unfunded, .noAlternativeKey, .noRegularKey,
   .owners, .noIssuer, .noAuth, .noLine, .insuffFee, .frozen, .noTarget, .noPermission, .noEntry,
   .insufficientReserve]

def ofCode? (code : UInt8) : Option EngineResult :=
  all.find? (·.code == code)

def ofName? (name : String) : Option EngineResult :=
  all.find? (·.name == name)

end EngineResult

end LedgerWire
