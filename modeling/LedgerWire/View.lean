import LedgerWire.Amount.Arithmetic
import LedgerWire.Transaction.Format

namespace LedgerWire

/-!
Typed views of the objects that have one. A view holds the values of its format's fields; a field
that is absent, or not of the kind that the view wants, has none.
-/

structure PaymentView where
  account : Option Account
  fee : Option Amount
  sequence : Option UInt32
  flags : Option UInt32
  destination : Option Account
  amount : Option Amount
  sendMax : Option Amount
  deliverMin : Option Amount
  destinationTag : Option UInt32
  invoiceId : Option (Hash 32)
  paths : Option PathSet

def PaymentView.of (object : Object) : PaymentView where
  account := object.account? Fields.account
  fee := object.amount? Fields.fee
  sequence := object.uint32? Fields.sequence
  flags := object.uint32? Fields.flags
  destination := object.account? Fields.destination
  amount := object.amount? Fields.amount
  sendMax := object.amount? Fields.sendMax
  deliverMin := object.amount? Fields.deliverMin
  destinationTag := object.uint32? Fields.destinationTag
  invoiceId := object.hash256? Fields.invoiceId
  paths := object.pathSet? Fields.paths

structure OfferCreateView where
  account : Option Account
  fee : Option Amount
  sequence : Option UInt32
  flags : Option UInt32
  takerPays : Option Amount
  takerGets : Option Amount
  expiration : Option UInt32
  offerSequence : Option UInt32

def OfferCreateView.of (object : Object) : OfferCreateView where
  account := object.account? Fields.account
  fee := object.amount? Fields.fee
  sequence := object.uint32? Fields.sequence
  flags := object.uint32? Fields.flags
  takerPays := object.amount? Fields.takerPays
  takerGets := object.amount? Fields.takerGets
  expiration := object.uint32? Fields.expiration
  offerSequence := object.uint32? Fields.offerSequence

structure OfferCancelView where
  account : Option Account
  fee : Option Amount
  sequence : Option UInt32
  offerSequence : Option UInt32

def OfferCancelView.of (object : Object) : OfferCancelView where
  account := object.account? Fields.account
  fee := object.amount? Fields.fee
  sequence := object.uint32? Fields.sequence
  offerSequence := object.uint32? Fields.offerSequence

structure TrustSetView where
  account : Option Account
  fee : Option Amount
  sequence : Option UInt32
  flags : Option UInt32
  limitAmount : Option Amount
  qualityIn : Option UInt32
  qualityOut : Option UInt32

def TrustSetView.of (object : Object) : TrustSetView where
  account := object.account? Fields.account
  fee := object.amount? Fields.fee
  sequence := object.uint32? Fields.sequence
  flags := object.uint32? Fields.flags
  limitAmount := object.amount? Fields.limitAmount
  qualityIn := object.uint32? Fields.qualityIn
  qualityOut := object.uint32? Fields.qualityOut

structure AccountSetView where
  account : Option Account
  fee : Option Amount
  sequence : Option UInt32
  setFlag : Option UInt32
  clearFlag : Option UInt32
  transferRate : Option UInt32
  emailHash : Option (Hash 16)
  tickSize : Option UInt8
  domain : Option Bytes

def AccountSetView.of (object : Object) : AccountSetView where
  account := object.account? Fields.account
  fee := object.amount? Fields.fee
  sequence := object.uint32? Fields.sequence
  setFlag := object.uint32? Fields.setFlag
  clearFlag := object.uint32? Fields.clearFlag
  transferRate := object.uint32? Fields.transferRate
  emailHash := object.hash128? Fields.emailHash
  tickSize := object.uint8? Fields.tickSize
  domain := object.blob? Fields.domain

structure AccountRootView where
  account : Option Account
  balance : Option Amount
  sequence : Option UInt32
  ownerCount : Option UInt32
  flags : Option UInt32
  regularKey : Option Account
  previousTxnId : Option (Hash 32)
  previousTxnLgrSeq : Option UInt32

def AccountRootView.of (object : Object) : AccountRootView where
  account := object.account? Fields.account
  balance := object.amount? Fields.balance
  sequence := object.uint32? Fields.sequence
  ownerCount := object.uint32? Fields.ownerCount
  flags := object.uint32? Fields.flags
  regularKey := object.account? Fields.regularKey
  previousTxnId := object.hash256? Fields.previousTxnId
  previousTxnLgrSeq := object.uint32? Fields.previousTxnLgrSeq

structure OfferView where
  account : Option Account
  sequence : Option UInt32
  takerPays : Option Amount
  takerGets : Option Amount
  bookDirectory : Option (Hash 32)
  bookNode : Option UInt64
  ownerNode : Option UInt64
  expiration : Option UInt32

def OfferView.of (object : Object) : OfferView where
  account := object.account? Fields.account
  sequence := object.uint32? Fields.sequence
  takerPays := object.amount? Fields.takerPays
  takerGets := object.amount? Fields.takerGets
  bookDirectory := object.hash256? Fields.bookDirectory
  bookNode := object.uint64? Fields.bookNode
  ownerNode := object.uint64? Fields.ownerNode
  expiration := object.uint32? Fields.expiration

/-- What the taker pays for what the taker gets, if the offer states both. -/
def OfferView.quality? (offer : OfferView) : Option (Except ValueError Decimal) :=
  match offer.takerPays, offer.takerGets with
  | some pays, some gets => some (pays.quality gets)
  | _, _ => none

structure TrustLineView where
  balance : Option Amount
  lowLimit : Option Amount
  highLimit : Option Amount
  lowNode : Option UInt64
  highNode : Option UInt64
  flags : Option UInt32

def TrustLineView.of (object : Object) : TrustLineView where
  balance := object.amount? Fields.balance
  lowLimit := object.amount? Fields.lowLimit
  highLimit := object.amount? Fields.highLimit
  lowNode := object.uint64? Fields.lowNode
  highNode := object.uint64? Fields.highNode
  flags := object.uint32? Fields.flags

structure DirectoryNodeView where
  owner : Option Account
  rootIndex : Option (Hash 32)
  indexNext : Option UInt64
  indexPrevious : Option UInt64
  indexes : Option (List (Hash 32))

def DirectoryNodeView.of (object : Object) : DirectoryNodeView where
  owner := object.account? Fields.owner
  rootIndex := object.hash256? Fields.rootIndex
  indexNext := object.uint64? Fields.indexNext
  indexPrevious := object.uint64? Fields.indexPrevious
  indexes := object.vector256? Fields.indexes

inductive View where
  | payment (view : PaymentView)
  | offerCreate (view : OfferCreateView)
  | offerCancel (view : OfferCancelView)
  | trustSet (view : TrustSetView)
  | accountSet (view : AccountSetView)
  | accountRoot (view : AccountRootView)
  | offer (view : OfferView)
  | trustLine (view : TrustLineView)
  | directoryNode (view : DirectoryNodeView)
  | generic (object : Object)

def Object.view (object : Object) : View :=
  match object.format with
  | .transaction .payment => .payment (.of object)
  | .transaction .offerCreate => .offerCreate (.of object)
  | .transaction .offerCancel => .offerCancel (.of object)
  | .transaction .trustSet => .trustSet (.of object)
  | .transaction .accountSet => .accountSet (.of object)
  | .ledgerEntry .accountRoot => .accountRoot (.of object)
  | .ledgerEntry .offer => .offer (.of object)
  | .ledgerEntry .rippleState => .trustLine (.of object)
  | .ledgerEntry .directoryNode => .directoryNode (.of object)
  | _ => .generic object

end LedgerWire
