namespace LedgerWire

/-!
Field descriptors. On the wire a field is its type code and its field code, which together are its
key: they give fields their identity and their canonical order. Names serve JSON and messages.
-/

inductive FieldType where
  | uint16
  | uint32
  | uint64
  | hash128
  | hash256
  | amount
  | blob
  | account
  | object
  | array
  | uint8
  | hash160
  | pathSet
  | vector256
deriving DecidableEq, Repr

namespace FieldType

def code : FieldType → UInt16
  | .uint16 => 1
  | .uint32 => 2
  | .uint64 => 3
  | .hash128 => 4
  | .hash256 => 5
  | .amount => 6
  | .blob => 7
  | .account => 8
  | .object => 14
  | .array => 15
  | .uint8 => 16
  | .hash160 => 17
  | .pathSet => 18
  | .vector256 => 19

/-- Every type, by ascending code. -/
def all : List FieldType :=
  [.uint16, .uint32, .uint64, .hash128, .hash256, .amount, .blob, .account, .object, .array,
   .uint8, .hash160, .pathSet, .vector256]

def ofCode? (code : UInt16) : Option FieldType :=
  all.find? (·.code == code)

def name : FieldType → String
  | .uint16 => "UInt16"
  | .uint32 => "UInt32"
  | .uint64 => "UInt64"
  | .hash128 => "Hash128"
  | .hash256 => "Hash256"
  | .amount => "Amount"
  | .blob => "Blob"
  | .account => "AccountId"
  | .object => "Object"
  | .array => "Array"
  | .uint8 => "UInt8"
  | .hash160 => "Hash160"
  | .pathSet => "PathSet"
  | .vector256 => "Vector256"

/-- Whether values of the type carry a length prefix. -/
def hasLengthPrefix : FieldType → Bool
  | .blob | .account | .vector256 => true
  | _ => false

end FieldType

/-- How the values of a field are written, and how they appear in JSON. Most fields go by their
type; a few have a form of their own over the same wire form. -/
inductive Codec where
  | plain (type : FieldType)
  /-- A 160-bit hash on the wire, the text of a currency in JSON. -/
  | currency
  /-- A 16-bit number on the wire, a transaction type's name in JSON. -/
  | transactionType
  /-- A 16-bit number on the wire, a ledger entry type's name in JSON. -/
  | ledgerEntryType
  /-- An 8-bit number on the wire, an engine result's name in JSON. -/
  | transactionResult
deriving DecidableEq, Repr

namespace Codec

def name : Codec → String
  | .plain type => type.name
  | .currency => "Currency"
  | .transactionType => "TransactionType"
  | .ledgerEntryType => "LedgerEntryType"
  | .transactionResult => "TransactionResult"

/-- The kind of value a codec takes, as messages name it. -/
def expected : Codec → String
  | .plain .account => "AccountID"
  | .plain .object => "STObject"
  | .plain .array => "STArray"
  | .plain type => type.name
  | .currency => "Currency"
  | .transactionType | .ledgerEntryType => "UInt16"
  | .transactionResult => "UInt8"

def all : List Codec :=
  [.plain .uint8, .plain .uint16, .plain .uint32, .plain .uint64, .plain .hash128,
   .plain .hash160, .plain .hash256, .plain .blob, .plain .account, .plain .amount,
   .plain .pathSet, .plain .vector256, .plain .object, .plain .array, .currency,
   .transactionType, .ledgerEntryType, .transactionResult]

end Codec

structure Field where
  name : String
  type : FieldType
  code : UInt16
  /-- Whether signatures cover the field, provided that it is serialized. -/
  covered : Bool
deriving DecidableEq, Repr

namespace Field

/-- The number that orders fields: by type code, then by field code. -/
def key (field : Field) : Nat :=
  field.type.code.toNat * 65536 + field.code.toNat

def same (left right : Field) : Bool :=
  left.key == right.key

def isSerialized (field : Field) : Bool :=
  0 < field.code && field.code < 256

def isSigned (field : Field) : Bool :=
  field.isSerialized && field.covered

def debugText (field : Field) : String :=
  field.name ++ "(" ++ toString field.type.code.toNat ++ ", " ++ toString field.code.toNat ++ ")"

end Field

end LedgerWire
