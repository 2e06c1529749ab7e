import LedgerWire.Discriminant
import LedgerWire.Value

namespace LedgerWire

/-!
Objects as finite maps from fields to values. The fields stand in ascending order of their keys,
which is the canonical order of every written form, and each value is one that its field's codec
takes. Setting a field that is present keeps the descriptor it was first set with.
-/

namespace Object

def get? (object : Object) (field : Field) : Option Value :=
  (object.find? fun entry => entry.1.same field).map Prod.snd

def contains (object : Object) (field : Field) : Bool :=
  object.any fun entry => entry.1.same field

/-- Places a value at its field's position, without regard to the codec. -/
def place (field : Field) (value : Value) : Object → Object
  | [] => [(field, value)]
  | entry :: rest =>
    if field.key < entry.1.key then (field, value) :: entry :: rest
    else if field.key = entry.1.key then (entry.1, value) :: rest
    else entry :: place field value rest

/-- Sets a field to a value that its codec takes. Answers the previous value and the new object. -/
def insert (object : Object) (field : Field) (value : Value) :
    Except ValueError (Option Value × Object) :=
  if value.fits field.codec then .ok (object.get? field, place field value object)
  else .error (.typeMismatch field.name field.codec.expected)

def set (object : Object) (field : Field) (value : Value) : Except ValueError Object :=
  (object.insert field value).map Prod.snd

def erase (object : Object) (field : Field) : Object :=
  object.filter fun entry => !entry.1.same field

/-- Drops a field. Answers its value and the new object. -/
def remove (object : Object) (field : Field) : Option Value × Object :=
  (object.get? field, object.erase field)

/-!
The value of a field, if it is of the wanted kind.
-/

def uint8? (object : Object) (field : Field) : Option UInt8 :=
  match object.get? field with
  | some (.uint8 number) => some number
  | _ => none

def uint16? (object : Object) (field : Field) : Option UInt16 :=
  match object.get? field with
  | some (.uint16 number) => some number
  | _ => none

def uint32? (object : Object) (field : Field) : Option UInt32 :=
  match object.get? field with
  | some (.uint32 number) => some number
  | _ => none

def uint64? (object : Object) (field : Field) : Option UInt64 :=
  match object.get? field with
  | some (.uint64 number) => some number
  | _ => none

def hash128? (object : Object) (field : Field) : Option (Hash 16) :=
  match object.get? field with
  | some (.hash128 hash) => some hash
  | _ => none

def hash160? (object : Object) (field : Field) : Option (Hash 20) :=
  match object.get? field with
  | some (.hash160 hash) => some hash
  | _ => none

def hash256? (object : Object) (field : Field) : Option (Hash 32) :=
  match object.get? field with
  | some (.hash256 hash) => some hash
  | _ => none

def blob? (object : Object) (field : Field) : Option Bytes :=
  match object.get? field with
  | some (.blob bytes) => some bytes
  | _ => none

def account? (object : Object) (field : Field) : Option Account :=
  match object.get? field with
  | some (.account account) => some account
  | _ => none

def amount? (object : Object) (field : Field) : Option Amount :=
  match object.get? field with
  | some (.amount amount) => some amount
  | _ => none

def currency? (object : Object) (field : Field) : Option Currency :=
  match object.get? field with
  | some (.currency currency) => some currency
  | _ => none

def pathSet? (object : Object) (field : Field) : Option PathSet :=
  match object.get? field with
  | some (.pathSet paths) => some paths
  | _ => none

def vector256? (object : Object) (field : Field) : Option (List (Hash 32)) :=
  match object.get? field with
  | some (.vector256 hashes) => some hashes
  | _ => none

def object? (object : Object) (field : Field) : Option Object :=
  match object.get? field with
  | some (.object fields) => some fields
  | _ => none

def array? (object : Object) (field : Field) : Option Elements :=
  match object.get? field with
  | some (.array elements) => some elements
  | _ => none

def transactionType? (object : Object) : Option TransactionType :=
  (object.uint16? Fields.transactionType).bind TransactionType.ofCode?

def ledgerEntryType? (object : Object) : Option LedgerEntryType :=
  (object.uint16? Fields.ledgerEntryType).bind LedgerEntryType.ofCode?

/-!
Array elements. A proper element is an object with a single field, the wrapper, that holds an
object.
-/

/-- The element that wraps an object in a field. -/
def wrap (wrapper : Field) (inner : Object) : Except ValueError Object :=
  Object.set [] wrapper (.object inner)

/-- The wrapper and the wrapped object of a proper element. -/
def unwrap? (element : Object) : Option (Field × Object) :=
  match element with
  | [(wrapper, .object inner)] => some (wrapper, inner)
  | _ => none

end Object

end LedgerWire
