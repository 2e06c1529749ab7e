import LedgerWire.Amount.Basic
import LedgerWire.Field.Codec
import LedgerWire.Hash
import LedgerWire.Path.Basic

namespace LedgerWire

/-!
Field values. An object is the list of its fields with their values, and an array is the list of
its elements, each an object.
-/

inductive Value where
  | uint8 (number : UInt8)
  | uint16 (number : UInt16)
  | uint32 (number : UInt32)
  | uint64 (number : UInt64)
  | hash128 (hash : Hash 16)
  | hash160 (hash : Hash 20)
  | hash256 (hash : Hash 32)
  | blob (bytes : Bytes)
  | account (account : Account)
  | amount (amount : Amount)
  | currency (currency : Currency)
  | pathSet (paths : PathSet)
  | vector256 (hashes : List (Hash 32))
  | object (fields : List (Field × Value))
  | array (elements : List (List (Field × Value)))

/-- The fields of an object with their values, by ascending key. -/
abbrev Object := List (Field × Value)

/-- The elements of an array, in order. -/
abbrev Elements := List Object

namespace Value

/-- Whether a codec takes the value. -/
def fits (value : Value) (codec : Codec) : Bool :=
  match value, codec with
  | .uint8 _, .plain .uint8 | .uint8 _, .transactionResult => true
  | .uint16 _, .plain .uint16 | .uint16 _, .transactionType | .uint16 _, .ledgerEntryType => true
  | .uint32 _, .plain .uint32 => true
  | .uint64 _, .plain .uint64 => true
  | .hash128 _, .plain .hash128 => true
  | .hash160 _, .plain .hash160 => true
  | .hash256 _, .plain .hash256 => true
  | .blob _, .plain .blob => true
  | .account _, .plain .account => true
  | .amount _, .plain .amount => true
  | .currency _, .currency => true
  | .pathSet _, .plain .pathSet => true
  | .vector256 _, .plain .vector256 => true
  | .object _, .plain .object => true
  | .array _, .plain .array => true
  | _, _ => false

end Value

mutual

/-- Whether two values are equal: fields count by their keys, amounts and currencies by their own
equality. -/
def Value.same : Value → Value → Bool
  | .uint8 left, .uint8 right => left == right
  | .uint16 left, .uint16 right => left == right
  | .uint32 left, .uint32 right => left == right
  | .uint64 left, .uint64 right => left == right
  | .hash128 left, .hash128 right => left == right
  | .hash160 left, .hash160 right => left == right
  | .hash256 left, .hash256 right => left == right
  | .blob left, .blob right => left == right
  | .account left, .account right => left == right
  | .amount left, .amount right => left.same right
  | .currency left, .currency right => left.same right
  | .pathSet left, .pathSet right => PathSet.same left right
  | .vector256 left, .vector256 right => left == right
  | .object left, .object right => Object.same left right
  | .array left, .array right => Elements.same left right
  | _, _ => false

/-- Whether two objects have the same keys with equal values. -/
def Object.same : List (Field × Value) → List (Field × Value) → Bool
  | [], [] => true
  | (leftField, leftValue) :: left, (rightField, rightValue) :: right =>
    leftField.same rightField && leftValue.same rightValue && Object.same left right
  | _, _ => false

/-- Whether two arrays have equal elements in the same places. -/
def Elements.same : List (List (Field × Value)) → List (List (Field × Value)) → Bool
  | [], [] => true
  | left :: leftRest, right :: rightRest =>
    Object.same left right && Elements.same leftRest rightRest
  | _, _ => false

end

end LedgerWire
