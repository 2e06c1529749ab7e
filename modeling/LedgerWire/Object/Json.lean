import LedgerWire.Amount.Json
import LedgerWire.Object.Basic
import LedgerWire.Path.Json

namespace LedgerWire

/-!
Objects in JSON, as objects keyed by field name. Numbers are numbers, except that 64-bit ones are
sixteen hexadecimal digits; hashes and byte strings are hexadecimal; accounts and currencies are
their texts; and kinds are their names, or numbers where a code has no name.
-/

/-- The name of a kind, or its code as a number. -/
def Json.ofKind (name? : Option String) (code : Nat) : Json :=
  match name? with
  | some name => .string name
  | none => Json.nat code

mutual

def Value.toJson (field : Field) : Value → Json
  | .uint8 number =>
    match field.codec with
    | .transactionResult => Json.ofKind ((EngineResult.ofCode? number).map (·.name)) number.toNat
    | _ => Json.nat number.toNat
  | .uint16 number =>
    match field.codec with
    | .transactionType => Json.ofKind ((TransactionType.ofCode? number).map (·.name)) number.toNat
    | .ledgerEntryType => Json.ofKind ((LedgerEntryType.ofCode? number).map (·.name)) number.toNat
    | _ => Json.nat number.toNat
  | .uint32 number => Json.nat number.toNat
  | .uint64 number => .string (Text.hexWord number.toNat)
  | .hash128 hash => .string (Hash.toHex hash)
  | .hash160 hash => .string (Hash.toHex hash)
  | .hash256 hash => .string (Hash.toHex hash)
  | .blob bytes => .string (Text.Hex.encode bytes)
  | .account account => .string account.toAddress
  | .amount amount => amount.toJson
  | .currency currency => .string currency.toText
  | .pathSet paths => PathSet.toJson paths
  | .vector256 hashes => .array (hashes.map fun hash => .string (Hash.toHex hash))
  | .object fields => Json.ofMembers (Object.jsonMembers fields)
  | .array elements => .array (Elements.jsonItems elements)

/-- The fields of an object by name, in canonical order. -/
def Object.jsonMembers : List (Field × Value) → List (String × Json)
  | [] => []
  | (field, value) :: rest => (field.name, value.toJson field) :: Object.jsonMembers rest

/-- The JSON forms of an array's elements. -/
def Elements.jsonItems : List (List (Field × Value)) → List Json
  | [] => []
  | element :: rest => Json.ofMembers (Object.jsonMembers element) :: Elements.jsonItems rest

end

def Object.toJson (object : Object) : Json :=
  Json.ofMembers (Object.jsonMembers object)

namespace Json

def readText (field : String) (json : Json) : Except ValueError String :=
  match json with
  | .string text => .ok text
  | _ => .error (.invalidJson field .expectedString)

/-- Reads a number below `limit`, given as a number or in decimal. -/
def readUnsigned (field : String) (limit : Nat) (json : Json) : Except ValueError Nat :=
  let value? := match json with
    | .number literal => literal.toUnsigned?
    | .string text => Text.unsigned? 10 UInt64.size text.toList
    | _ => none
  match value? with
  | none => .error (.invalidJson field .expectedUnsigned)
  | some value =>
    if value < limit then .ok value else .error (.invalidJson field (.outOfRange value))

/-- Reads a 64-bit number, given as a number or as up to sixteen hexadecimal digits. -/
def readHexWord (field : String) (json : Json) : Except ValueError Nat :=
  match json with
  | .string text =>
    if text.utf8ByteSize = 0 ∨ 16 < text.utf8ByteSize then
      .error (.invalidJson field .expectedHexWord)
    else
      match Text.unsigned? 16 UInt64.size text.toList with
      | some value => .ok value
      | none => .error (.invalidJson field (.invalidHexWord text))
  | .number literal =>
    match literal.toUnsigned? with
    | some value => .ok value
    | none => .error (.invalidJson field .expectedUnsigned)
  | _ => .error (.invalidJson field .expectedHexWord)

/-- Reads the code of a kind, given by name or as a number below `limit`. -/
def readKind (field : String) (limit : Nat) (codeOf? : String → Option Nat)
    (unknown : String → JsonCause) (json : Json) : Except ValueError Nat :=
  match json with
  | .string name =>
    match codeOf? name with
    | some code => .ok code
    | none => .error (.invalidJson field (unknown name))
  | other => readUnsigned field limit other

def readBlob (field : String) (json : Json) : Except ValueError Bytes := do
  match Text.Hex.decode (← readText field json) with
  | .ok bytes => pure bytes
  | .error cause => throw (.invalidHex field cause)

def readHashes (field : String) (json : Json) : Except ValueError (List (Hash 32)) :=
  match json with
  | .array items => items.mapM fun item => do Hash.parse 32 (← readText field item)
  | _ => .error (.invalidJson field .expectedHashes)

/-- Reads the value of a field that holds neither an object nor an array. -/
def readScalar (field : Field) (json : Json) : Except ValueError Value := do
  match field.codec with
  | .plain .uint8 => return .uint8 (UInt8.ofNat (← readUnsigned field.name UInt8.size json))
  | .plain .uint16 => return .uint16 (UInt16.ofNat (← readUnsigned field.name UInt16.size json))
  | .plain .uint32 => return .uint32 (UInt32.ofNat (← readUnsigned field.name UInt32.size json))
  | .plain .uint64 => return .uint64 (UInt64.ofNat (← readHexWord field.name json))
  | .transactionResult =>
    let codeOf? name := (EngineResult.ofName? name).map (·.code.toNat)
    return .uint8
      (UInt8.ofNat (← readKind field.name UInt8.size codeOf? .unknownEngineResult json))
  | .transactionType =>
    let codeOf? name := (TransactionType.ofName? name).map (·.code.toNat)
    return .uint16
      (UInt16.ofNat (← readKind field.name UInt16.size codeOf? .unknownTransactionType json))
  | .ledgerEntryType =>
    let codeOf? name := (LedgerEntryType.ofName? name).map (·.code.toNat)
    return .uint16
      (UInt16.ofNat (← readKind field.name UInt16.size codeOf? .unknownLedgerEntryType json))
  | .plain .hash128 => return .hash128 (← Hash.parse 16 (← readText field.name json))
  | .plain .hash160 => return .hash160 (← Hash.parse 20 (← readText field.name json))
  | .plain .hash256 => return .hash256 (← Hash.parse 32 (← readText field.name json))
  | .currency => return .currency (← Currency.parse (← readText field.name json))
  | .plain .blob => return .blob (← readBlob field.name json)
  | .plain .account => return .account (← Account.parse (← readText field.name json))
  | .plain .amount => return .amount (← Amount.ofJson json)
  | .plain .pathSet => return .pathSet (← PathSet.ofJson json)
  | .plain .vector256 => return .vector256 (← readHashes field.name json)
  | .plain .object => throw (.invalidJson "STObject" .expectedObject)
  | .plain .array => throw (.invalidJson field.name .expectedArray)

end Json

mutual

def Value.ofJson (field : Field) (json : Json) : Except ValueError Value :=
  match field.codec, json with
  | .plain .object, .object members => (Object.ofMembers [] members).map .object
  | .plain .array, .array items => (Elements.ofItems field.name items).map .array
  | _, other => Json.readScalar field other

/-- Adds named fields to an object, one by one. -/
def Object.ofMembers (object : Object) :
    List (String × Json) → Except ValueError Object
  | [] => .ok object
  | (name, json) :: rest =>
    match Field.named? name with
    | none => .error (.unknownField name)
    | some field =>
      match Value.ofJson field json with
      | .error cause => .error cause
      | .ok value =>
        match Object.set object field value with
        | .error cause => .error cause
        | .ok extended => Object.ofMembers extended rest

/-- Reads the elements of an array, each an object with the wrapper as its only key. -/
def Elements.ofItems (field : String) : List Json → Except ValueError (List Object)
  | [] => .ok []
  | .object [(name, json)] :: rest =>
    match Field.named? name with
    | none => .error (.unknownField name)
    | some wrapper =>
      match json with
      | .object members => do
        let element ← Object.wrap wrapper (← Object.ofMembers [] members)
        return element :: (← Elements.ofItems field rest)
      | _ => .error (.invalidJson "STObject" .expectedObject)
  | _ => .error (.invalidJson field .expectedSingleKey)

end

def Object.ofJson (json : Json) : Except ValueError Object :=
  match json with
  | .object members => Object.ofMembers [] members
  | _ => .error (.invalidJson "STObject" .expectedObject)

end LedgerWire
