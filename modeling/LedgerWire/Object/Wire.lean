import LedgerWire.Amount.Wire
import LedgerWire.Object.Basic
import LedgerWire.Path.Wire

namespace LedgerWire

/-!
The wire form of objects. Fields are written in canonical order, each as a header and a value. A
nested object and an array end with a marker byte, and so does the object that each array element
wraps. Readers take the fields of an object in any order, but each only once, and refuse objects
and arrays that nest too deep.
-/

def objectEnd : UInt8 := 0xE1

def arrayEnd : UInt8 := 0xF1

inductive FieldFilter where
  | all
  | signing
deriving DecidableEq, Repr

def FieldFilter.admits (filter : FieldFilter) (field : Field) : Bool :=
  match filter with
  | .all => field.isSerialized
  | .signing => field.isSigned

def Field.header (field : Field) : Bytes :=
  Framing.header field.type.code field.code

/-- The output of a value, provided that its field's codec takes it. -/
def Value.guarded (value : Value) (field : Field) (output : Output) : Output :=
  if value.fits field.codec then output
  else .fail (.typeMismatch field.name field.codec.expected)

mutual

/-- Writes the value of a field, whether or not the field's codec takes it. -/
def Value.writeRaw (field : Field) : Value → Output
  | .uint8 number => .ok [number]
  | .uint16 number => .ok (Bytes.bigEndian 2 number.toNat)
  | .uint32 number => .ok (Bytes.bigEndian 4 number.toNat)
  | .uint64 number => .ok (Bytes.bigEndian 8 number.toNat)
  | .hash128 hash => .ok hash.toList
  | .hash160 hash => .ok hash.toList
  | .hash256 hash => .ok hash.toList
  | .blob bytes => Framing.lengthPrefixed field.name bytes
  | .account account => Framing.lengthPrefixed field.name account.toBytes
  | .amount amount => .ofExcept (amount.toBytesFor field.name)
  | .currency currency => .ok currency.toBytes
  | .pathSet paths => PathSet.write field.name paths
  | .vector256 hashes =>
    Framing.lengthPrefix field.name (hashes.length * 32) ++ .ok (hashes.flatMap Octets.toList)
  | .object fields => Object.write .all fields ++ .ok [objectEnd]
  | .array elements => Elements.writeEach elements ++ .ok [arrayEnd]

/-- Writes the admitted fields of an object, without an end marker. -/
def Object.write (filter : FieldFilter) : List (Field × Value) → Output
  | [] => .ok []
  | (field, value) :: rest =>
    (if filter.admits field then
      .ok field.header ++ value.guarded field (value.writeRaw field)
    else .ok []) ++ Object.write filter rest

/-- Writes the elements of an array, without the end marker. -/
def Elements.writeEach : List (List (Field × Value)) → Output
  | [] => .ok []
  | [(wrapper, .object inner)] :: rest =>
    .ok wrapper.header ++ Object.write .all inner ++ .ok [objectEnd] ++ Elements.writeEach rest
  | element :: _ => .fail (.malformedArrayElement element.length)

end

def Value.write (field : Field) (value : Value) : Output :=
  value.guarded field (value.writeRaw field)

/-- Writes an array with its end marker. -/
def Elements.write (elements : Elements) : Output :=
  Elements.writeEach elements ++ .ok [arrayEnd]

def Object.toBytes (object : Object) : Except EncodeError Bytes :=
  (Object.write .all object).toExcept

/-- The bytes of an object that signatures cover. -/
def Object.toSigningBytes (object : Object) : Except EncodeError Bytes :=
  (Object.write .signing object).toExcept

def Object.toHex (object : Object) : Except EncodeError String :=
  (Object.toBytes object).map Text.Hex.encode

/-- Finds the field of a header that starts with a given byte. -/
def Field.readFrom (first : UInt8) : Reader Field := do
  let (typeCode, fieldCode) ← Framing.readHeaderFrom first
  match Field.coded? typeCode fieldCode with
  | some field => return field
  | none =>
    match FieldType.ofCode? typeCode with
    | some _ => Reader.fail (.unknownField typeCode.toNat fieldCode.toNat)
    | none => Reader.fail (.unknownType typeCode.toNat)

/-- Reads a list of 256-bit hashes. -/
def Hash.readList (context : String) : Reader (List (Hash 32)) := do
  let bytes ← Framing.readLengthPrefixed context
  if bytes.length % 32 = 0 then
    Reader.ofExcept
      (((Bytes.pieces 32 (by decide) bytes).mapM (Hash.ofBytes 32)).mapError .value)
  else
    Reader.fail (.malformedEncoding .vectorWidth)

/-- Reads an account after its length. -/
def Account.read (context : String) : Reader Account := do
  let bytes ← Framing.readLengthPrefixed context
  match Octets.ofBytes? 20 bytes with
  | some octets => return ⟨octets⟩
  | none => Reader.fail (.malformedEncoding .accountWidth)

/-- Reads the value of a field, given the readers of nested objects and arrays. -/
def Value.readWith (object : Reader Object) (array : Reader Elements) (field : Field) :
    Reader Value := do
  match field.codec with
  | .plain .uint8 | .transactionResult => return .uint8 (← Reader.byte field.name)
  | .plain .uint16 | .transactionType | .ledgerEntryType =>
    return .uint16 (← Reader.uint16 field.name)
  | .plain .uint32 => return .uint32 (← Reader.uint32 field.name)
  | .plain .uint64 => return .uint64 (← Reader.uint64 field.name)
  | .plain .hash128 => return .hash128 (← Reader.octets 16 field.name)
  | .plain .hash160 => return .hash160 (← Reader.octets 20 field.name)
  | .plain .hash256 => return .hash256 (← Reader.octets 32 field.name)
  | .currency => return .currency ⟨← Reader.octets 20 field.name⟩
  | .plain .blob => return .blob (← Framing.readLengthPrefixed field.name)
  | .plain .account => return .account (← Account.read field.name)
  | .plain .vector256 => return .vector256 (← Hash.readList field.name)
  | .plain .amount => return .amount (← Amount.read)
  | .plain .pathSet => return .pathSet (← PathSet.read)
  | .plain .object => return .object (← object)
  | .plain .array => return .array (← array)

/-- Reads one more field of an object, the header starting with a given byte. -/
def Object.readField (readValue : Field → Reader Value) (object : Object) (first : UInt8) :
    Reader Object := do
  let field ← Field.readFrom first
  if field.same Fields.objectEndMarker || field.same Fields.arrayEndMarker then
    Reader.fail (.malformedEncoding .strayEndMarker)
  else if object.contains field then
    Reader.fail (.malformedEncoding .duplicateField)
  else
    let value ← readValue field
    Reader.ofExcept ((Object.set object field value).mapError .value)

/-- Reads one more element of an array, the wrapper's header starting with a given byte. The
elements so far are held latest first. -/
def Elements.readElement (readObject : Reader Object) (elements : Elements) (first : UInt8) :
    Reader Elements := do
  let wrapper ← Field.readFrom first
  if wrapper.type ≠ .object ∨ wrapper.same Fields.objectEndMarker then
    Reader.fail (.malformedEncoding .elementNotObject)
  else
    let inner ← readObject
    let element ← Reader.ofExcept ((Object.wrap wrapper inner).mapError .value)
    return element :: elements

mutual

/-- Reads the fields of an object up to an end marker, or to the end of input where none is given.
`levels` is how many more levels may nest, this one included. -/
def Object.readLevels (levels : Nat) (endMarker : Option UInt8) : Reader Object :=
  match levels with
  | 0 => Reader.fail .nestingTooDeep
  | levels + 1 =>
    Reader.fold (endMarker.map fun _ => .unexpectedEnd "object end marker")
      (fun byte => endMarker == some byte)
      (Object.readField fun field =>
        Reader.delay fun _ =>
          Value.readWith (Object.readLevels levels (some objectEnd))
            (Elements.readLevels levels) field)
      []

/-- Reads an array up to its end marker. -/
def Elements.readLevels (levels : Nat) : Reader Elements :=
  match levels with
  | 0 => Reader.fail .nestingTooDeep
  | levels + 1 => do
    let elements ←
      Reader.fold (some (.unexpectedEnd "array end marker")) (· == arrayEnd)
        (Elements.readElement (Reader.delay fun _ => Object.readLevels levels (some objectEnd))) []
    return elements.reverse

end

/-- How many levels may nest from a depth on, that depth included. -/
def levelsFrom (depth : Nat) : Nat :=
  Limits.maximumDepth + 1 - depth

def Object.read (depth : Nat) (endMarker : Option UInt8) : Reader Object :=
  Object.readLevels (levelsFrom depth) endMarker

def Elements.read (depth : Nat) : Reader Elements :=
  Elements.readLevels (levelsFrom depth)

def Value.read (depth : Nat) (field : Field) : Reader Value :=
  Reader.delay fun _ =>
    Value.readWith (Object.read (depth + 1) (some objectEnd)) (Elements.read (depth + 1)) field

def Object.ofBytes (bytes : Bytes) : Except DecodeError Object :=
  (Object.read 0 none).decode bytes

def Object.ofHex (text : String) : Except DecodeError Object :=
  match Text.Hex.decode text with
  | .ok bytes => Object.ofBytes bytes
  | .error cause => .error (.invalidHex cause)

end LedgerWire
