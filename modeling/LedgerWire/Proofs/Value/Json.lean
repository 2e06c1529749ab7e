import LedgerWire.Object.Json
import LedgerWire.Proofs.Amount.Json
import LedgerWire.Proofs.Path.Json
import LedgerWire.Proofs.Value.Wire

namespace LedgerWire

/-!
Plain values read back from JSON. A number is a number below the bound that its field sets, and a
kind is its name or else its code; hashes and byte strings are hexadecimal, and accounts, amounts,
currencies and path sets are read back as such.
-/

namespace Json

variable {field : String} {limit number : Nat}

theorem toUnsigned?_nat (word : number < UInt64.size) :
    (JsonNumber.integer number).toUnsigned? = some number := by
  have inside : (0 : Int) ≤ number ∧ (number : Int) < UInt64.size :=
    ⟨Int.natCast_nonneg number, Int.ofNat_lt.mpr word⟩
  rw [JsonNumber.toUnsigned?, if_pos inside, Int.toNat_natCast]

theorem readUnsigned_of_literal {literal : JsonNumber} (found : literal.toUnsigned? = some number)
    (bound : number < limit) : readUnsigned field limit (.number literal) = .ok number := by
  simp only [readUnsigned]
  rw [found]
  exact if_pos bound

theorem readUnsigned_nat (word : number < UInt64.size) (bound : number < limit) :
    readUnsigned field limit (Json.nat number) = .ok number :=
  readUnsigned_of_literal (toUnsigned?_nat word) bound

/-- A kind is read back from its name, and a code without a kind from its number. -/
theorem readKind_ofKind {Kind : Type} {kind? : Option Kind} {name : Kind → String}
    {code : Kind → Nat} {ofName? : String → Option Kind} {unknown : String → JsonCause}
    (word : number < UInt64.size) (bound : number < limit)
    (named : ∀ kind, ofName? (name kind) = some kind)
    (coded : ∀ kind, kind? = some kind → code kind = number) :
    readKind field limit (fun name => (ofName? name).map code) unknown
      (Json.ofKind (kind?.map name) number) = .ok number := by
  cases kind? with
  | none =>
      change readUnsigned field limit (Json.nat number) = .ok number
      exact readUnsigned_nat word bound
  | some kind => simp [ofKind, readKind, named kind, coded kind rfl]

theorem readHexWord_hexWord (word : number < UInt64.size) :
    readHexWord field (.string (Text.hexWord number)) = .ok number := by
  have width : (Text.hexWord number).utf8ByteSize = 16 := by
    rw [Text.utf8ByteSize_eq_length, Text.hexWord, Text.Hex.length_ofText_encode,
      Bytes.length_bigEndian]
  simp [readHexWord, width, Text.unsigned?_hexWord word]

theorem readBlob_encode (bytes : Bytes) :
    readBlob field (.string (Text.Hex.encode bytes)) = .ok bytes := by
  simp [readBlob, readText, Text.Hex.decode_encode, bind, Except.bind, pure, Except.pure]

end Json

theorem Hash.parse_toHex {width : Nat} (hash : Hash width) :
    Hash.parse width hash.toHex = .ok hash := by
  rw [Hash.parse, Hash.toHex, Text.Hex.decode_encode]
  exact Hash.ofBytes_toList hash

theorem Json.readHashes_toHex {field : String} (hashes : List (Hash 32)) :
    readHashes field (.array (hashes.map fun hash => .string hash.toHex)) = .ok hashes :=
  mapM_map_eq_ok fun hash _ => bind_eq_ok.mpr ⟨_, rfl, Hash.parse_toHex hash⟩

section Kinds

theorem Json.readUnsigned_uint8 (field : String) (number : UInt8) :
    readUnsigned field UInt8.size (Json.nat number.toNat) = .ok number.toNat :=
  readUnsigned_nat (Nat.lt_of_lt_of_le number.toNat_lt (by decide)) number.toNat_lt

theorem Json.readUnsigned_uint16 (field : String) (number : UInt16) :
    readUnsigned field UInt16.size (Json.nat number.toNat) = .ok number.toNat :=
  readUnsigned_nat (Nat.lt_of_lt_of_le number.toNat_lt (by decide)) number.toNat_lt

theorem Json.readUnsigned_uint32 (field : String) (number : UInt32) :
    readUnsigned field UInt32.size (Json.nat number.toNat) = .ok number.toNat :=
  readUnsigned_nat (Nat.lt_of_lt_of_le number.toNat_lt (by decide)) number.toNat_lt

theorem TransactionType.ofName?_name (kind : TransactionType) : ofName? kind.name = some kind := by
  cases kind <;> decide

theorem TransactionType.code_of_ofCode? {number : UInt16} {kind : TransactionType}
    (found : ofCode? number = some kind) : kind.code = number := by
  have matching := List.find?_some (id found : all.find? (·.code == number) = some kind)
  exact eq_of_beq matching

theorem TransactionType.readKind_ofCode (field : String) (number : UInt16) :
    Json.readKind field UInt16.size (fun name => (ofName? name).map (·.code.toNat))
      .unknownTransactionType (Json.ofKind ((ofCode? number).map (·.name)) number.toNat) =
        .ok number.toNat :=
  Json.readKind_ofKind (Nat.lt_of_lt_of_le number.toNat_lt (by decide)) number.toNat_lt
    ofName?_name fun _ found => congrArg UInt16.toNat (code_of_ofCode? found)

theorem LedgerEntryType.ofName?_name (kind : LedgerEntryType) : ofName? kind.name = some kind := by
  cases kind <;> decide

theorem LedgerEntryType.code_of_ofCode? {number : UInt16} {kind : LedgerEntryType}
    (found : ofCode? number = some kind) : kind.code = number := by
  have matching := List.find?_some (id found : all.find? (·.code == number) = some kind)
  exact eq_of_beq matching

theorem LedgerEntryType.readKind_ofCode (field : String) (number : UInt16) :
    Json.readKind field UInt16.size (fun name => (ofName? name).map (·.code.toNat))
      .unknownLedgerEntryType (Json.ofKind ((ofCode? number).map (·.name)) number.toNat) =
        .ok number.toNat :=
  Json.readKind_ofKind (Nat.lt_of_lt_of_le number.toNat_lt (by decide)) number.toNat_lt
    ofName?_name fun _ found => congrArg UInt16.toNat (code_of_ofCode? found)

theorem EngineResult.ofName?_name (kind : EngineResult) : ofName? kind.name = some kind := by
  cases kind <;> decide +kernel

theorem EngineResult.code_of_ofCode? {number : UInt8} {kind : EngineResult}
    (found : ofCode? number = some kind) : kind.code = number := by
  have matching := List.find?_some (id found : all.find? (·.code == number) = some kind)
  exact eq_of_beq matching

theorem EngineResult.readKind_ofCode (field : String) (number : UInt8) :
    Json.readKind field UInt8.size (fun name => (ofName? name).map (·.code.toNat))
      .unknownEngineResult (Json.ofKind ((ofCode? number).map (·.name)) number.toNat) =
        .ok number.toNat :=
  Json.readKind_ofKind (Nat.lt_of_lt_of_le number.toNat_lt (by decide)) number.toNat_lt
    ofName?_name fun _ found => congrArg UInt8.toNat (code_of_ofCode? found)

end Kinds

namespace Value

/-- An entry whose JSON form says everything that equality sees: the field is known by its name, and
so are the wrappers of array elements; no hop is empty; no amount carries more digits than the wire;
and every currency is read back from its text. -/
structure Printable (field : Field) (value : Value) : Prop where
  registered : field.Registered
  wrapped : ∀ elements, value = .array elements →
    ∀ element ∈ elements, ∃ wrapper inner, element = [(wrapper, .object inner)]
  named : ∀ paths, value = .pathSet paths → ∀ path ∈ paths, Hop.empty ∉ path
  short : ∀ amount, value = .amount amount → amount.unbounded = true →
    amount.value.precision ≤ Limits.issuedPrecision
  currency : ∀ currency, value = .currency currency →
    Currency.parse currency.toText = .ok currency
  hops : ∀ paths, value = .pathSet paths → ∀ path ∈ paths, ∀ hop ∈ path, ∀ currency,
    hop.currency = some currency → Currency.parse currency.toText = .ok currency
  issued : ∀ amount, value = .amount amount → amount.isNative = false →
    Currency.parse amount.currency.toText = .ok amount.currency

variable {field : Field} {value : Value}

/-- A plain value is read back by its field's codec. -/
theorem readScalar_toJson (stored : value.Stored field) (printable : value.Printable field)
    (notObject : ∀ fields, value ≠ .object fields)
    (notArray : ∀ elements, value ≠ .array elements) :
    Json.readScalar field (value.toJson field) = .ok value.settled := by
  have accepted := stored.fits
  rw [toJson.eq_def, Json.readScalar]
  generalize field.codec = codec at accepted
  cases value with
  | uint8 number =>
      have restored : Except.ok (uint8 (UInt8.ofNat number.toNat)) =
          (Except.ok (uint8 number) : Except ValueError Value) := by rw [UInt8.ofNat_toNat]
      rcases codec with ⟨⟨⟩⟩ | _ | _ | _ | _ <;> try contradiction
      · exact bind_eq_ok.mpr ⟨_, Json.readUnsigned_uint8 field.name number, restored⟩
      · exact bind_eq_ok.mpr ⟨_, EngineResult.readKind_ofCode field.name number, restored⟩
  | uint16 number =>
      have restored : Except.ok (uint16 (UInt16.ofNat number.toNat)) =
          (Except.ok (uint16 number) : Except ValueError Value) := by rw [UInt16.ofNat_toNat]
      rcases codec with ⟨⟨⟩⟩ | _ | _ | _ | _ <;> try contradiction
      · exact bind_eq_ok.mpr ⟨_, Json.readUnsigned_uint16 field.name number, restored⟩
      · exact bind_eq_ok.mpr ⟨_, TransactionType.readKind_ofCode field.name number, restored⟩
      · exact bind_eq_ok.mpr ⟨_, LedgerEntryType.readKind_ofCode field.name number, restored⟩
  | uint32 number =>
      have restored : Except.ok (uint32 (UInt32.ofNat number.toNat)) =
          (Except.ok (uint32 number) : Except ValueError Value) := by rw [UInt32.ofNat_toNat]
      rcases codec with ⟨⟨⟩⟩ | _ | _ | _ | _ <;> try contradiction
      exact bind_eq_ok.mpr ⟨_, Json.readUnsigned_uint32 field.name number, restored⟩
  | uint64 number =>
      have restored : Except.ok (uint64 (UInt64.ofNat number.toNat)) =
          (Except.ok (uint64 number) : Except ValueError Value) := by rw [UInt64.ofNat_toNat]
      rcases codec with ⟨⟨⟩⟩ | _ | _ | _ | _ <;> try contradiction
      exact bind_eq_ok.mpr ⟨_, Json.readHexWord_hexWord number.toNat_lt, restored⟩
  | hash128 hash =>
      rcases codec with ⟨⟨⟩⟩ | _ | _ | _ | _ <;> try contradiction
      exact bind_eq_ok.mpr ⟨_, rfl, bind_eq_ok.mpr ⟨_, Hash.parse_toHex hash, rfl⟩⟩
  | hash160 hash =>
      rcases codec with ⟨⟨⟩⟩ | _ | _ | _ | _ <;> try contradiction
      exact bind_eq_ok.mpr ⟨_, rfl, bind_eq_ok.mpr ⟨_, Hash.parse_toHex hash, rfl⟩⟩
  | hash256 hash =>
      rcases codec with ⟨⟨⟩⟩ | _ | _ | _ | _ <;> try contradiction
      exact bind_eq_ok.mpr ⟨_, rfl, bind_eq_ok.mpr ⟨_, Hash.parse_toHex hash, rfl⟩⟩
  | blob bytes =>
      rcases codec with ⟨⟨⟩⟩ | _ | _ | _ | _ <;> try contradiction
      exact bind_eq_ok.mpr ⟨_, Json.readBlob_encode bytes, rfl⟩
  | account account =>
      rcases codec with ⟨⟨⟩⟩ | _ | _ | _ | _ <;> try contradiction
      exact bind_eq_ok.mpr ⟨_, rfl, bind_eq_ok.mpr ⟨_, account.parse_toAddress, rfl⟩⟩
  | amount amount =>
      have valid := (stored.built amount rfl).valid
      have short := valid.wireValue_eq (printable.short amount rfl)
      have read := Amount.ofJson_toJson valid short (printable.issued amount rfl)
      rcases codec with ⟨⟨⟩⟩ | _ | _ | _ | _ <;> try contradiction
      exact bind_eq_ok.mpr ⟨_, read, rfl⟩
  | currency currency =>
      rcases codec with ⟨⟨⟩⟩ | _ | _ | _ | _ <;> try contradiction
      exact bind_eq_ok.mpr ⟨_, rfl, bind_eq_ok.mpr ⟨_, printable.currency currency rfl, rfl⟩⟩
  | pathSet paths =>
      have read := PathSet.ofJson_toJson (printable.named paths rfl) (printable.hops paths rfl)
      rcases codec with ⟨⟨⟩⟩ | _ | _ | _ | _ <;> try contradiction
      exact bind_eq_ok.mpr ⟨_, read, rfl⟩
  | vector256 hashes =>
      rcases codec with ⟨⟨⟩⟩ | _ | _ | _ | _ <;> try contradiction
      exact bind_eq_ok.mpr ⟨_, Json.readHashes_toHex hashes, rfl⟩
  | object fields => exact absurd rfl (notObject fields)
  | array elements => exact absurd rfl (notArray elements)

end Value

end LedgerWire
