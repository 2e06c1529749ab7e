import LedgerWire.Proofs.Amount.Bounds
import LedgerWire.Proofs.Value.Wire
import LedgerWire.Proofs.Wire.Canonical

namespace LedgerWire

open Reader

/-!
What readers of values promise. A value that was read by its field's codec is one that can be
written, and its amounts keep the bounds of the wire. But for path sets, which a reader may take
from more bytes than are written for them, a plain value is written as the bytes it was read from.
-/

section Plain

theorem Framing.yields_written (context field : String) :
    Yields (Framing.readLengthPrefixed context) fun taken bytes =>
      Framing.lengthPrefixed field bytes = .ok taken := by
  refine (Framing.yields_lengthPrefixed context).mono ?_
  rintro _ bytes ⟨rfl, bound⟩
  exact Framing.lengthPrefixed_of_le bound

theorem Account.yields_read (context field : String) :
    Yields (Account.read context) fun taken account =>
      Framing.lengthPrefixed field account.toBytes = .ok taken := by
  refine (Framing.yields_written context field).bind ?_
  intro front bytes written
  cases found : Octets.ofBytes? 20 bytes with
  | some octets =>
      refine Yields.pure ?_
      rw [List.append_nil, Account.toBytes, Octets.toList_of_ofBytes? found]
      exact written
  | none => exact Yields.fail _

theorem Bytes.flatten_pieces {size : Nat} (positive : 0 < size) (bytes : Bytes) :
    (Bytes.pieces size positive bytes).flatten = bytes := by
  fun_induction Bytes.pieces size positive bytes with
  | case1 => rfl
  | case2 byte rest ih => rw [List.flatten_cons, ih, List.take_append_drop]

theorem Hash.toList_of_ofBytes {width : Nat} {bytes : Bytes} {hash : Hash width}
    (built : Hash.ofBytes width bytes = .ok hash) : hash.toList = bytes := by
  rw [Hash.ofBytes] at built
  split at built
  · rename_i found
    cases built
    exact Octets.toList_of_ofBytes? found
  · contradiction

theorem Hash.map_toList_of_mapM {pieces : List Bytes} {hashes : List (Hash 32)}
    (built : pieces.mapM (Hash.ofBytes 32) = .ok hashes) : hashes.map Octets.toList = pieces := by
  induction pieces generalizing hashes with
  | nil =>
      cases built
      rfl
  | cons piece rest ih =>
      rw [List.mapM_cons] at built
      obtain ⟨hash, first, built⟩ := bind_eq_ok.mp built
      obtain ⟨others, restBuilt, built⟩ := bind_eq_ok.mp built
      cases built
      rw [List.map_cons, Hash.toList_of_ofBytes first, ih restBuilt]

theorem Hash.yields_list (context field : String) :
    Yields (Hash.readList context) fun taken hashes =>
      Framing.lengthPrefix field (hashes.length * 32) ++ .ok (hashes.flatMap Octets.toList) =
        .ok taken := by
  refine (Framing.yields_lengthPrefixed context).bind ?_
  rintro _ bytes ⟨rfl, bound⟩
  split
  · refine (Yields.ofExcept _).mono ?_
    rintro _ hashes ⟨rfl, built⟩
    have whole : hashes.flatMap Octets.toList = bytes := by
      rw [List.flatMap_def, Hash.map_toList_of_mapM (mapError_eq_ok.mp built),
        Bytes.flatten_pieces]
    rw [← Hash.length_flatMap, whole, List.append_nil, Framing.lengthPrefix_of_le bound]
    rfl
  · exact Yields.fail _

namespace Amount

/-- The bounds of amounts on the wire: sixteen digits if issued, and those of its drops if native. -/
structure Wired (amount : Amount) : Prop where
  bounded : amount.unbounded = false
  issued : amount.isNative = false → amount.value.precision ≤ Limits.issuedPrecision
  native : amount.isNative = true → NativeBounds amount.value.toRat

theorem bounded_of_read {input rest : Bytes} {amount : Amount}
    (taken : read.run input = .done amount rest) : amount.unbounded = false := by
  obtain ⟨_, ⟨_, _, built⟩ | ⟨_, _, _, _, built⟩⟩ := read_eq_done taken
  · obtain ⟨_, _, made, _⟩ := ofNativeWord_eq_ok built
    rw [ofDrops_eq_ok made]
  · obtain ⟨_, made, _⟩ := ofIssuedWord_eq_ok built
    rw [made]

theorem Valid.wired {amount : Amount} (valid : amount.Valid) (bounded : amount.unbounded = false) :
    amount.Wired where
  bounded := bounded
  issued isIssued := valid.precision_le isIssued bounded
  native isNative := (checkNative_iff_bounds valid.normal).mp
    ((check_of_isNative isNative).symm.trans valid.checked)

theorem Wired.settled {amount : Amount} (wired : amount.Wired) : amount.settled = amount := by
  have value : amount.wireValue = amount.value := by
    cases isNative : amount.isNative with
    | true => exact wireValue_of_isNative isNative
    | false => exact wireValue_eq_value (wired.issued isNative)
  rw [Amount.settled, value, ← wired.bounded]

theorem yields_read (field : String) :
    Yields read fun taken amount =>
      amount.toBytesFor field = .ok taken ∧ amount.Built ∧ amount.Wired := by
  intro input amount rest taken
  obtain ⟨bytes, written, split⟩ := toBytesFor_of_read taken field
  exact ⟨bytes, split, written, .wire taken, (valid_read taken).wired (bounded_of_read taken)⟩

end Amount

end Plain

section Values

/-- A field that entries are written and read under. -/
structure Field.Wired (field : Field) : Prop where
  registered : field.Registered
  serialized : field.isSerialized = true
  notMarker : field.isMarker = false

def Value.Pathless (value : Value) : Prop :=
  ∀ paths, value ≠ .pathSet paths

/-- An entry that is written, with its amounts in the bounds of the wire. -/
structure Value.Canonical (field : Field) (value : Value) : Prop extends
    Value.Encodable field value where
  amounts : ∀ amount, value = .amount amount → amount.Wired

/-- What the wire form asks of a value itself, whatever its field. -/
def Value.Proper : Value → Prop
  | .blob bytes => bytes.length ≤ Limits.maximumLength
  | .vector256 hashes => hashes.length * 32 ≤ Limits.maximumLength
  | .amount held => held.Built ∧ held.Wired
  | .pathSet paths => PathSet.Named paths
  | .object fields => Object.Ascending fields
  | .array elements => ∀ element ∈ elements, ∃ wrapper inner, element = [(wrapper, .object inner)]
  | _ => True

/-- What a value that was read promises, within so many levels. Without path sets, it is written as
the bytes it was read from, except that the fields of objects inside it change places. -/
structure Value.ReadFrom (levels : Nat) (field : Field) (taken : Bytes) (value : Value) : Prop where
  canonical : value.Canonical field
  inside : value.All Value.Canonical
  shallow : value.depth ≤ levels
  rearranged : value.Pathless → (value.All fun _ value => value.Pathless) →
    ∃ written, value.writeRaw field = .ok written ∧ written.Perm taken

namespace Value

variable {field : Field} {value : Value} {taken : Bytes} {levels : Nat}

theorem Proper.canonical (proper : value.Proper) (wired : field.Wired)
    (fits : value.fits field.codec = true) : value.Canonical field := by
  have ascending : ∀ fields, value = .object fields → Object.Ascending fields := by
    rintro _ rfl
    exact proper
  have built : ∀ amount, value = .amount amount → amount.Built ∧ amount.Wired := by
    rintro _ rfl
    exact proper
  have wrapped : ∀ elements, value = .array elements →
      ∀ element ∈ elements, ∃ wrapper inner, element = [(wrapper, .object inner)] := by
    rintro _ rfl
    exact proper
  have named : ∀ paths, value = .pathSet paths → PathSet.Named paths := by
    rintro _ rfl
    exact proper
  have blob : ∀ bytes, value = .blob bytes → bytes.length ≤ Limits.maximumLength := by
    rintro _ rfl
    exact proper
  have vector : ∀ hashes, value = .vector256 hashes →
      hashes.length * 32 ≤ Limits.maximumLength := by
    rintro _ rfl
    exact proper
  have short : ∀ amount, value = .amount amount → amount.unbounded = true →
      amount.value.precision ≤ Limits.issuedPrecision := by
    intro amount same unbounded
    rw [(built amount same).2.bounded] at unbounded
    contradiction
  have stored : value.Stored field := ⟨fits, ascending, fun amount same => (built amount same).1⟩
  have shaped : value.Shaped field :=
    ⟨stored, wired.registered, wired.notMarker, wrapped, named, short⟩
  exact ⟨⟨shaped, wired.serialized, blob, vector⟩, fun amount same => (built amount same).2⟩

/-- A written atom is short enough to have its length prefix. -/
theorem proper_of_isAtom (atom : value.isAtom = true) (written : value.writeRaw field = .ok taken) :
    value.Proper := by
  cases value with
  | blob bytes =>
      rw [writeRaw] at written
      obtain ⟨_, _, prefixed, _⟩ := Output.append_eq_ok.mp written
      exact (Framing.lengthPrefix_eq_ok.mp prefixed).1
  | vector256 hashes =>
      rw [writeRaw] at written
      obtain ⟨_, _, prefixed, _⟩ := Output.append_eq_ok.mp written
      exact (Framing.lengthPrefix_eq_ok.mp prefixed).1
  | amount | pathSet | object | array => contradiction
  | _ => trivial

theorem ReadFrom.atom (wired : field.Wired) (atom : value.isAtom = true)
    (fits : value.fits field.codec = true) (written : value.writeRaw field = .ok taken) :
    value.ReadFrom levels field taken := by
  refine ⟨(proper_of_isAtom atom written).canonical wired fits, ?_, ?_, fun _ _ =>
    ⟨taken, written, List.Perm.refl taken⟩⟩
  · cases value <;> trivial
  · cases value <;> first | exact Nat.zero_le _ | contradiction

theorem ReadFrom.ofAmount {amount : Amount} (wired : field.Wired)
    (fits : (Value.amount amount).fits field.codec = true) (built : amount.Built)
    (bounds : amount.Wired) (written : amount.toBytesFor field.name = .ok taken) :
    (Value.amount amount).ReadFrom levels field taken := by
  have proper : (Value.amount amount).Proper := ⟨built, bounds⟩
  refine ⟨proper.canonical wired fits, trivial, Nat.zero_le _, fun _ _ =>
    ⟨taken, ?_, List.Perm.refl taken⟩⟩
  rw [writeRaw, written]
  rfl

theorem ReadFrom.ofPathSet {paths : PathSet} (wired : field.Wired)
    (fits : (Value.pathSet paths).fits field.codec = true) (named : PathSet.Named paths) :
    (Value.pathSet paths).ReadFrom levels field taken := by
  have proper : (Value.pathSet paths).Proper := named
  exact ⟨proper.canonical wired fits, trivial, Nat.zero_le _, fun pathless =>
    absurd rfl (pathless paths)⟩

/-- What a reader promises whose answer is wrapped into an atom and written as what it took. -/
theorem yields_atom {α : Type} {reader : Reader α} {before : Bytes → α → Prop} {codec : Codec}
    (wrap : α → Value) (wired : field.Wired) (taking : field.codec = codec)
    (atom : ∀ part, (wrap part).isAtom = true) (fits : ∀ part, (wrap part).fits codec = true)
    (reading : Yields reader before)
    (written : ∀ taken part, before taken part → (wrap part).writeRaw field = .ok taken) :
    Yields (reader >>= fun part => Pure.pure (wrap part)) (ReadFrom levels field) :=
  reading.map fun taken part holds =>
    ReadFrom.atom wired (atom part) (taking ▸ fits part) (written taken part holds)

/-- What the reader of a value promises that is neither an object nor an array. -/
theorem yields_plain (object : Reader Object) (array : Reader Elements) (wired : field.Wired)
    (notObject : field.codec ≠ .plain .object) (notArray : field.codec ≠ .plain .array) :
    Yields (readWith object array field) (ReadFrom levels field) := by
  rw [readWith]
  cases codec : field.codec with
  | plain type =>
      cases type with
      | uint8 =>
          exact yields_atom .uint8 wired codec (fun _ => rfl) (fun _ => rfl) (Yields.byte _)
            (by rintro _ number rfl; rfl)
      | uint16 =>
          exact yields_atom .uint16 wired codec (fun _ => rfl) (fun _ => rfl) (Yields.uint16 _)
            (by rintro _ number rfl; rfl)
      | uint32 =>
          exact yields_atom .uint32 wired codec (fun _ => rfl) (fun _ => rfl) (Yields.uint32 _)
            (by rintro _ number rfl; rfl)
      | uint64 =>
          exact yields_atom .uint64 wired codec (fun _ => rfl) (fun _ => rfl) (Yields.uint64 _)
            (by rintro _ number rfl; rfl)
      | hash128 =>
          exact yields_atom .hash128 wired codec (fun _ => rfl) (fun _ => rfl) (Yields.octets _ _)
            (by rintro _ hash rfl; rfl)
      | hash160 =>
          exact yields_atom .hash160 wired codec (fun _ => rfl) (fun _ => rfl) (Yields.octets _ _)
            (by rintro _ hash rfl; rfl)
      | hash256 =>
          exact yields_atom .hash256 wired codec (fun _ => rfl) (fun _ => rfl) (Yields.octets _ _)
            (by rintro _ hash rfl; rfl)
      | blob =>
          exact yields_atom .blob wired codec (fun _ => rfl) (fun _ => rfl)
            (Framing.yields_written _ field.name) (fun _ _ written => by rw [writeRaw, written])
      | account =>
          exact yields_atom .account wired codec (fun _ => rfl) (fun _ => rfl)
            (Account.yields_read _ field.name) (fun _ _ written => by rw [writeRaw, written])
      | vector256 =>
          exact yields_atom .vector256 wired codec (fun _ => rfl) (fun _ => rfl)
            (Hash.yields_list _ field.name) (fun _ _ written => by rw [writeRaw, written])
      | amount =>
          refine (Amount.yields_read field.name).map ?_
          rintro taken amount ⟨written, built, bounds⟩
          exact .ofAmount wired (by rw [codec]; rfl) built bounds written
      | pathSet =>
          refine PathSet.yields_read.map ?_
          intro taken paths named
          exact .ofPathSet wired (by rw [codec]; rfl) named
      | object => exact absurd codec notObject
      | array => exact absurd codec notArray
  | currency =>
      exact yields_atom (fun octets => .currency ⟨octets⟩) wired codec (fun _ => rfl)
        (fun _ => rfl) (Yields.octets _ _) (by rintro _ octets rfl; rfl)
  | transactionType | ledgerEntryType =>
      exact yields_atom .uint16 wired codec (fun _ => rfl) (fun _ => rfl) (Yields.uint16 _)
        (by rintro _ number rfl; rfl)
  | transactionResult =>
      exact yields_atom .uint8 wired codec (fun _ => rfl) (fun _ => rfl) (Yields.byte _)
        (by rintro _ number rfl; rfl)

end Value

end Values

end LedgerWire
