import LedgerWire.Proofs.Object.Identity

namespace LedgerWire

open Reader

/-!
Plain values read back. Every value but an object or an array is read by its field's codec from
exactly the bytes it was written as, and is written whenever its length has a prefix and its hops
name something.
-/

section Hashes

theorem Bytes.pieces_append {size : Nat} (positive : 0 < size) {front : Bytes} (rest : Bytes)
    (width : front.length = size) :
    Bytes.pieces size positive (front ++ rest) = front :: Bytes.pieces size positive rest := by
  cases front with
  | nil =>
      subst width
      exact absurd positive (Nat.lt_irrefl 0)
  | cons first more =>
      have whole : first :: (more ++ rest) = (first :: more) ++ rest := rfl
      rw [List.cons_append, Bytes.pieces, whole, List.take_left' width, List.drop_left' width]

theorem Hash.pieces_flatMap (hashes : List (Hash 32)) :
    Bytes.pieces 32 (by decide) (hashes.flatMap Octets.toList) = hashes.map Octets.toList := by
  induction hashes with
  | nil => rw [List.flatMap_nil, Bytes.pieces, List.map_nil]
  | cons hash rest ih =>
      rw [List.flatMap_cons, Bytes.pieces_append (by decide) _ hash.length_toList, ih, List.map_cons]

theorem Hash.ofBytes_toList {width : Nat} (hash : Hash width) :
    Hash.ofBytes width hash.toList = .ok hash := by
  rw [Hash.ofBytes, Octets.ofBytes?_toList]

theorem Hash.mapM_ofBytes (hashes : List (Hash 32)) :
    (hashes.map Octets.toList).mapM (Hash.ofBytes 32) = .ok hashes :=
  mapM_map_eq_ok fun hash _ => Hash.ofBytes_toList hash

theorem Hash.length_flatMap (hashes : List (Hash 32)) :
    (hashes.flatMap Octets.toList).length = hashes.length * 32 := by
  induction hashes with
  | nil => rfl
  | cons hash rest ih =>
      rw [List.flatMap_cons, List.length_append, hash.length_toList, ih, List.length_cons]
      omega

theorem Hash.reads_list (context : String) {hashes : List (Hash 32)}
    (bound : hashes.length * 32 ≤ Limits.maximumLength) :
    Reads (Hash.readList context)
      (Framing.lengthBytes (hashes.length * 32) ++ hashes.flatMap Octets.toList) hashes := by
  have length := Hash.length_flatMap hashes
  rw [← length] at bound ⊢
  refine (Framing.reads_lengthPrefixed context bound).map ?_
  rw [if_pos (by rw [length, Nat.mul_mod_left]), Hash.pieces_flatMap, Hash.mapM_ofBytes]
  exact Reads.ofExcept hashes

end Hashes

theorem Account.reads (context : String) {account : Account} {written : Bytes} {field : String}
    (succeeded : Framing.lengthPrefixed field account.toBytes = .ok written) :
    Reads (Account.read context) written account := by
  refine (Framing.reads_of_lengthPrefixed context succeeded).map ?_
  rw [Account.toBytes, Octets.ofBytes?_toList]
  exact Reads.pure account

namespace Value

variable {field : Field} {value : Value} {bytes : Bytes}

/-- A plain value is read back from its bytes, a path set without its empty paths, whatever reads
nested objects and arrays. -/
theorem reads_plain (object : Reader Object) (array : Reader Elements)
    (framed : value.Framed field) (notObject : ∀ fields, value ≠ .object fields)
    (notArray : ∀ elements, value ≠ .array elements)
    (written : value.writeRaw field = .ok bytes) :
    Reads (readWith object array field) bytes value.condensed.settled := by
  have accepted := framed.fits
  rw [readWith]
  generalize field.codec = codec at accepted
  -- A codec that does not take the value contradicts `accepted`; the rest read what was written.
  cases value with
  | uint8 number =>
      rw [writeRaw, Output.ok_inj] at written
      subst written
      rcases codec with ⟨⟨⟩⟩ | _ | _ | _ | _ <;>
        first | contradiction | exact (Reads.byte _ number).map (Reads.pure _)
  | uint16 number =>
      rw [writeRaw, Output.ok_inj] at written
      subst written
      rcases codec with ⟨⟨⟩⟩ | _ | _ | _ | _ <;>
        first | contradiction | exact (Reads.uint16 _ number).map (Reads.pure _)
  | uint32 number =>
      rw [writeRaw, Output.ok_inj] at written
      subst written
      rcases codec with ⟨⟨⟩⟩ | _ | _ | _ | _ <;>
        first | contradiction | exact (Reads.uint32 _ number).map (Reads.pure _)
  | uint64 number =>
      rw [writeRaw, Output.ok_inj] at written
      subst written
      rcases codec with ⟨⟨⟩⟩ | _ | _ | _ | _ <;>
        first | contradiction | exact (Reads.uint64 _ number).map (Reads.pure _)
  | hash128 hash =>
      rw [writeRaw, Output.ok_inj] at written
      subst written
      rcases codec with ⟨⟨⟩⟩ | _ | _ | _ | _ <;>
        first | contradiction | exact (Reads.octets _ hash).map (Reads.pure _)
  | hash160 hash =>
      rw [writeRaw, Output.ok_inj] at written
      subst written
      rcases codec with ⟨⟨⟩⟩ | _ | _ | _ | _ <;>
        first | contradiction | exact (Reads.octets _ hash).map (Reads.pure _)
  | hash256 hash =>
      rw [writeRaw, Output.ok_inj] at written
      subst written
      rcases codec with ⟨⟨⟩⟩ | _ | _ | _ | _ <;>
        first | contradiction | exact (Reads.octets _ hash).map (Reads.pure _)
  | blob blob =>
      rw [writeRaw] at written
      rcases codec with ⟨⟨⟩⟩ | _ | _ | _ | _ <;>
        first | contradiction | exact (Framing.reads_of_lengthPrefixed _ written).map (Reads.pure _)
  | account account =>
      rw [writeRaw] at written
      rcases codec with ⟨⟨⟩⟩ | _ | _ | _ | _ <;>
        first | contradiction | exact (Account.reads _ written).map (Reads.pure _)
  | amount amount =>
      rw [writeRaw, Output.ofExcept_eq_ok] at written
      obtain ⟨front, encoded, _, reading⟩ :=
        Amount.reads_toBytesFor (framed.built amount rfl).valid field.name
      rw [written] at encoded
      cases encoded
      rcases codec with ⟨⟨⟩⟩ | _ | _ | _ | _ <;>
        first | contradiction | exact reading.map (Reads.pure _)
  | currency currency =>
      rw [writeRaw, Output.ok_inj] at written
      subst written
      rcases codec with ⟨⟨⟩⟩ | _ | _ | _ | _ <;>
        first | contradiction | exact (Reads.octets _ currency.octets).map (Reads.pure _)
  | pathSet paths =>
      rw [writeRaw] at written
      rcases codec with ⟨⟨⟩⟩ | _ | _ | _ | _ <;>
        first | contradiction | exact (PathSet.reads_write written).map (Reads.pure _)
  | vector256 hashes =>
      rw [writeRaw] at written
      obtain ⟨front, back, prefixed, rest, rfl⟩ := Output.append_eq_ok.mp written
      obtain ⟨bound, rfl⟩ := Framing.lengthPrefix_eq_ok.mp prefixed
      rw [← Output.ok_inj.mp rest]
      rcases codec with ⟨⟨⟩⟩ | _ | _ | _ | _ <;>
        first | contradiction | exact (Hash.reads_list _ bound).map (Reads.pure _)
  | object fields => exact absurd rfl (notObject fields)
  | array elements => exact absurd rfl (notArray elements)

/-- A plain value is written, if it is not too long. -/
theorem exists_writeRaw_plain (encodable : value.Encodable field)
    (notObject : ∀ fields, value ≠ .object fields)
    (notArray : ∀ elements, value ≠ .array elements) :
    ∃ bytes, value.writeRaw field = .ok bytes := by
  cases value with
  | blob blob => exact ⟨_, Framing.lengthPrefixed_of_le (encodable.blob blob rfl)⟩
  | account account =>
      refine ⟨_, Framing.lengthPrefixed_of_le ?_⟩
      rw [Account.toBytes, account.octets.length_toList]
      decide
  | amount amount =>
      obtain ⟨bytes, written, _⟩ :=
        Amount.reads_toBytesFor (encodable.built amount rfl).valid field.name
      exact ⟨bytes, Output.ofExcept_eq_ok.mpr written⟩
  | pathSet paths => exact PathSet.exists_write (encodable.named paths rfl).2
  | vector256 hashes =>
      rw [writeRaw, Framing.lengthPrefix_of_le (encodable.vector hashes rfl)]
      exact ⟨_, rfl⟩
  | object fields => exact absurd rfl (notObject fields)
  | array elements => exact absurd rfl (notArray elements)
  | _ => exact ⟨_, rfl⟩

end Value

end LedgerWire
