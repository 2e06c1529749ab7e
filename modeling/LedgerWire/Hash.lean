import LedgerWire.Digest.Sha512
import LedgerWire.Error.Value

namespace LedgerWire

open Text

/-!
Opaque fixed-width hashes. They are compared by their bytes and written as hexadecimal.
-/

abbrev Hash (width : Nat) := Octets width

namespace Hash

def ofBytes (width : Nat) (bytes : Bytes) : Except ValueError (Hash width) :=
  match Octets.ofBytes? width bytes with
  | some hash => .ok hash
  | none => .error (.invalidLength "hash" width bytes.length)

/-- Reads hexadecimal of either case. -/
def parse (width : Nat) (text : String) : Except ValueError (Hash width) :=
  match Hex.decode text with
  | .ok bytes => ofBytes width bytes
  | .error cause => .error (.invalidHex "hash" cause)

def toHex {width : Nat} (hash : Hash width) : String :=
  Hex.encode hash.toList

def debugText {width : Nat} (hash : Hash width) : String :=
  "Hash" ++ toString (width * 8) ++ "(" ++ toHex hash ++ ")"

end Hash

def sha512Half (message : Bytes) : Hash 32 :=
  ⟨(Sha512.digest message).toList.take 32, by
    rw [List.length_take, (Sha512.digest message).length_toList]; rfl⟩

end LedgerWire
