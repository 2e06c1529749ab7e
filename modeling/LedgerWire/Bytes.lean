namespace LedgerWire

/-!
Byte strings. A byte string is the list of its bytes, first byte first; fixed-width
identifiers carry their width in the type. Numbers are spelled in base 256, most
significant byte first unless a name says otherwise.
-/

abbrev Bytes := List UInt8

namespace Bytes

/-- The lowest `width` base-256 digits of a number, most significant first. -/
def bigEndian : Nat → Nat → Bytes
  | 0, _ => []
  | width + 1, number => bigEndian width (number / 256) ++ [UInt8.ofNat number]

@[simp] theorem length_bigEndian (width number : Nat) :
    (bigEndian width number).length = width := by
  induction width generalizing number with
  | zero => rfl
  | succ width ih => simp [bigEndian, ih]

/-- The lowest `width` base-256 digits of a number, least significant first. -/
def littleEndian : Nat → Nat → Bytes
  | 0, _ => []
  | width + 1, number => UInt8.ofNat number :: littleEndian width (number / 256)

@[simp] theorem length_littleEndian (width number : Nat) :
    (littleEndian width number).length = width := by
  induction width generalizing number with
  | zero => rfl
  | succ width ih => simp [littleEndian, ih]

/-- The number that bytes spell, most significant first. -/
def toNat (bytes : Bytes) : Nat :=
  bytes.foldl (fun number byte => number * 256 + byte.toNat) 0

/-- The number that bytes spell, least significant first. -/
def toNatLittleEndian (bytes : Bytes) : Nat :=
  bytes.foldr (fun byte number => number * 256 + byte.toNat) 0

/-- Lexicographic order, a proper beginning coming first. -/
def compare : Bytes → Bytes → Ordering
  | [], [] => .eq
  | [], _ :: _ => .lt
  | _ :: _, [] => .gt
  | left :: leftRest, right :: rightRest =>
    if left < right then .lt else if right < left then .gt else compare leftRest rightRest

def ofText (text : String) : Bytes :=
  text.toList.flatMap String.utf8EncodeChar

/-- Consecutive pieces of `size` bytes, the last one possibly shorter. -/
def pieces (size : Nat) (positive : 0 < size) (bytes : Bytes) : List Bytes :=
  match bytes with
  | [] => []
  | byte :: rest =>
    (byte :: rest).take size :: pieces size positive ((byte :: rest).drop size)
termination_by bytes.length
decreasing_by simp only [List.length_drop, List.length_cons]; omega

end Bytes

structure Octets (width : Nat) where
  toList : Bytes
  length_toList : toList.length = width
deriving DecidableEq

namespace Octets

def ofBytes? (width : Nat) (bytes : Bytes) : Option (Octets width) :=
  if h : bytes.length = width then some ⟨bytes, h⟩ else none

def zero (width : Nat) : Octets width :=
  ⟨List.replicate width 0, List.length_replicate⟩

def isZero {width : Nat} (octets : Octets width) : Bool :=
  octets.toList.all (· == 0)

/-- The lowest digits of a number, most significant first. -/
def ofNat (width number : Nat) : Octets width :=
  ⟨Bytes.bigEndian width number, Bytes.length_bigEndian width number⟩

def compare {width : Nat} (left right : Octets width) : Ordering :=
  Bytes.compare left.toList right.toList

instance {width : Nat} : Inhabited (Octets width) := ⟨zero width⟩

end Octets

end LedgerWire
