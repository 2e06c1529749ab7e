import LedgerWire.Bytes
import LedgerWire.Error.Wire

namespace LedgerWire

/-!
Written output: bytes, and the cause if writing stopped there. Outputs are joined in order, and
nothing follows a cause.
-/

/-- What was written, and why writing stopped, if it did. -/
structure Output where
  bytes : Bytes
  cause : Option EncodeError
deriving DecidableEq

namespace Output

def ok (bytes : Bytes) : Output := ⟨bytes, none⟩

def fail (cause : EncodeError) : Output := ⟨[], some cause⟩

/-- The first output, followed by the second if the first is complete. -/
def append (first second : Output) : Output :=
  match first.cause with
  | some _ => first
  | none => ⟨first.bytes ++ second.bytes, second.cause⟩

instance : Append Output := ⟨append⟩

/-- The bytes of complete output. -/
def toExcept (output : Output) : Except EncodeError Bytes :=
  match output.cause with
  | some cause => .error cause
  | none => .ok output.bytes

/-- The output of a computation that answers bytes. -/
def ofExcept : Except EncodeError Bytes → Output
  | .ok bytes => ok bytes
  | .error cause => fail cause

end Output

end LedgerWire
