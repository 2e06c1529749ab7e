import LedgerWire.Path.Basic
import LedgerWire.Wire.Framing

namespace LedgerWire

/-!
The wire form of path sets. A hop is a byte of type bits followed by the parts it names; one byte
separates paths and another ends the set, and neither is the type byte of a hop that names
something. A reader passes over empty paths, and takes the end of input for the end of the set.
-/

namespace Hop

/-- The parts of a hop, in the order account, currency, issuer. -/
def partBytes (hop : Hop) : Bytes :=
  (hop.account.elim [] Account.toBytes) ++ (hop.currency.elim [] Currency.toBytes) ++
    (hop.issuer.elim [] Account.toBytes)

/-- Writes a hop in a field. One that names nothing would be taken for the end of the set. -/
def write (field : String) (hop : Hop) : Output :=
  if hop.typeBits = 0 then .fail (.emptyPathHop field)
  else .ok (hop.typeBits :: hop.partBytes)

def hasBit (bits bit : UInt8) : Bool :=
  bits &&& bit != 0

def knownBits (bits : UInt8) : Bool :=
  bits &&& ~~~(accountBit ||| currencyBit ||| issuerBit) == 0

/-- Reads a part of a hop whose bit is set. -/
def readPart {α : Type} (bits bit : UInt8) (context : String) (build : Octets 20 → α) :
    Reader (Option α) :=
  if hasBit bits bit then do
    return some (build (← Reader.octets 20 context))
  else Reader.pure none

/-- Reads the parts of a hop after its type byte. -/
def readFrom (bits : UInt8) : Reader Hop :=
  if knownBits bits then do
    let account ← readPart bits accountBit "hop account" Account.mk
    let currency ← readPart bits currencyBit "hop currency" Currency.mk
    let issuer ← readPart bits issuerBit "hop issuer" Account.mk
    return ⟨account, currency, issuer⟩
  else
    Reader.fail (.malformedEncoding .unknownHopBits)

end Hop

namespace PathSet

/-- Stands between two paths. -/
def separator : UInt8 := 0xFF

/-- Ends a path set. -/
def terminator : UInt8 := 0x00

def writePath (field : String) : Path → Output
  | [] => .ok []
  | hop :: rest => hop.write field ++ writePath field rest

/-- Writes paths, each but the first after a separator. -/
def writePaths (field : String) : PathSet → Output
  | [] => .ok []
  | [path] => writePath field path
  | path :: rest => writePath field path ++ .ok [separator] ++ writePaths field rest

def write (field : String) (paths : PathSet) : Output :=
  writePaths field paths ++ .ok [terminator]

/-- A path set being read: the complete paths and the hops of the open one, latest first. -/
structure Progress where
  closed : List Path
  opened : List Hop

namespace Progress

def start : Progress := ⟨[], []⟩

/-- Closes the open path, if it has a hop. -/
def close (progress : Progress) : Progress :=
  if progress.opened.isEmpty then progress
  else ⟨progress.opened.reverse :: progress.closed, []⟩

def finish (progress : Progress) : PathSet :=
  progress.close.closed.reverse

end Progress

/-- Reads what starts with a byte that is not the terminator: a separator or a hop. -/
def readStep (progress : Progress) (first : UInt8) : Reader Progress :=
  if first = separator then Reader.pure progress.close
  else do
    let hop ← Hop.readFrom first
    return ⟨progress.closed, hop :: progress.opened⟩

def read : Reader PathSet := do
  return (← Reader.fold none (· == terminator) readStep Progress.start).finish

end PathSet

end LedgerWire
