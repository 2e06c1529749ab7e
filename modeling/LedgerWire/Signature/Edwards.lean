import LedgerWire.Bytes
import LedgerWire.Positional

namespace LedgerWire.Edwards

open Positional

/-!
The twisted Edwards curve `-x² + y² = 1 + d·x²·y²` over the integers modulo `2^255 - 19`. Points
are held in extended coordinates, `x = X/Z`, `y = Y/Z` and `X·Y = Z·T`, in which one complete
formula adds any two points.
-/

def prime : Nat := weight 2 255 - 19

/-- The order of the group that the base point generates. -/
def order : Nat :=
  weight 2 252 + 27742317777372353535851937790883648493

def plus (left right : Nat) : Nat := (left + right) % prime

def minus (left right : Nat) : Nat := (left + prime - right) % prime

def times (left right : Nat) : Nat := left * right % prime

/-- A power of a residue, by repeated squaring. -/
def power (base exponent : Nat) : Nat :=
  if exponent = 0 then 1
  else
    let root := power (times base base) (exponent / 2)
    if exponent % 2 = 1 then times base root else root
termination_by exponent
decreasing_by omega

/-- The inverse of a nonzero residue, by Fermat's little theorem. -/
def inverse (residue : Nat) : Nat :=
  power residue (prime - 2)

/-- The curve's `d`, which is `-121665/121666`. -/
def coefficient : Nat :=
  37095705934669439343138083508754565189542113879843219016388785533085940283555

structure Point where
  (x y z t : Nat)
deriving DecidableEq, Repr

namespace Point

def neutral : Point := ⟨0, 1, 1, 0⟩

def ofAffine (x y : Nat) : Point := ⟨x, y, 1, times x y⟩

def base : Point :=
  ofAffine 15112221349535400772501151409588531511454012693041857206046113283949847762202
    46316835694926478169428394003475163141307993866256225615783033603165251855960

def add (left right : Point) : Point :=
  let a := times (minus left.y left.x) (minus right.y right.x)
  let b := times (plus left.y left.x) (plus right.y right.x)
  let c := times (times (2 * left.t) coefficient) right.t
  let d := times (2 * left.z) right.z
  let e := minus b a
  let f := minus d c
  let g := plus d c
  let h := plus b a
  ⟨times e f, times g h, times f g, times e h⟩

def negate (point : Point) : Point :=
  ⟨minus 0 point.x, point.y, point.z, minus 0 point.t⟩

/-- A multiple of a point, by doubling and adding. -/
def scale (scalar : Nat) (point : Point) : Point :=
  if scalar = 0 then neutral
  else
    let doubled := scale (scalar / 2) (point.add point)
    if scalar % 2 = 1 then doubled.add point else doubled
termination_by scalar
decreasing_by omega

/-- The encoding of a point: its `y`, with the lowest bit of its `x` as the highest bit. -/
def encode (point : Point) : Octets 32 :=
  let inverted := inverse point.z
  let x := times point.x inverted
  let y := times point.y inverted
  ⟨Bytes.littleEndian 32 (y + x % 2 * weight 2 255), Bytes.length_littleEndian 32 _⟩

end Point

end LedgerWire.Edwards
