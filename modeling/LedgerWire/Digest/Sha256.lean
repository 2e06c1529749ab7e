import LedgerWire.Bytes

namespace LedgerWire.Sha256

/-!
The SHA-256 digest. A message is padded to whole blocks of 64 bytes and each block is folded
into eight 32-bit words; a block's sixteen words are extended on the fly by a window that
slides over the last sixteen.
-/

/-- The first 32 bits of the fractional parts of the cube roots of the first primes. -/
def roundConstants : List UInt32 :=
  [0x428A2F98, 0x71374491, 0xB5C0FBCF, 0xE9B5DBA5, 0x3956C25B, 0x59F111F1,
   0x923F82A4, 0xAB1C5ED5, 0xD807AA98, 0x12835B01, 0x243185BE, 0x550C7DC3,
   0x72BE5D74, 0x80DEB1FE, 0x9BDC06A7, 0xC19BF174, 0xE49B69C1, 0xEFBE4786,
   0x0FC19DC6, 0x240CA1CC, 0x2DE92C6F, 0x4A7484AA, 0x5CB0A9DC, 0x76F988DA,
   0x983E5152, 0xA831C66D, 0xB00327C8, 0xBF597FC7, 0xC6E00BF3, 0xD5A79147,
   0x06CA6351, 0x14292967, 0x27B70A85, 0x2E1B2138, 0x4D2C6DFC, 0x53380D13,
   0x650A7354, 0x766A0ABB, 0x81C2C92E, 0x92722C85, 0xA2BFE8A1, 0xA81A664B,
   0xC24B8B70, 0xC76C51A3, 0xD192E819, 0xD6990624, 0xF40E3585, 0x106AA070,
   0x19A4C116, 0x1E376C08, 0x2748774C, 0x34B0BCB5, 0x391C0CB3, 0x4ED8AA4A,
   0x5B9CCA4F, 0x682E6FF3, 0x748F82EE, 0x78A5636F, 0x84C87814, 0x8CC70208,
   0x90BEFFFA, 0xA4506CEB, 0xBEF9A3F7, 0xC67178F2]

/-- The eight words that a message is folded into. -/
structure State where
  (a b c d e f g h : UInt32)
deriving DecidableEq

/-- The first 32 bits of the fractional parts of the square roots of the first primes. -/
def State.start : State where
  a := 0x6A09E667
  b := 0xBB67AE85
  c := 0x3C6EF372
  d := 0xA54FF53A
  e := 0x510E527F
  f := 0x9B05688C
  g := 0x1F83D9AB
  h := 0x5BE0CD19

def State.add (left right : State) : State :=
  ⟨left.a + right.a, left.b + right.b, left.c + right.c, left.d + right.d,
    left.e + right.e, left.f + right.f, left.g + right.g, left.h + right.h⟩

def State.toBytes (state : State) : Bytes :=
  [state.a, state.b, state.c, state.d, state.e, state.f, state.g, state.h].flatMap
    fun word => Bytes.bigEndian 4 word.toNat

def rotateRight (word amount : UInt32) : UInt32 :=
  (word >>> amount) ||| (word <<< (32 - amount))

def nextWord (window : List UInt32) : UInt32 :=
  let early := window.getD 1 0
  let late := window.getD 14 0
  let spreadEarly := rotateRight early 7 ^^^ rotateRight early 18 ^^^ (early >>> 3)
  let spreadLate := rotateRight late 17 ^^^ rotateRight late 19 ^^^ (late >>> 10)
  window.getD 0 0 + spreadEarly + window.getD 9 0 + spreadLate

def State.round (state : State) (constant word : UInt32) : State :=
  let mixedE := rotateRight state.e 6 ^^^ rotateRight state.e 11 ^^^ rotateRight state.e 25
  let choice := (state.e &&& state.f) ^^^ (~~~state.e &&& state.g)
  let first := state.h + mixedE + choice + constant + word
  let mixedA := rotateRight state.a 2 ^^^ rotateRight state.a 13 ^^^ rotateRight state.a 22
  let majority := (state.a &&& state.b) ^^^ (state.a &&& state.c) ^^^ (state.b &&& state.c)
  ⟨first + (mixedA + majority), state.a, state.b, state.c, state.d + first, state.e, state.f,
    state.g⟩

/-- All rounds of a block, one for each constant. -/
def rounds (state : State) (window : List UInt32) : List UInt32 → State
  | [] => state
  | constant :: constants =>
    rounds (state.round constant (window.headD 0)) (window.tail ++ [nextWord window]) constants

/-- The words that bytes spell, most significant byte first; an incomplete last word is cut. -/
def words (bytes : Bytes) : List UInt32 :=
  (Bytes.pieces 4 (by decide) bytes).map fun piece => UInt32.ofNat (Bytes.toNat piece)

def State.absorb (state : State) (block : Bytes) : State :=
  state.add (rounds state (words block) roundConstants)

/-- A one bit, zeros up to the last block's end, and the message's length in bits. -/
def padded (message : Bytes) : Bytes :=
  let zeros := (64 - (message.length + 1 + 8) % 64) % 64
  message ++ (0x80 :: List.replicate zeros 0) ++ Bytes.bigEndian 8 (message.length * 8)

/-- Folds a string of whole blocks into the state. -/
def State.absorbAll (state : State) (bytes : Bytes) : State :=
  match bytes with
  | [] => state
  | byte :: rest =>
    (state.absorb ((byte :: rest).take 64)).absorbAll ((byte :: rest).drop 64)
termination_by bytes.length
decreasing_by simp only [List.length_drop, List.length_cons]; omega

theorem State.length_toBytes (state : State) : state.toBytes.length = 32 := by
  simp [State.toBytes]

def digest (message : Bytes) : Octets 32 :=
  let final := State.start.absorbAll (padded message)
  ⟨final.toBytes, final.length_toBytes⟩

end LedgerWire.Sha256
