import LedgerWire.Bytes

namespace LedgerWire.Sha512

/-!
The SHA-512 digest. A message is padded to whole blocks of 128 bytes and each block is folded
into eight 64-bit words; a block's sixteen words are extended on the fly by a window that
slides over the last sixteen.
-/

/-- The first 64 bits of the fractional parts of the cube roots of the first primes. -/
def roundConstants : List UInt64 :=
  [0x428A2F98D728AE22, 0x7137449123EF65CD, 0xB5C0FBCFEC4D3B2F, 0xE9B5DBA58189DBBC,
   0x3956C25BF348B538, 0x59F111F1B605D019, 0x923F82A4AF194F9B, 0xAB1C5ED5DA6D8118,
   0xD807AA98A3030242, 0x12835B0145706FBE, 0x243185BE4EE4B28C, 0x550C7DC3D5FFB4E2,
   0x72BE5D74F27B896F, 0x80DEB1FE3B1696B1, 0x9BDC06A725C71235, 0xC19BF174CF692694,
   0xE49B69C19EF14AD2, 0xEFBE4786384F25E3, 0x0FC19DC68B8CD5B5, 0x240CA1CC77AC9C65,
   0x2DE92C6F592B0275, 0x4A7484AA6EA6E483, 0x5CB0A9DCBD41FBD4, 0x76F988DA831153B5,
   0x983E5152EE66DFAB, 0xA831C66D2DB43210, 0xB00327C898FB213F, 0xBF597FC7BEEF0EE4,
   0xC6E00BF33DA88FC2, 0xD5A79147930AA725, 0x06CA6351E003826F, 0x142929670A0E6E70,
   0x27B70A8546D22FFC, 0x2E1B21385C26C926, 0x4D2C6DFC5AC42AED, 0x53380D139D95B3DF,
   0x650A73548BAF63DE, 0x766A0ABB3C77B2A8, 0x81C2C92E47EDAEE6, 0x92722C851482353B,
   0xA2BFE8A14CF10364, 0xA81A664BBC423001, 0xC24B8B70D0F89791, 0xC76C51A30654BE30,
   0xD192E819D6EF5218, 0xD69906245565A910, 0xF40E35855771202A, 0x106AA07032BBD1B8,
   0x19A4C116B8D2D0C8, 0x1E376C085141AB53, 0x2748774CDF8EEB99, 0x34B0BCB5E19B48A8,
   0x391C0CB3C5C95A63, 0x4ED8AA4AE3418ACB, 0x5B9CCA4F7763E373, 0x682E6FF3D6B2B8A3,
   0x748F82EE5DEFB2FC, 0x78A5636F43172F60, 0x84C87814A1F0AB72, 0x8CC702081A6439EC,
   0x90BEFFFA23631E28, 0xA4506CEBDE82BDE9, 0xBEF9A3F7B2C67915, 0xC67178F2E372532B,
   0xCA273ECEEA26619C, 0xD186B8C721C0C207, 0xEADA7DD6CDE0EB1E, 0xF57D4F7FEE6ED178,
   0x06F067AA72176FBA, 0x0A637DC5A2C898A6, 0x113F9804BEF90DAE, 0x1B710B35131C471B,
   0x28DB77F523047D84, 0x32CAAB7B40C72493, 0x3C9EBE0A15C9BEBC, 0x431D67C49C100D4C,
   0x4CC5D4BECB3E42B6, 0x597F299CFC657E2A, 0x5FCB6FAB3AD6FAEC, 0x6C44198C4A475817]

/-- The eight words that a message is folded into. -/
structure State where
  (a b c d e f g h : UInt64)
deriving DecidableEq

/-- The first 64 bits of the fractional parts of the square roots of the first primes. -/
def State.start : State where
  a := 0x6A09E667F3BCC908
  b := 0xBB67AE8584CAA73B
  c := 0x3C6EF372FE94F82B
  d := 0xA54FF53A5F1D36F1
  e := 0x510E527FADE682D1
  f := 0x9B05688C2B3E6C1F
  g := 0x1F83D9ABFB41BD6B
  h := 0x5BE0CD19137E2179

def State.add (left right : State) : State :=
  ⟨left.a + right.a, left.b + right.b, left.c + right.c, left.d + right.d,
    left.e + right.e, left.f + right.f, left.g + right.g, left.h + right.h⟩

def State.toBytes (state : State) : Bytes :=
  [state.a, state.b, state.c, state.d, state.e, state.f, state.g, state.h].flatMap
    fun word => Bytes.bigEndian 8 word.toNat

def rotateRight (word amount : UInt64) : UInt64 :=
  (word >>> amount) ||| (word <<< (64 - amount))

def nextWord (window : List UInt64) : UInt64 :=
  let early := window.getD 1 0
  let late := window.getD 14 0
  let spreadEarly := rotateRight early 1 ^^^ rotateRight early 8 ^^^ (early >>> 7)
  let spreadLate := rotateRight late 19 ^^^ rotateRight late 61 ^^^ (late >>> 6)
  window.getD 0 0 + spreadEarly + window.getD 9 0 + spreadLate

def State.round (state : State) (constant word : UInt64) : State :=
  let mixedE := rotateRight state.e 14 ^^^ rotateRight state.e 18 ^^^ rotateRight state.e 41
  let choice := (state.e &&& state.f) ^^^ (~~~state.e &&& state.g)
  let first := state.h + mixedE + choice + constant + word
  let mixedA := rotateRight state.a 28 ^^^ rotateRight state.a 34 ^^^ rotateRight state.a 39
  let majority := (state.a &&& state.b) ^^^ (state.a &&& state.c) ^^^ (state.b &&& state.c)
  ⟨first + (mixedA + majority), state.a, state.b, state.c, state.d + first, state.e, state.f,
    state.g⟩

/-- All rounds of a block, one for each constant. -/
def rounds (state : State) (window : List UInt64) : List UInt64 → State
  | [] => state
  | constant :: constants =>
    rounds (state.round constant (window.headD 0)) (window.tail ++ [nextWord window]) constants

/-- The words that bytes spell, most significant byte first; an incomplete last word is cut. -/
def words (bytes : Bytes) : List UInt64 :=
  (Bytes.pieces 8 (by decide) bytes).map fun piece => UInt64.ofNat (Bytes.toNat piece)

def State.absorb (state : State) (block : Bytes) : State :=
  state.add (rounds state (words block) roundConstants)

/-- A one bit, zeros up to the last block's end, and the message's length in bits. -/
def padded (message : Bytes) : Bytes :=
  let zeros := (128 - (message.length + 1 + 16) % 128) % 128
  message ++ (0x80 :: List.replicate zeros 0) ++ Bytes.bigEndian 16 (message.length * 8)

/-- Folds a string of whole blocks into the state. -/
def State.absorbAll (state : State) (bytes : Bytes) : State :=
  match bytes with
  | [] => state
  | byte :: rest =>
    (state.absorb ((byte :: rest).take 128)).absorbAll ((byte :: rest).drop 128)
termination_by bytes.length
decreasing_by simp only [List.length_drop, List.length_cons]; omega

theorem State.length_toBytes (state : State) : state.toBytes.length = 64 := by
  simp [State.toBytes]

def digest (message : Bytes) : Octets 64 :=
  let final := State.start.absorbAll (padded message)
  ⟨final.toBytes, final.length_toBytes⟩

end LedgerWire.Sha512
