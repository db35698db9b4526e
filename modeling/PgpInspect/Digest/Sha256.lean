import PgpInspect.Digest.Padding

/-!
# SHA-256

The digest of version 5 and 6 key fingerprints.
-/

namespace PgpInspect.Digest.Sha256

/-- The chaining value. -/
structure State where
  /-- The first word. -/
  a : UInt32
  /-- The second word. -/
  b : UInt32
  /-- The third word. -/
  c : UInt32
  /-- The fourth word. -/
  d : UInt32
  /-- The fifth word. -/
  e : UInt32
  /-- The sixth word. -/
  f : UInt32
  /-- The seventh word. -/
  g : UInt32
  /-- The eighth word. -/
  h : UInt32

/-- The chaining value of the empty prefix: the first fractional bits of the square roots of the
first eight primes. -/
def initial : State :=
  ⟨0x6a09e667, 0xbb67ae85, 0x3c6ef372, 0xa54ff53a, 0x510e527f, 0x9b05688c, 0x1f83d9ab, 0x5be0cd19⟩

/-- The additive constants of the 64 steps: the first fractional bits of the cube roots of the
first 64 primes. -/
def constants : List UInt32 :=
  [0x428a2f98, 0x71374491, 0xb5c0fbcf, 0xe9b5dba5, 0x3956c25b, 0x59f111f1, 0x923f82a4, 0xab1c5ed5,
    0xd807aa98, 0x12835b01, 0x243185be, 0x550c7dc3, 0x72be5d74, 0x80deb1fe, 0x9bdc06a7, 0xc19bf174,
    0xe49b69c1, 0xefbe4786, 0x0fc19dc6, 0x240ca1cc, 0x2de92c6f, 0x4a7484aa, 0x5cb0a9dc, 0x76f988da,
    0x983e5152, 0xa831c66d, 0xb00327c8, 0xbf597fc7, 0xc6e00bf3, 0xd5a79147, 0x06ca6351, 0x14292967,
    0x27b70a85, 0x2e1b2138, 0x4d2c6dfc, 0x53380d13, 0x650a7354, 0x766a0abb, 0x81c2c92e, 0x92722c85,
    0xa2bfe8a1, 0xa81a664b, 0xc24b8b70, 0xc76c51a3, 0xd192e819, 0xd6990624, 0xf40e3585, 0x106aa070,
    0x19a4c116, 0x1e376c08, 0x2748774c, 0x34b0bcb5, 0x391c0cb3, 0x4ed8aa4a, 0x5b9cca4f, 0x682e6ff3,
    0x748f82ee, 0x78a5636f, 0x84c87814, 0x8cc70208, 0x90befffa, 0xa4506ceb, 0xbef9a3f7, 0xc67178f2]

/-- `count` more words of the schedule in front of those so far, latest word first. -/
def extend : (count : Nat) → List UInt32 → List UInt32
  | 0, words => words
  | count + 1, words =>
    let x := words.getD 14 0
    let y := words.getD 1 0
    let small := turnRight x 7 ^^^ turnRight x 18 ^^^ (x >>> 3)
    let large := turnRight y 17 ^^^ turnRight y 19 ^^^ (y >>> 10)
    extend count ((words.getD 15 0 + small + words.getD 6 0 + large) :: words)

/-- The 64 words of a block's schedule. -/
def schedule (block : Octets) : List UInt32 :=
  (extend 48 (words Octets.toNat block).reverse).reverse

/-- One step with a constant and a word of the schedule. -/
def step (state : State) (input : UInt32 × UInt32) : State :=
  let ⟨a, b, c, d, e, f, g, h⟩ := state
  let choice := (e &&& f) ^^^ (~~~e &&& g)
  let majority := (a &&& b) ^^^ (a &&& c) ^^^ (b &&& c)
  let first :=
    h + (turnRight e 6 ^^^ turnRight e 11 ^^^ turnRight e 25) + choice + input.1 + input.2
  let second := (turnRight a 2 ^^^ turnRight a 13 ^^^ turnRight a 22) + majority
  ⟨first + second, a, b, c, d + first, e, f, g⟩

/-- The chaining value after one more block. -/
def compress (state : State) (block : Octets) : State :=
  let result := (constants.zip (schedule block)).foldl step state
  ⟨state.a + result.a, state.b + result.b, state.c + result.c, state.d + result.d,
    state.e + result.e, state.f + result.f, state.g + result.g, state.h + result.h⟩

/-- The thirty-two octets of the digest. -/
def digest (message : Octets) : Octets :=
  let final := (paddedBlocks (Octets.ofNat 8) message).foldl compress initial
  bigEndian final.a ++ bigEndian final.b ++ bigEndian final.c ++ bigEndian final.d
    ++ bigEndian final.e ++ bigEndian final.f ++ bigEndian final.g ++ bigEndian final.h

/-- A digest has thirty-two octets. -/
@[simp] theorem length_digest (message : Octets) : (digest message).length = 32 := by
  simp [digest, bigEndian]

end PgpInspect.Digest.Sha256
