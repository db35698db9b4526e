import PgpInspect.Digest.Padding

/-!
# SHA-1

The digest of version 4 key fingerprints.
-/

namespace PgpInspect.Digest.Sha1

/-- The chaining value. -/
structure State where
  /-- The first word. -/
  a : UInt32
  /-- The second word. -/
  b : UInt32
  /-- The third word. -/
  c : UInt32
  /-- The fourth word. -/
  d : UInt32
  /-- The fifth word. -/
  e : UInt32

/-- The chaining value of the empty prefix. -/
def initial : State := ⟨0x67452301, 0xefcdab89, 0x98badcfe, 0x10325476, 0xc3d2e1f0⟩

/-- `count` more words of the schedule in front of those so far, latest word first. -/
def extend : (count : Nat) → List UInt32 → List UInt32
  | 0, words => words
  | count + 1, words =>
    let sum := words.getD 2 0 ^^^ words.getD 7 0 ^^^ words.getD 13 0 ^^^ words.getD 15 0
    extend count (turnLeft sum 1 :: words)

/-- The 80 words of a block's schedule. -/
def schedule (block : Octets) : List UInt32 :=
  (extend 64 (words Octets.toNat block).reverse).reverse

/-- One step with the word `word` of the schedule. -/
def step (state : State) (index : Nat) (word : UInt32) : State :=
  let ⟨a, b, c, d, e⟩ := state
  let (mix, constant) : UInt32 × UInt32 :=
    if index < 20 then ((b &&& c) ||| (~~~b &&& d), 0x5a827999)
    else if index < 40 then (b ^^^ c ^^^ d, 0x6ed9eba1)
    else if index < 60 then ((b &&& c) ||| (b &&& d) ||| (c &&& d), 0x8f1bbcdc)
    else (b ^^^ c ^^^ d, 0xca62c1d6)
  ⟨turnLeft a 5 + mix + e + constant + word, a, turnLeft b 30, c, d⟩

/-- The steps of one block from step `index` on. -/
def steps : State → (index : Nat) → List UInt32 → State
  | state, _, [] => state
  | state, index, word :: rest => steps (step state index word) (index + 1) rest

/-- The chaining value after one more block. -/
def compress (state : State) (block : Octets) : State :=
  let result := steps state 0 (schedule block)
  ⟨state.a + result.a, state.b + result.b, state.c + result.c, state.d + result.d,
    state.e + result.e⟩

/-- The twenty octets of the digest. -/
def digest (message : Octets) : Octets :=
  let final := (paddedBlocks (Octets.ofNat 8) message).foldl compress initial
  bigEndian final.a ++ bigEndian final.b ++ bigEndian final.c ++ bigEndian final.d
    ++ bigEndian final.e

/-- A digest has twenty octets. -/
@[simp] theorem length_digest (message : Octets) : (digest message).length = 20 := by
  simp [digest, bigEndian]

end PgpInspect.Digest.Sha1
