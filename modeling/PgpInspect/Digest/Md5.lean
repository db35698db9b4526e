import PgpInspect.Digest.Padding

/-!
# MD5

The digest of version 2 and 3 key fingerprints.
-/

namespace PgpInspect.Digest.Md5

/-- The chaining value. -/
structure State where
  /-- The first word. -/
  a : UInt32
  /-- The second word. -/
  b : UInt32
  /-- The third word. -/
  c : UInt32
  /-- The fourth word. -/
  d : UInt32

/-- The chaining value of the empty prefix. -/
def initial : State := ⟨0x67452301, 0xefcdab89, 0x98badcfe, 0x10325476⟩

/-- The additive constants of the 64 steps: the integer parts of `2 ^ 32 * |sin i|`. -/
def constants : List UInt32 :=
  [0xd76aa478, 0xe8c7b756, 0x242070db, 0xc1bdceee, 0xf57c0faf, 0x4787c62a, 0xa8304613, 0xfd469501,
    0x698098d8, 0x8b44f7af, 0xffff5bb1, 0x895cd7be, 0x6b901122, 0xfd987193, 0xa679438e, 0x49b40821,
    0xf61e2562, 0xc040b340, 0x265e5a51, 0xe9b6c7aa, 0xd62f105d, 0x02441453, 0xd8a1e681, 0xe7d3fbc8,
    0x21e1cde6, 0xc33707d6, 0xf4d50d87, 0x455a14ed, 0xa9e3e905, 0xfcefa3f8, 0x676f02d9, 0x8d2a4c8a,
    0xfffa3942, 0x8771f681, 0x6d9d6122, 0xfde5380c, 0xa4beea44, 0x4bdecfa9, 0xf6bb4b60, 0xbebfbc70,
    0x289b7ec6, 0xeaa127fa, 0xd4ef3085, 0x04881d05, 0xd9d4d039, 0xe6db99e5, 0x1fa27cf8, 0xc4ac5665,
    0xf4292244, 0x432aff97, 0xab9423a7, 0xfc93a039, 0x655b59c3, 0x8f0ccc92, 0xffeff47d, 0x85845dd1,
    0x6fa87e4f, 0xfe2ce6e0, 0xa3014314, 0x4e0811a1, 0xf7537e82, 0xbd3af235, 0x2ad7d2bb, 0xeb86d391]

/-- The places that a step turns its sum by: four for each round, taken in turn. -/
def turns : List (List UInt32) :=
  [[7, 12, 17, 22], [5, 9, 14, 20], [4, 11, 16, 23], [6, 10, 15, 21]]

/-- One step: step number and additive constant, applied to a state under a block of words. -/
def step (block : List UInt32) (state : State) (index : Nat) (constant : UInt32) : State :=
  let ⟨a, b, c, d⟩ := state
  let (mix, word) :=
    if index < 16 then ((b &&& c) ||| (~~~b &&& d), index)
    else if index < 32 then ((d &&& b) ||| (~~~d &&& c), (5 * index + 1) % 16)
    else if index < 48 then (b ^^^ c ^^^ d, (3 * index + 5) % 16)
    else (c ^^^ (b ||| ~~~d), (7 * index) % 16)
  let sum := a + mix + constant + block.getD word 0
  let turn := (turns.getD (index / 16) []).getD (index % 4) 1
  ⟨d, b + turnLeft sum turn, b, c⟩

/-- The steps of one block from step `index` on. -/
def steps (block : List UInt32) : State → (index : Nat) → List UInt32 → State
  | state, _, [] => state
  | state, index, constant :: rest => steps block (step block state index constant) (index + 1) rest

/-- The chaining value after one more block. -/
def compress (state : State) (block : Octets) : State :=
  let words := words (fun octets => Octets.toNat octets.reverse) block
  let result := steps words state 0 constants
  ⟨state.a + result.a, state.b + result.b, state.c + result.c, state.d + result.d⟩

/-- The sixteen octets of the digest. -/
def digest (message : Octets) : Octets :=
  let writeLength (bits : Nat) : Octets := (Octets.ofNat 8 bits).reverse
  let final := (paddedBlocks writeLength message).foldl compress initial
  littleEndian final.a ++ littleEndian final.b ++ littleEndian final.c ++ littleEndian final.d

/-- A digest has sixteen octets. -/
@[simp] theorem length_digest (message : Octets) : (digest message).length = 16 := by
  simp [digest, littleEndian, bigEndian]

end PgpInspect.Digest.Md5
