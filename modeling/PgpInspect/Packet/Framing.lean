import PgpInspect.Binary64
import PgpInspect.DecodeFault
import PgpInspect.Octets

/-!
# Packet framing

A stream of octets is a sequence of packets. Each begins with a header octet that holds a tag and
tells the old from the new format. In the new format the body comes in chunks, each after a length
of its own, of which all but the last are partial; in the old format it comes after one length, or
reaches to the end of the stream. A wrong length makes every later boundary wrong, so a fault
anywhere refuses the whole stream.

The functions take the number `total` of octets of the whole stream along, so that an offset is
`total` less what is left.
-/

namespace PgpInspect

/-- A packet as framed: its tag and its body. Framing yields the tags from 0 to 63; a packet that is
made by hand may have any number. -/
structure RawPacket where
  /-- The packet tag. -/
  tag : Binary64
  /-- The packet body. -/
  body : Octets
  deriving DecidableEq

namespace Framing

/-- The fault that `length` octets are needed where `data` is left. -/
def shortage (total : Nat) (data : Octets) (length : Nat) : DecodeFault :=
  .pastEnd (total - data.length) length data.length

/-- The length in front of a chunk of a new-format body. -/
structure ChunkLength (data : Octets) where
  /-- The number of octets of the chunk. -/
  length : Nat
  /-- Whether another chunk follows. -/
  continues : Bool
  /-- What follows the length. -/
  rest : Octets
  /-- The length takes at least one octet. -/
  rest_lt : rest.length < data.length

/-- Reads the length in front of a chunk: one octet below 192, two octets, four octets after 255,
or a power of two for a partial chunk. -/
def chunkLength (total : Nat) : (data : Octets) → Except DecodeFault (ChunkLength data)
  | [] => .error (shortage total [] 1)
  | first :: rest =>
    let n := first.toNat
    if n < 192 then .ok ⟨n, false, rest, by simp⟩
    else if n < 224 then
      match rest with
      | second :: rest =>
        .ok ⟨(n - 192) * 256 + second.toNat + 192, false, rest,
          by simp only [List.length_cons]; omega⟩
      | [] => .error (shortage total [first] 2)
    else if n = 255 then
      match rest with
      | a :: b :: c :: d :: rest =>
        .ok ⟨Octets.toNat [a, b, c, d], false, rest, by simp only [List.length_cons]; omega⟩
      | short => .error (shortage total short 4)
    -- From 224 to 254 the low five bits are the exponent of a power of two.
    else .ok ⟨Nat.pow 2 (n - 224), true, rest, by simp⟩

/-- A body in front of `data` and what follows it. -/
structure Split (data : Octets) where
  /-- The body. -/
  body : Octets
  /-- What follows the body. -/
  rest : Octets
  /-- A body does not grow what is left. -/
  rest_le : rest.length ≤ data.length

/-- The first `length` octets of `data` as a body. -/
def split (total : Nat) (data : Octets) (length : Nat) : Except DecodeFault (Split data) :=
  if length ≤ data.length then .ok ⟨data.take length, data.drop length, by simp⟩
  else .error (shortage total data length)

/-- The new-format body in front of `data`: the chunks up to the first that is not partial. -/
def newBody (total : Nat) (data : Octets) : Except DecodeFault (Split data) :=
  match chunkLength total data with
  | .error fault => .error fault
  | .ok ⟨length, continues, afterLength, lt⟩ =>
    match split total afterLength length with
    | .error fault => .error fault
    | .ok ⟨chunk, rest, le⟩ =>
      if continues then
        match newBody total rest with
        | .error fault => .error fault
        | .ok ⟨more, rest', le'⟩ => .ok ⟨chunk ++ more, rest', by omega⟩
      else .ok ⟨chunk, rest, by omega⟩
termination_by data.length

/-- The body in front of `data` whose length is written in `width` octets. -/
def countedBody (total width : Nat) (data : Octets) : Except DecodeFault (Split data) :=
  match split total data width with
  | .error fault => .error fault
  | .ok ⟨length, afterLength, le⟩ =>
    match split total afterLength length.toNat with
    | .error fault => .error fault
    | .ok ⟨body, rest, le'⟩ => .ok ⟨body, rest, by omega⟩

/-- The old-format body in front of `data`, by the length type of its header: a length of one, two
or four octets, or all that is left. -/
def oldBody (total lengthType : Nat) (data : Octets) : Except DecodeFault (Split data) :=
  match lengthType with
  | 0 => countedBody total 1 data
  | 1 => countedBody total 2 data
  | 2 => countedBody total 4 data
  | _ => .ok ⟨data, [], by simp⟩

/-- The packets of `data`, which ends a stream of `total` octets. -/
def packetsFrom (total : Nat) : (data : Octets) → Except DecodeFault (List RawPacket)
  | [] => .ok []
  | header :: data =>
    let n := header.toNat
    if n < 0x80 then .error (.invalidHeader (total - (data.length + 1)) n)
    else
      let isNew : Bool := 0xC0 ≤ n
      let outcome := if isNew then newBody total data else oldBody total (n % 4) data
      match outcome with
      | .error fault => .error fault
      | .ok ⟨body, rest, _⟩ =>
        match packetsFrom total rest with
        | .error fault => .error fault
        | .ok packets =>
          -- The tag is in the low six bits of a new header and in bits 2 to 5 of an old one.
          .ok (⟨((if isNew then n % 64 else n / 4 % 16 : Nat) : Binary64), body⟩ :: packets)
termination_by data => data.length

end Framing

/-- The packets of a stream. -/
def readPackets (data : Octets) : Except DecodeFault (List RawPacket) :=
  Framing.packetsFrom data.length data

end PgpInspect
