import PgpInspect.Binary64
import PgpInspect.Octets
import PgpInspect.Packet.FieldFault

/-!
# Reading the fields of a packet body

A cursor stands between the octets of a packet body that were read and those that were not. A step
that asks for more octets than are left, or for a negative number of them, fails and leaves the
cursor where it is; only a multiprecision integer that fails after its bit count keeps those two
octets consumed. Fields are whole numbers of octets long (`Reading.bytes`). Whoever asks for another
number (`Reading.portion`) puts the cursor into the middle of an octet, which is then the next one
to be read.
-/

namespace PgpInspect

/-- A place in a packet body. -/
structure Cursor where
  /-- The tag of the packet, for the reports of faults. -/
  tag : Binary64
  /-- The number of octets read. -/
  position : Nat
  /-- The octets not yet read. -/
  rest : Octets
  /-- How far into the next octet the place is, as a part of an octet. -/
  excess : Rat := 0

namespace Cursor

/-- A cursor in front of a body. -/
def start (tag : Binary64) (body : Octets) : Cursor := { tag, position := 0, rest := body }

/-- A number of octets as it is kept: rounded, unless it is whole. -/
def measure (count : Rat) : Rat :=
  if count.den = 1 then count
  else
    match Binary64.ofRat count with
    | .finite rounded => rounded
    | _ => count

/-- The number of octets in front of the place. -/
def offset (cursor : Cursor) : Rat := cursor.position + cursor.excess

/-- The number of octets of the body. -/
def total (cursor : Cursor) : Nat := cursor.position + cursor.rest.length

/-- The number of octets after the place. -/
def remaining (cursor : Cursor) : Rat := measure (cursor.total - cursor.offset)

/-- The octets up to `place`, which is not in front of the cursor, and the cursor there. -/
def moveTo (cursor : Cursor) (place : Rat) : Octets × Cursor :=
  let count := place.floor.toNat - cursor.position
  (cursor.rest.take count,
    { tag := cursor.tag
      position := cursor.position + count
      rest := cursor.rest.drop count
      excess := place - ((cursor.position + count : Nat) : Rat) })

end Cursor

/-- A step that moves a cursor and may fail. The cursor outlives a failure. -/
abbrev Reading := ExceptT FieldFault (StateM Cursor)

namespace Reading

/-- Fails for `cause`. -/
def fail {α : Type} (cause : FieldCause) : Reading α := do
  throw ⟨(← get).tag, cause⟩

/-- The next `length` octets, for any number. -/
def portion (length : Binary64) (field : String) : Reading Octets := do
  let cursor ← get
  let refuse : Reading Octets := fail (.truncated field cursor.offset length cursor.remaining)
  match length with
  | .finite count =>
    let place := Cursor.measure (cursor.offset + count)
    if count < 0 ∨ (cursor.total : Rat) < place then refuse
    else
      let (octets, cursor) := cursor.moveTo place
      set cursor
      return octets
  | _ => refuse

/-- The next `length` octets. -/
def bytes (length : Int) (field : String) : Reading Octets := portion (length : Binary64) field

/-- A number of `width` octets, most significant octet first. -/
def number (width : Nat) (field : String) : Reading Nat := do
  return (← bytes width field).toNat

/-- A number of one octet. -/
def u8 (field : String) : Reading Nat := number 1 field

/-- A number of two octets. -/
def u16 (field : String) : Reading Nat := number 2 field

/-- A number of four octets. -/
def u32 (field : String) : Reading Nat := number 4 field

/-- A multiprecision integer: a bit count in two octets and as many octets as hold that many
bits. -/
def mpi (field : String) : Reading Octets := do
  let bits ← u16 field
  bytes (((bits + 7) / 8 : Nat) : Int) field

/-- All octets that are left. -/
def rest : Reading Octets := do
  portion (.finite (← get).remaining) "rest"

/-- The outcome of a step at a cursor and the cursor after it. -/
def runAt {α : Type} (reading : Reading α) (cursor : Cursor) : Except FieldFault α × Cursor :=
  (reading.run).run cursor

/-- The outcome of a step at the start of a body. -/
def onBody {α : Type} (reading : Reading α) (tag : Binary64) (body : Octets) :
    Except FieldFault α :=
  (reading.runAt (.start tag body)).1

end Reading

end PgpInspect
