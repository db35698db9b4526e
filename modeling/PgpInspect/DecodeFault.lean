import PgpInspect.Fault

/-!
# Faults of packet streams

Why input is not a packet stream at all: broken framing or broken armor. Such a fault leaves no
partial result.
-/

namespace PgpInspect

/-- Why an armor block cannot be decoded. -/
inductive ArmorFault where
  /-- The label of the first line names no kind of armor. -/
  | unknownType
  /-- A dashed line comes before the blank line that ends the armor headers. -/
  | blankLineMissing
  /-- The block ends before its payload is closed by a dashed line. -/
  | misformed
  deriving DecidableEq

/-- The wording of an armor fault. -/
def ArmorFault.message : ArmorFault → String
  | .unknownType => "Unknown ASCII armor type"
  | .blankLineMissing => "Mandatory blank line missing between armor headers and armor data"
  | .misformed => "Misformed armored text"

/-- Why input is not a packet stream. -/
inductive DecodeFault where
  /-- The octet `header` at `offset` does not begin a packet. -/
  | invalidHeader (offset header : Nat)
  /-- At `offset`, where `available` octets are left, `length` octets are needed. -/
  | pastEnd (offset length available : Nat)
  /-- An armored text holds no complete armor block. -/
  | noArmorBlock
  /-- The armor block number `block`, counted from zero, cannot be decoded. -/
  | armorBlock (block : Nat) (reason : ArmorFault)
  deriving DecidableEq

namespace DecodeFault

/-- The wording of a decode fault. -/
def message : DecodeFault → String
  | .invalidHeader .. => "Invalid packet header"
  | .pastEnd .. => "Packet runs past end of data"
  | .noArmorBlock => "No complete armor block found"
  | .armorBlock .. => "Armor block could not be decoded"

/-- The details of a decode fault. -/
def context? : DecodeFault → Option Members
  | .invalidHeader offset header => some [("offset", .nat offset), ("header", .nat header)]
  | .pastEnd offset length available =>
    some [("offset", .nat offset), ("length", .nat length), ("available", .nat available)]
  | .noArmorBlock => none
  | .armorBlock block reason => some [("block", .nat block), ("reason", .string reason.message)]

/-- The report of a decode fault. -/
def toFault (fault : DecodeFault) : Fault := Fault.decoding fault.message fault.context?

end DecodeFault

end PgpInspect
