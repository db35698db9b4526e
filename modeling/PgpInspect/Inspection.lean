import PgpInspect.Assembly
import PgpInspect.Derivation
import PgpInspect.KeyData

/-!
# Inspecting key data

From key data to derived keys. Input that is not a packet stream is told apart from a stream
without keys.
-/

namespace PgpInspect

/-- The derived keys of a stream of records at `now`, with the log. -/
def interpretRecords (records : List PacketRecord) (now : Binary64)
    (claim : Option IdentityClaim) : List Key × List LogEntry :=
  let (keys, entries) := assembleKeys records
  (deriveKeys keys now claim, entries)

/-- What an inspection finds. -/
structure Inspection where
  /-- Whether the input is a packet stream. -/
  parseable : Bool
  /-- The keys in it. -/
  keys : List Key
  /-- What was left out and why. -/
  entries : List LogEntry

/-- The entry for input that is not a packet stream. -/
def unparseableEntry (fault : DecodeFault) : LogEntry :=
  ⟨.warn, "Key material is not parseable", [("error", .string fault.message)]⟩

/-- Inspects key data at `now`. -/
def inspectKeyData (data : KeyData) (now : Binary64) (claim : Option IdentityClaim) : Inspection :=
  match data.toRecords with
  | .error fault => ⟨false, [], [unparseableEntry fault]⟩
  | .ok records =>
    let (keys, entries) := interpretRecords records now claim
    ⟨true, keys, entries⟩

end PgpInspect
