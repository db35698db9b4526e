import PgpInspect.Key.Binding
import PgpInspect.Key.Size
import PgpInspect.Log
import PgpInspect.Packet.Record

/-!
# Assembling keys from records

One pass over the records of a stream builds its keys. A primary key opens a block that the user
IDs and subkeys after it belong to; a signature binds to the newest key or subkey. A key packet that
cannot be viewed leaves nothing for signatures to bind to, and if it is a primary key it also
closes the block. What has nowhere to go is dropped, and no record stops the pass: problems are
logged.
-/

namespace PgpInspect

/-- The key of a block that signatures bind to. -/
inductive Focus where
  /-- The primary key. -/
  | primary
  /-- The newest subkey. -/
  | newestSubkey
  /-- None. -/
  | nothing
  deriving DecidableEq

/-- A primary key whose records may still follow. -/
structure Block where
  /-- The primary key so far. -/
  key : Key
  /-- What signatures bind to. -/
  focus : Focus

/-- The state of the pass. -/
structure Assembly where
  /-- The keys of the blocks that are closed, in order. -/
  closed : List Key := []
  /-- The block that is open. -/
  block : Option Block := none

namespace Assembly

/-- The keys so far, in order. -/
def keys (assembly : Assembly) : List Key :=
  assembly.closed ++ (assembly.block.map Block.key).toList

/-- The number of seconds of a day. -/
def secondsPerDay : Nat := 86400

/-- The expiry that a key packet states by its days of validity. It is 0 if there are none, and
also if they vanish beside a creation time that is too large to be counted in seconds. -/
def statedExpiry (key : PublicKey) : Binary64 :=
  if 0 < key.daysValid then
    let expires := key.created + key.daysValid.scaleBy secondsPerDay
    if expires.equal key.created then 0 else expires
  else 0

/-- The key that a key packet describes. -/
def keyOf (key : PublicKey) : Key :=
  { fingerprint := key.fingerprint
    algorithmLabel := Algorithm.label key.algorithm
    algorithm := key.algorithm
    size := (key.size : Binary64)
    created := key.created
    expires := statedExpiry key
    isSubkey := key.subkey }

/-- The tags of primary keys. -/
def isPrimaryTag (tag : Binary64) : Bool := tag = 6 || tag = 5

/-- The tags of primary keys and subkeys. -/
def isKeyTag (tag : Binary64) : Bool := isPrimaryTag tag || tag = 14 || tag = 7

/-- Applies a signature to the newest subkey. -/
def signNewest (signature : Signature) : (subkeys : List Key) → List Key × Option FieldFault
  | [] => ([], none)
  | [subkey] =>
    let (signed, fault) := subkey.applySignature signature
    ([signed], fault)
  | subkey :: rest =>
    let (rest, fault) := signNewest signature rest
    (subkey :: rest, fault)

/-- Applies a signature to what the block has in focus. -/
def sign (block : Block) (signature : Signature) : Block × Option FieldFault :=
  match block.focus with
  | .nothing => (block, none)
  | .primary =>
    let (key, fault) := block.key.applySignature signature
    (⟨key, .primary⟩, fault)
  | .newestSubkey =>
    let (subkeys, fault) := signNewest signature block.key.subkeys
    (⟨{ block.key with subkeys }, .newestSubkey⟩, fault)

/-- The entry for a subkey without a primary key. -/
def orphanEntry (key : PublicKey) : LogEntry :=
  ⟨.warn, "Subkey packet before any primary key, skipped",
    [("fingerprint", .string key.fingerprint)]⟩

/-- The entry for a packet that cannot be viewed. -/
def malformedEntry (tag : Binary64) (reason : String) : LogEntry :=
  ⟨.warn, "Malformed packet skipped", [("tag", .number tag), ("reason", .string reason)]⟩

/-- The entry for the record number `index` that failed. -/
def skippedEntry (index : Nat) (fault : FieldFault) : LogEntry :=
  ⟨.warn, "Packet skipped",
    [("index", .nat index), ("tag", .number fault.tag), ("error", .string fault.message)]⟩

/-- Takes the record number `index`. -/
def step (assembly : Assembly) (index : Nat) : PacketRecord → Assembly × List LogEntry
  | .publicKey key =>
    if key.subkey then
      match assembly.block with
      | none => (assembly, [orphanEntry key])
      | some block =>
        let primary := { block.key with subkeys := block.key.subkeys ++ [keyOf key] }
        ({ assembly with block := some ⟨primary, .newestSubkey⟩ }, [])
    else (⟨assembly.keys, some ⟨keyOf key, .primary⟩⟩, [])
  | .userId userId =>
    match assembly.block with
    | none => (assembly, [])
    | some block =>
      let primary := { block.key with identities := block.key.identities ++ [userId.identity] }
      ({ assembly with block := some { block with key := primary } }, [])
  | .signature signature =>
    match assembly.block with
    | none => (assembly, [])
    | some block =>
      let (block, fault) := sign block signature
      ({ assembly with block := some block }, (fault.map (skippedEntry index)).toList)
  | .malformed tag reason =>
    let entries := [malformedEntry tag reason]
    -- The records of a lost primary key must not go to the key before it.
    if isPrimaryTag tag then (⟨assembly.keys, none⟩, entries)
    else if isKeyTag tag then
      ({ assembly with block := assembly.block.map ({ · with focus := .nothing }) }, entries)
    else (assembly, entries)
  | .other _ => (assembly, [])

/-- Takes records, of which the first has the number `index`. -/
def run (assembly : Assembly) (index : Nat) : List PacketRecord → Assembly × List LogEntry
  | [] => (assembly, [])
  | record :: rest =>
    let (assembly, entries) := assembly.step index record
    let (assembly, more) := assembly.run (index + 1) rest
    (assembly, entries ++ more)

end Assembly

/-- The keys of a stream of records, in order, and the log of what was left out. -/
def assembleKeys (records : List PacketRecord) : List Key × List LogEntry :=
  let (assembly, entries) := ({} : Assembly).run 0 records
  (assembly.keys, entries)

end PgpInspect
