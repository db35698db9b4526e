import Mathlib.Data.List.Basic
import Mathlib.Data.List.Induction
import PgpInspect.Proofs.Assembly.Run

/-!
# Which key the records of a stream belong to

The keys of a stream, said without a pass over it. A record belongs to a key by the position of the
latest record before it that decides so: `owner?` for user IDs and subkeys, `bound?` for signatures.
What belongs to a key is collected from the whole stream, in its order, and a record whose position
nothing collects has no effect (`Ownership.keys`).

Everything here is a function of a stream, and the lemmas say how it changes when the stream gets
one record longer, since this is what a step of the assembly has to do.
-/

namespace PgpInspect

namespace PacketRecord

/-- Whether a record decides what the signatures behind it bind to: a key or subkey, or what is left
of one that cannot be viewed. -/
def takesFocus : PacketRecord → Bool
  | .publicKey _ => true
  | .malformed tag _ => Assembly.isKeyTag tag
  | _ => false

/-- The primary key that a record is. -/
def primary? : PacketRecord → Option PublicKey
  | .publicKey packet => if packet.subkey then none else some packet
  | _ => none

/-- The subkey that a record is. -/
def subkey? : PacketRecord → Option PublicKey
  | .publicKey packet => if packet.subkey then some packet else none
  | _ => none

/-- The identity in a record. -/
def identity? : PacketRecord → Option Identity
  | .userId view => some view.identity
  | _ => none

/-- The signature that a record is. -/
def signature? : PacketRecord → Option Signature
  | .signature view => some view
  | _ => none

end PacketRecord

namespace Ownership

/-! ## Positions -/

/-- The position of the latest record that satisfies `p`. -/
def latest? (p : PacketRecord → Bool) (records : List PacketRecord) : Option Nat :=
  ((records.zipIdx.filter fun (record, _) => p record).getLast?).map fun (_, position) => position

/-- The position that a user ID or a subkey behind `before` belongs to. -/
def owner? (before : List PacketRecord) : Option Nat := latest? PacketRecord.opensBlock before

/-- The position that a signature behind `before` binds to. -/
def bound? (before : List PacketRecord) : Option Nat := latest? PacketRecord.takesFocus before

/-- What `pick` takes from the records of a stream, with their positions and in order, where what is
in front of a record satisfies `belongs`. -/
def collect {α : Type} (belongs : (before : List PacketRecord) → Bool)
    (pick : PacketRecord → Option α) (records : List PacketRecord) : List (α × Nat) :=
  records.zipIdx.filterMap fun (record, position) =>
    if belongs (records.take position) then (pick record).map fun x => (x, position) else none

/-! ## Keys -/

/-- The primary keys. -/
def primaries : (records : List PacketRecord) → List (PublicKey × Nat) :=
  collect (fun _ => true) PacketRecord.primary?

/-- The subkeys that belong to the position `owner`. -/
def subkeysOf (owner : Nat) : (records : List PacketRecord) → List (PublicKey × Nat) :=
  collect (fun before => owner? before = some owner) PacketRecord.subkey?

/-- The identities that belong to the position `owner`. -/
def identitiesOf (owner : Nat) : (records : List PacketRecord) → List (Identity × Nat) :=
  collect (fun before => owner? before = some owner) PacketRecord.identity?

/-- The signatures that bind to a position. -/
def signaturesOn (position : Nat) : (records : List PacketRecord) → List (Signature × Nat) :=
  collect (fun before => bound? before = some position) PacketRecord.signature?

/-- The key of the packet at a position, with the signatures that bind to it applied in order. -/
def signedKey (records : List PacketRecord) (place : PublicKey × Nat) : Key :=
  (signaturesOn place.2 records).foldl
    (fun key (signature, _) => (key.applySignature signature).1) (Assembly.keyOf place.1)

/-- The primary key of the packet at a position, with what belongs to it. -/
def primaryKey (records : List PacketRecord) (place : PublicKey × Nat) : Key :=
  { signedKey records place with
    identities := (identitiesOf place.2 records).map fun (identity, _) => identity
    subkeys := (subkeysOf place.2 records).map (signedKey records) }

/-- The keys of a stream. -/
def keys (records : List PacketRecord) : List Key := (primaries records).map (primaryKey records)

/-! ## One record more -/

variable {records : List PacketRecord} {record : PacketRecord}

/-- The last record is the latest if it satisfies `p`. -/
theorem latest?_concat (p : PacketRecord → Bool) (records : List PacketRecord)
    (record : PacketRecord) : latest? p (records ++ [record]) =
      if p record then some records.length else latest? p records := by
  unfold latest?
  rw [List.zipIdx_append, List.filter_append]
  cases h : p record <;> simp [h]

/-- The latest position is one of the stream. -/
theorem latest?_lt {p : PacketRecord → Bool} {position : Nat}
    (h : latest? p records = some position) : position < records.length := by
  induction records using List.reverseRecOn with
  | nil => cases h
  | append_singleton records record ih =>
    rw [latest?_concat] at h
    rw [List.length_append, List.length_singleton]
    split at h
    · cases h
      omega
    · have := ih h
      omega

section

variable {α : Type} {belongs : List PacketRecord → Bool} {pick : PacketRecord → Option α}
  {item : α × Nat}

/-- What is made of each record by what is in front of it and by its position: with one record more,
that of the last is added at the end. -/
theorem filterMap_zipIdx_concat {β : Type}
    (make : List PacketRecord → PacketRecord → Nat → Option β) (records : List PacketRecord)
    (record : PacketRecord) :
    ((records ++ [record]).zipIdx.filterMap fun (other, position) =>
        make ((records ++ [record]).take position) other position) =
      (records.zipIdx.filterMap fun (other, position) =>
        make (records.take position) other position) ++
        (make records record records.length).toList := by
  rw [List.zipIdx_append, List.filterMap_append]
  congr 1
  · apply List.filterMap_congr
    rintro ⟨other, position⟩ hmem
    have hlt : position < records.length + 0 := List.snd_lt_of_mem_zipIdx hmem
    dsimp only
    rw [List.take_append_of_le_length (by omega)]
  · cases hmake : make records record records.length <;> simp [hmake]

/-- One record more is picked from after the others. -/
theorem collect_concat (belongs : List PacketRecord → Bool) (pick : PacketRecord → Option α)
    (records : List PacketRecord) (record : PacketRecord) :
    collect belongs pick (records ++ [record]) = collect belongs pick records ++
      (if belongs records then (pick record).map fun x => (x, records.length) else none).toList :=
  filterMap_zipIdx_concat (fun before other position =>
    if belongs before then (pick other).map fun x => (x, position) else none) records record

/-- A record of the wrong kind, or behind the wrong records, adds nothing. -/
theorem collect_concat_of_none (h : belongs records = false ∨ pick record = none) :
    collect belongs pick (records ++ [record]) = collect belongs pick records := by
  rw [collect_concat]
  rcases h with h | h <;> simp [h]

/-- A record of the right kind behind the right records is added at the end. -/
theorem collect_concat_of_some {x : α} (hbelongs : belongs records = true)
    (hpick : pick record = some x) :
    collect belongs pick (records ++ [record]) =
      collect belongs pick records ++ [(x, records.length)] := by
  rw [collect_concat, if_pos hbelongs, hpick]
  rfl

/-- What is collected was picked from the record at its position, behind records that satisfy
`belongs`. -/
theorem exists_of_mem_collect (h : item ∈ collect belongs pick records) :
    ∃ record, records[item.2]? = some record ∧ pick record = some item.1 ∧
      belongs (records.take item.2) = true := by
  unfold collect at h
  obtain ⟨⟨record, position⟩, hmem, hitem⟩ := List.mem_filterMap.mp h
  dsimp only at hitem
  split at hitem
  · next hbelongs =>
    obtain ⟨x, hpick, rfl⟩ := Option.map_eq_some_iff.mp hitem
    exact ⟨record, List.mem_zipIdx_iff_getElem?.mp hmem, hpick, hbelongs⟩
  · cases hitem

/-- What is collected is in the stream. -/
theorem lt_of_mem_collect (h : item ∈ collect belongs pick records) : item.2 < records.length := by
  obtain ⟨record, hrecord, -, -⟩ := exists_of_mem_collect h
  exact (List.getElem?_eq_some_iff.mp hrecord).1

/-- What is collected is in the order of its positions. -/
theorem pairwise_collect (belongs : List PacketRecord → Bool) (pick : PacketRecord → Option α)
    (records : List PacketRecord) :
    (collect belongs pick records).Pairwise fun item other => item.2 < other.2 := by
  induction records using List.reverseRecOn with
  | nil => exact List.Pairwise.nil
  | append_singleton records record ih =>
    rw [collect_concat]
    refine List.pairwise_append.mpr ⟨ih, ?_, ?_⟩
    · split <;> cases pick record <;> simp
    · intro item hitem other hother
      have hlt := lt_of_mem_collect hitem
      split at hother
      · rw [Option.mem_toList, Option.map_eq_some_iff] at hother
        obtain ⟨x, -, rfl⟩ := hother
        exact hlt
      · cases hother

/-- The last item collected is behind all others. -/
theorem lt_of_collect_eq {earlier : List (α × Nat)} {other : α × Nat}
    (h : collect belongs pick records = earlier ++ [item]) (hother : other ∈ earlier) :
    other.2 < item.2 := by
  have hpairwise := pairwise_collect belongs pick records
  rw [h] at hpairwise
  exact (List.pairwise_append.mp hpairwise).2.2 other hother item (List.mem_singleton_self item)

/-- Nothing belongs to a position behind the stream. -/
theorem collect_of_le (p : PacketRecord → Bool) (pick : PacketRecord → Option α) {position : Nat}
    (h : records.length ≤ position) :
    collect (fun before => latest? p before = some position) pick records = [] := by
  apply List.eq_nil_iff_forall_not_mem.mpr
  intro item hmem
  have hlt := lt_of_mem_collect hmem
  obtain ⟨-, -, -, hlatest⟩ := exists_of_mem_collect hmem
  have hposition := latest?_lt (of_decide_eq_true hlatest)
  rw [List.length_take] at hposition
  omega

end

/-- The last record decides what the next user ID belongs to if it closes the block before it. -/
theorem owner?_concat (records : List PacketRecord) (record : PacketRecord) :
    owner? (records ++ [record]) =
      if record.opensBlock then some records.length else owner? records :=
  latest?_concat _ records record

/-- The last record decides what the next signature binds to if it is a key or was one. -/
theorem bound?_concat (records : List PacketRecord) (record : PacketRecord) :
    bound? (records ++ [record]) =
      if record.takesFocus then some records.length else bound? records :=
  latest?_concat _ records record

/-! ## What single records decide -/

/-- A record that closes the block before it decides about signatures too. -/
theorem takesFocus_of_opensBlock (h : record.opensBlock = true) : record.takesFocus = true := by
  cases record with
  | publicKey packet => rfl
  | malformed tag reason =>
    have htag : Assembly.isPrimaryTag tag = true := h
    simp [PacketRecord.takesFocus, Assembly.isKeyTag, htag]
  | userId view => cases h
  | signature view => cases h
  | other tag => cases h

/-- A record that is a primary key holds the packet of one. -/
theorem eq_publicKey_of_primary? {packet : PublicKey} (h : record.primary? = some packet) :
    record = .publicKey packet ∧ packet.subkey = false := by
  cases record with
  | publicKey key =>
    simp only [PacketRecord.primary?] at h
    split at h
    · cases h
    · next hsub =>
      cases h
      exact ⟨rfl, Bool.eq_false_iff.mpr hsub⟩
  | userId view => cases h
  | signature view => cases h
  | malformed tag reason => cases h
  | other tag => cases h

/-- A record that is a subkey holds the packet of one. -/
theorem eq_publicKey_of_subkey? {packet : PublicKey} (h : record.subkey? = some packet) :
    record = .publicKey packet ∧ packet.subkey = true := by
  cases record with
  | publicKey key =>
    simp only [PacketRecord.subkey?] at h
    split at h
    · next hsub =>
      cases h
      exact ⟨rfl, hsub⟩
    · cases h
  | userId view => cases h
  | signature view => cases h
  | malformed tag reason => cases h
  | other tag => cases h

/-- A primary key closes the block before it. -/
theorem opensBlock_of_primary? {packet : PublicKey} (h : record.primary? = some packet) :
    record.opensBlock = true := by
  obtain ⟨rfl, hsub⟩ := eq_publicKey_of_primary? h
  simp [PacketRecord.opensBlock, hsub]

/-- A subkey closes no block. -/
theorem opensBlock_of_subkey? {packet : PublicKey} (h : record.subkey? = some packet) :
    record.opensBlock = false := by
  obtain ⟨rfl, hsub⟩ := eq_publicKey_of_subkey? h
  simp [PacketRecord.opensBlock, hsub]

/-! ## Where keys are -/

variable {place : PublicKey × Nat} {owner : Nat}

/-- A subkey is behind the key that it belongs to. -/
theorem lt_of_mem_subkeysOf (h : place ∈ subkeysOf owner records) : owner < place.2 := by
  obtain ⟨-, -, -, howner⟩ := exists_of_mem_collect h
  have hlt := latest?_lt (of_decide_eq_true howner)
  rw [List.length_take] at hlt
  omega

/-- What user IDs and subkeys belong to was decided no later than what signatures bind to. -/
theorem owner?_of_bound? {position : Nat} (h : bound? records = some position) :
    owner? records = owner? (records.take (position + 1)) := by
  induction records using List.reverseRecOn with
  | nil => cases h
  | append_singleton records record ih =>
    rw [bound?_concat] at h
    by_cases htakes : record.takesFocus = true
    · rw [if_pos htakes, Option.some.injEq] at h
      rw [List.take_of_length_le (by simp [h])]
    · -- A record that decides nothing about signatures decides nothing about user IDs either.
      have hopens : ¬ record.opensBlock = true := fun hopens =>
        htakes (takesFocus_of_opensBlock hopens)
      rw [if_neg htakes] at h
      have hlt : position < records.length := latest?_lt h
      rw [owner?_concat, if_neg hopens, ih h, List.take_append_of_le_length hlt]

/-- If signatures bind to a primary key, then user IDs and subkeys belong to it too. -/
theorem owner?_of_bound?_primary (hplace : place ∈ primaries records)
    (hbound : bound? records = some place.2) : owner? records = some place.2 := by
  obtain ⟨record, hrecord, hprimary, -⟩ := exists_of_mem_collect hplace
  have hle : place.2 ≤ records.length := Nat.le_of_lt (lt_of_mem_collect hplace)
  rw [owner?_of_bound? hbound, List.take_add_one, hrecord, Option.toList_some, owner?_concat,
    if_pos (opensBlock_of_primary? hprimary), List.length_take_of_le hle]

/-- If signatures bind to a subkey, then user IDs and subkeys belong to the same key as it. -/
theorem owner?_of_bound?_subkey (hplace : place ∈ subkeysOf owner records)
    (hbound : bound? records = some place.2) : owner? records = some owner := by
  obtain ⟨record, hrecord, hsubkey, howner⟩ := exists_of_mem_collect hplace
  have hopens : ¬ record.opensBlock = true := by simp [opensBlock_of_subkey? hsubkey]
  rw [owner?_of_bound? hbound, List.take_add_one, hrecord, Option.toList_some, owner?_concat,
    if_neg hopens, of_decide_eq_true howner]

end Ownership

end PgpInspect
