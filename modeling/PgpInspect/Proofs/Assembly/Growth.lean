import PgpInspect.Proofs.Assembly.Run
import PgpInspect.Proofs.Assembly.Tracking
import PgpInspect.Proofs.Binary64
import PgpInspect.Proofs.Key.Capability
import PgpInspect.Proofs.Key.Taken

/-!
# Assembled keys only grow

What a stream says so far is never taken back. One record more adds a key behind the others, or it
extends the last key (`PacketRecord.GrowsTo`): with an identity, with a subkey, or with the terms
that a signature states for one of the key and its subkeys. Terms move one way only: letters are
added, and an expiry is set or moved earlier (`Key.Advances`).

This holds of every state of the pass, reached or not, since a record either closes the open block
or changes that block alone. The first part follows a signature from its subpackets to the block that
it is for; `growsTo_advance` puts a step together, and `prolongs_assembleKeys_append` is what a whole
run keeps.
-/

namespace PgpInspect

namespace Key

/-! ## What may change in a key -/

/-- Two states of a key of which its packet says the same. -/
structure SamePacket (key key' : Key) : Prop where
  /-- The fingerprint is the same. -/
  fingerprint : key'.fingerprint = key.fingerprint
  /-- The label of the algorithm is the same. -/
  algorithmLabel : key'.algorithmLabel = key.algorithmLabel
  /-- The algorithm is the same. -/
  algorithm : key'.algorithm = key.algorithm
  /-- The size is the same. -/
  size : key'.size = key.size
  /-- The creation time is the same. -/
  created : key'.created = key.created
  /-- It is a subkey in both states or in none. -/
  isSubkey : key'.isSubkey = key.isSubkey

/-- Two states of a key with the same capabilities and expiry. -/
structure SameTerms (key key' : Key) : Prop where
  /-- The capabilities are the same. -/
  capabilities : key'.capabilities = key.capabilities
  /-- The expiry is the same. -/
  expires : key'.expires = key.expires

/-- Two states of a key of which the later one has all letters of the earlier one, and the same
expiry or one that was not set or later before. -/
structure Advances (key key' : Key) : Prop where
  /-- No letter is lost. -/
  letters : key.capabilities.toList ⊆ key'.capabilities.toList
  /-- The expiry is kept, or it is set where there was none or moved earlier. -/
  expiry : key'.expires = key.expires ∨
    key'.expires ≠ 0 ∧ (key.expires ≠ 0 → key'.expires < key.expires)

/-- A list of which the first items are later states of the items of another list, as `R` says. -/
inductive Prolongs {α : Type} (R : α → α → Prop) : List α → List α → Prop
  /-- Any items may follow. -/
  | nil (added : List α) : Prolongs R [] added
  /-- The first items are states of one. -/
  | cons {x x' : α} {items items' : List α} :
      R x x' → Prolongs R items items' → Prolongs R (x :: items) (x' :: items')

/-- Later states of keys, and perhaps further keys behind them, where the terms of at most one key
changed. -/
inductive OneAdvances : List Key → List Key → Prop
  /-- The terms of the first key may have changed, those of the others have not. -/
  | here {key key' : Key} {rest rest' : List Key} :
      key.Advances key' → Prolongs SameTerms rest rest' → OneAdvances (key :: rest) (key' :: rest')
  /-- The terms of one of the others may have changed. -/
  | there {key key' : Key} {rest rest' : List Key} :
      key.SameTerms key' → OneAdvances rest rest' → OneAdvances (key :: rest) (key' :: rest')

/-- Two states of a primary key of which the later one is the earlier one with more: more identities
and subkeys behind those that there were, and other terms for at most one of the key and its
subkeys. -/
structure Extends (key key' : Key) : Prop where
  /-- It is the same key. -/
  same : key.SamePacket key'
  /-- The identities that there were come first. -/
  identities : key.identities <+: key'.identities
  /-- The subkeys that there were come first. -/
  subkeys : Prolongs SamePacket key.subkeys key'.subkeys
  /-- The terms of at most one of the key and its subkeys changed. -/
  terms : OneAdvances (key :: key.subkeys) (key' :: key'.subkeys)

variable {key key' key'' : Key}

/-- A key is a state of itself. -/
theorem SamePacket.refl (key : Key) : key.SamePacket key := ⟨rfl, rfl, rfl, rfl, rfl, rfl⟩

/-- The packet of a key says nothing of its terms. -/
theorem SamePacket.withTerms (key : Key) (capabilities : String) (expires : Binary64) :
    key.SamePacket (key.withTerms capabilities expires) := ⟨rfl, rfl, rfl, rfl, rfl, rfl⟩

/-- The packet of a key says nothing of its identities and subkeys. -/
theorem SamePacket.withParts (key : Key) (identities : List Identity) (subkeys : List Key) :
    key.SamePacket (key.withParts identities subkeys) := ⟨rfl, rfl, rfl, rfl, rfl, rfl⟩

/-- Of three states of a key, the first and the last have the same packet if both have that of the
second. -/
theorem SamePacket.trans (h : key.SamePacket key') (h' : key'.SamePacket key'') :
    key.SamePacket key'' where
  fingerprint := h'.fingerprint.trans h.fingerprint
  algorithmLabel := h'.algorithmLabel.trans h.algorithmLabel
  algorithm := h'.algorithm.trans h.algorithm
  size := h'.size.trans h.size
  created := h'.created.trans h.created
  isSubkey := h'.isSubkey.trans h.isSubkey

/-- A key has its own terms. -/
theorem SameTerms.refl (key : Key) : key.SameTerms key := ⟨rfl, rfl⟩

/-- Identities and subkeys do not touch the terms of a key. -/
theorem SameTerms.withParts (key : Key) (identities : List Identity) (subkeys : List Key) :
    key.SameTerms (key.withParts identities subkeys) := ⟨rfl, rfl⟩

/-- Terms that are the same have not moved back. -/
theorem SameTerms.advances (h : key.SameTerms key') : key.Advances key' where
  letters := by rw [h.capabilities]; exact List.Subset.refl _
  expiry := .inl h.expires

/-- Terms that stay have not moved back. -/
theorem Advances.refl (key : Key) : key.Advances key := (SameTerms.refl key).advances

/-- Terms that move on twice move on. -/
theorem Advances.trans (h : key.Advances key') (h' : key'.Advances key'') :
    key.Advances key'' where
  letters := List.Subset.trans h.letters h'.letters
  expiry := by
    rcases h'.expiry with heq' | ⟨hset', hearlier'⟩
    · rw [heq']
      exact h.expiry
    · rcases h.expiry with heq | ⟨hset, hearlier⟩
      · rw [← heq]
        exact .inr ⟨hset', hearlier'⟩
      · exact .inr ⟨hset', fun hnonzero => Binary64.lt_trans (hearlier' hset) (hearlier hnonzero)⟩

section

variable {α : Type} {R : α → α → Prop}

/-- Items that are states of themselves stay behind which any others come. -/
theorem Prolongs.append (hrefl : ∀ x, R x x) (items added : List α) :
    Prolongs R items (items ++ added) := by
  induction items with
  | nil => exact .nil added
  | cons x items ih => exact .cons (hrefl x) ih

/-- A list is prolonged by itself. -/
theorem Prolongs.refl (hrefl : ∀ x, R x x) (items : List α) : Prolongs R items items := by
  have h := Prolongs.append hrefl items []
  rw [List.append_nil] at h
  exact h

/-- Later states of later states are later states. -/
theorem Prolongs.trans {items items' items'' : List α} (h : Prolongs R items items')
    (h' : Prolongs R items' items'') (htrans : ∀ {x y z}, R x y → R y z → R x z) :
    Prolongs R items items'' := by
  induction h generalizing items'' with
  | nil added => exact .nil items''
  | cons hfirst _ ih =>
    cases h' with
    | cons hfirst' hrest' => exact .cons (htrans hfirst hfirst') (ih hrest')

/-- The last item may change. -/
theorem Prolongs.concat (hrefl : ∀ x, R x x) (items : List α) {x x' : α} (h : R x x') :
    Prolongs R (items ++ [x]) (items ++ [x']) := by
  induction items with
  | nil => exact .cons h (.nil [])
  | cons first items ih => exact .cons (hrefl first) ih

end

/-- The terms of the last key may change. -/
theorem OneAdvances.concat (earlier : List Key) (h : key.Advances key') :
    OneAdvances (earlier ++ [key]) (earlier ++ [key']) := by
  induction earlier with
  | nil => exact .here h (.nil [])
  | cons first earlier ih => exact .there (.refl first) ih

/-! ## Signatures -/

/-- A stated expiration moves the terms on. -/
theorem advances_applyExpiration (key : Key) (seconds : Binary64) :
    key.Advances (key.applyExpiration seconds) := by
  unfold applyExpiration
  split
  · exact .refl key
  · dsimp only
    split
    · next htaken =>
      obtain ⟨hpositive, hearlier⟩ := htaken
      refine ⟨List.Subset.refl _, .inr ⟨fun hzero => ?_, hearlier.resolve_left⟩⟩
      -- The time is after the epoch, so that it is not taken for none.
      have hnone : key.created + seconds = 0 := hzero
      rw [hnone] at hpositive
      exact Binary64.lt_irrefl 0 hpositive
    · exact .refl key

/-- Key flags move the terms on. -/
theorem advances_applyFlags (key : Key) (flags : Nat) : key.Advances (key.applyFlags flags) :=
  ⟨Capability.subset_merge key.capabilities (Capability.granted flags), .inl rfl⟩

/-- A subpacket moves the terms on. -/
theorem advances_take (key : Key) (subpacket : Subpacket) : key.Advances (key.take subpacket) := by
  unfold take
  split
  · exact advances_applyExpiration key _
  · split
    · split
      · exact .refl key
      · exact advances_applyFlags key _
    · exact .refl key

/-- Subpackets move the terms on. -/
theorem advances_foldl_take (key : Key) (subpackets : List Subpacket) :
    key.Advances (subpackets.foldl take key) := by
  induction subpackets generalizing key with
  | nil => exact .refl key
  | cons subpacket rest ih => exact (advances_take key subpacket).trans (ih (key.take subpacket))

/-- A signature moves the terms on, however much of it is taken. -/
theorem advances_applySignature (key : Key) (signature : Signature) :
    key.Advances (key.applySignature signature).1 := by
  rw [applySignature_fst]
  exact advances_foldl_take key signature.taken

/-- A signature does not touch what the packet of a key says. -/
theorem samePacket_applySignature (key : Key) (signature : Signature) :
    key.SamePacket (key.applySignature signature).1 := by
  rw [applySignature_eq_withTerms]
  exact .withTerms key _ _

/-! ## What a record does to a primary key -/

/-- A key is extended by identities and subkeys behind its own. -/
theorem extends_withParts (key : Key) (identities : List Identity) (subkeys : List Key) :
    key.Extends (key.withParts (key.identities ++ identities) (key.subkeys ++ subkeys)) where
  same := .withParts key _ _
  identities := List.prefix_append _ _
  subkeys := .append SamePacket.refl _ _
  terms := .here (SameTerms.withParts key _ _).advances (.append SameTerms.refl _ _)

/-- A key is extended by nothing. -/
theorem Extends.refl (key : Key) : key.Extends key := by
  have h := key.extends_withParts [] []
  rw [List.append_nil, List.append_nil, withParts_self] at h
  exact h

/-- A key is extended by an identity. -/
theorem extends_addIdentity (key : Key) (identity : Identity) :
    key.Extends { key with identities := key.identities ++ [identity] } := by
  have h := key.extends_withParts [identity] []
  rw [List.append_nil] at h
  exact h

/-- A key is extended by a subkey. -/
theorem extends_addSubkey (key subkey : Key) :
    key.Extends { key with subkeys := key.subkeys ++ [subkey] } := by
  have h := key.extends_withParts [] [subkey]
  rw [List.append_nil] at h
  exact h

/-- A key is extended by a signature. -/
theorem extends_applySignature (key : Key) (signature : Signature) :
    key.Extends (key.applySignature signature).1 := by
  have hadvances := advances_applySignature key signature
  have hsame := samePacket_applySignature key signature
  rw [applySignature_eq_withTerms] at hadvances hsame ⊢
  exact ⟨hsame, List.prefix_refl _, .refl SamePacket.refl _,
    .here hadvances (.refl SameTerms.refl _)⟩

/-- A key is extended by a signature on its newest subkey. -/
theorem extends_signNewest (key : Key) (signature : Signature) :
    key.Extends { key with subkeys := (Assembly.signNewest signature key.subkeys).1 } := by
  rcases List.eq_nil_or_concat key.subkeys with hnone | ⟨earlier, subkey, hsubkeys⟩
  · have hkept : { key with subkeys := (Assembly.signNewest signature key.subkeys).1 } = key := by
      rw [hnone]
      show key.withParts key.identities [] = key
      rw [← hnone, withParts_self]
    rw [hkept]
    exact .refl key
  · rw [List.concat_eq_append] at hsubkeys
    have hsigned : (Assembly.signNewest signature key.subkeys).1 =
        earlier ++ [(subkey.applySignature signature).1] := by
      rw [hsubkeys, Ownership.signNewest_concat]
    rw [hsigned]
    refine ⟨.withParts key _ _, List.prefix_refl _, ?_, .there (.withParts key _ _) ?_⟩
    · rw [hsubkeys]
      exact .concat SamePacket.refl earlier (samePacket_applySignature subkey signature)
    · rw [hsubkeys]
      exact .concat earlier (advances_applySignature subkey signature)

end Key

/-- The primary key of an open block is extended by a record that does not close the block. -/
theorem Block.extends_extend (block : Block) (record : PacketRecord) :
    block.key.Extends (block.extend record).key := by
  cases record with
  | publicKey packet => exact Key.extends_addSubkey block.key (Assembly.keyOf packet)
  | userId view => exact Key.extends_addIdentity block.key view.identity
  | signature signature =>
    show block.key.Extends (Assembly.sign block signature).1.key
    unfold Assembly.sign
    cases block.focus with
    | nothing => exact .refl block.key
    | primary => exact Key.extends_applySignature block.key signature
    | newestSubkey => exact Key.extends_signNewest block.key signature
  | malformed tag reason =>
    unfold extend
    dsimp only
    split <;> exact .refl block.key
  | other tag => exact .refl block.key

/-! ## What a record does to the keys -/

/-- Keys before and after a record: a primary key is added behind the others, and any other record
extends the last key or does nothing. -/
inductive PacketRecord.GrowsTo (record : PacketRecord) : List Key → List Key → Prop
  /-- The record is a primary key, which is added. -/
  | added {packet : PublicKey} (keys : List Key) :
      record.primary? = some packet → GrowsTo record keys (keys ++ [Assembly.keyOf packet])
  /-- The record is none, and the last key is extended. -/
  | extended {last last' : Key} (earlier : List Key) : record.primary? = none →
      last.Extends last' → GrowsTo record (earlier ++ [last]) (earlier ++ [last'])
  /-- The record is none, and there is nothing for it to extend. -/
  | unchanged (keys : List Key) : record.primary? = none → GrowsTo record keys keys

namespace Assembly

/-- A record that closes a block is a primary key, which opens the next block, or what is left of
one. -/
theorem openedBlock_cases {record : PacketRecord} (h : record.opensBlock = true) :
    (∃ packet, record.primary? = some packet ∧
        record.openedBlock = some ⟨keyOf packet, .primary⟩) ∨
      (record.primary? = none ∧ record.openedBlock = none) := by
  cases record with
  | publicKey packet =>
    have hsub : packet.subkey = false := by simpa [PacketRecord.opensBlock] using h
    exact .inl ⟨packet, by simp [PacketRecord.primary?, hsub], rfl⟩
  | malformed tag reason => exact .inr ⟨rfl, rfl⟩
  | userId view => cases h
  | signature view => cases h
  | other tag => cases h

/-- In any state of the pass, one record more adds a key, extends the last key, or does nothing. -/
theorem growsTo_advance (assembly : Assembly) (record : PacketRecord) :
    record.GrowsTo assembly.keys (assembly.advance record).keys := by
  cases hopens : record.opensBlock with
  | true =>
    rw [advance_of_opensBlock hopens]
    rcases openedBlock_cases hopens with ⟨packet, hprimary, hblock⟩ | ⟨hprimary, hblock⟩
    · rw [hblock]
      exact .added assembly.keys hprimary
    · rw [hblock]
      have hkept : Assembly.keys ⟨assembly.keys, none⟩ = assembly.keys := List.append_nil _
      rw [hkept]
      exact .unchanged assembly.keys hprimary
  | false =>
    have hprimary : record.primary? = none := by
      by_contra hsome
      obtain ⟨packet, hpacket⟩ := Option.ne_none_iff_exists'.mp hsome
      rw [Ownership.opensBlock_of_primary? hpacket] at hopens
      cases hopens
    rw [advance_of_not_opensBlock hopens]
    obtain ⟨closed, block⟩ := assembly
    cases block with
    | none => exact .unchanged _ hprimary
    | some block => exact .extended closed hprimary (block.extends_extend record)

end Assembly

/-- One record more, behind any records, adds a key behind the assembled keys, or it extends the
last of them and takes back nothing. -/
theorem growsTo_assembleKeys_concat (records : List PacketRecord) (record : PacketRecord) :
    record.GrowsTo (assembleKeys records).1 (assembleKeys (records ++ [record])).1 := by
  rw [Assembly.assembleKeys_fst, Assembly.assembleKeys_fst, Assembly.after_concat]
  exact Assembly.growsTo_advance _ record

/-! ## What a run keeps -/

namespace Key

/-- Two states of a key with the same packet and terms that moved on. -/
structure Continues (key key' : Key) : Prop where
  /-- It is the same key. -/
  same : key.SamePacket key'
  /-- Its terms moved on. -/
  advances : key.Advances key'

/-- Two states of a primary key, of which the later one has the identities and subkeys of the
earlier one first. -/
structure Persists (key key' : Key) : Prop where
  /-- It is the same key, and its terms moved on. -/
  continues : key.Continues key'
  /-- The identities that there were come first. -/
  identities : key.identities <+: key'.identities
  /-- The subkeys that there were come first, and their terms moved on. -/
  subkeys : Prolongs Continues key.subkeys key'.subkeys

variable {key key' key'' : Key}

/-- A key continues itself. -/
theorem Continues.refl (key : Key) : key.Continues key := ⟨.refl key, .refl key⟩

/-- What continues a continued key continues the key. -/
theorem Continues.trans (h : key.Continues key') (h' : key'.Continues key'') :
    key.Continues key'' := ⟨h.same.trans h'.same, h.advances.trans h'.advances⟩

/-- A key persists in itself. -/
theorem Persists.refl (key : Key) : key.Persists key :=
  ⟨.refl key, List.prefix_refl _, .refl Continues.refl _⟩

/-- What persists in a key persists where that key does. -/
theorem Persists.trans (h : key.Persists key') (h' : key'.Persists key'') :
    key.Persists key'' where
  continues := h.continues.trans h'.continues
  identities := h.identities.trans h'.identities
  subkeys := h.subkeys.trans h'.subkeys Continues.trans

/-- Terms of at most one key that moved on moved on for all keys. -/
theorem OneAdvances.prolongs {keys keys' : List Key} (h : OneAdvances keys keys') :
    Prolongs Advances keys keys' := by
  have hsame {rest rest' : List Key} (hrest : Prolongs SameTerms rest rest') :
      Prolongs Advances rest rest' := by
    induction hrest with
    | nil added => exact .nil added
    | cons hterms _ ih => exact .cons hterms.advances ih
  induction h with
  | here hadvances hrest => exact .cons hadvances (hsame hrest)
  | there hterms _ ih => exact .cons hterms.advances ih

/-- A key persists where it is extended. -/
theorem Extends.persists (h : key.Extends key') : key.Persists key' := by
  have hboth {items items' : List Key} (hsame : Prolongs SamePacket items items')
      (hadvances : Prolongs Advances items items') : Prolongs Continues items items' := by
    induction hsame with
    | nil added => exact .nil added
    | cons hpacket _ ih =>
      cases hadvances with
      | cons hterms hrest => exact .cons ⟨hpacket, hterms⟩ (ih hrest)
  cases h.terms.prolongs with
  | cons hadvances hrest => exact ⟨⟨h.same, hadvances⟩, h.identities, hboth h.subkeys hrest⟩

end Key

/-- Every key persists through a record. -/
theorem PacketRecord.GrowsTo.prolongs {record : PacketRecord} {keys keys' : List Key}
    (h : record.GrowsTo keys keys') : Key.Prolongs Key.Persists keys keys' := by
  cases h with
  | added packet _ => exact .append Key.Persists.refl keys _
  | extended earlier _ hextends => exact .concat Key.Persists.refl earlier hextends.persists
  | unchanged _ _ => exact .refl Key.Persists.refl keys

/-- The keys of a beginning of a stream persist in the keys of the stream, as its first. -/
theorem prolongs_assembleKeys_append (records more : List PacketRecord) :
    Key.Prolongs Key.Persists (assembleKeys records).1 (assembleKeys (records ++ more)).1 := by
  induction more using List.reverseRecOn with
  | nil =>
    rw [List.append_nil]
    exact .refl Key.Persists.refl _
  | append_singleton more record ih =>
    rw [← List.append_assoc]
    rw [Assembly.assembleKeys_fst, Assembly.assembleKeys_fst] at ih ⊢
    rw [Assembly.after_concat]
    exact ih.trans (Assembly.growsTo_advance _ record).prolongs Key.Persists.trans

end PgpInspect
