import Mathlib.Data.List.Forall2
import PgpInspect.Proofs.Assembly.Ownership
import PgpInspect.Proofs.Key.Binding

/-!
# The pass over records builds the keys of the stream

`Tracks` relates the records taken so far to the state of the pass: the closed blocks hold the
primary keys of these records but the last, the open block holds the last one if user IDs and
subkeys still belong to it, and the focus names the key that signatures bind to. One record
preserves this (`Tracks.advance`), so the assembled keys are those that `Ownership` reads off the
whole stream.

What a step does to the open block has to happen to no other key. This is why the first section
says when the key of a packet is the same with one record more: when neither user IDs nor
signatures in that place belong to it.
-/

namespace PgpInspect

namespace Ownership

variable {records : List PacketRecord} {record : PacketRecord} {place : PublicKey × Nat}
  {owner : Nat}

/-! ## Keys and one record more -/

/-- A signature that binds elsewhere, and any other record, leaves a key as it is. -/
theorem signedKey_concat (h : bound? records ≠ some place.2 ∨ record.signature? = none) :
    signedKey (records ++ [record]) place = signedKey records place := by
  unfold signedKey signaturesOn
  rw [collect_concat_of_none (h.imp_left decide_eq_false)]

/-- A signature is applied to the key that it binds to, after those in front of it. -/
theorem signedKey_concat_signature {signature : Signature}
    (h : bound? records = some place.2) :
    signedKey (records ++ [.signature signature]) place =
      ((signedKey records place).applySignature signature).1 := by
  unfold signedKey signaturesOn
  rw [collect_concat_of_some (decide_eq_true h) (x := signature) rfl, List.foldl_append]
  rfl

/-- No signature binds to a key that is still to come. -/
theorem signedKey_of_le (h : records.length ≤ place.2) :
    signedKey records place = Assembly.keyOf place.1 := by
  unfold signedKey signaturesOn bound?
  rw [collect_of_le _ _ h]
  rfl

/-- The subkeys of a position are the same with a record more that is none. -/
theorem subkeysOf_concat (h : owner? records ≠ some owner ∨ record.subkey? = none) :
    subkeysOf owner (records ++ [record]) = subkeysOf owner records :=
  collect_concat_of_none (h.imp_left decide_eq_false)

/-- The identities of a position are the same with a record more that has none. -/
theorem identitiesOf_concat (h : owner? records ≠ some owner ∨ record.identity? = none) :
    identitiesOf owner (records ++ [record]) = identitiesOf owner records :=
  collect_concat_of_none (h.imp_left decide_eq_false)

/-- A primary key is its packet under its signatures, with what belongs to it. -/
theorem primaryKey_eq_withParts (records : List PacketRecord) (place : PublicKey × Nat) :
    primaryKey records place = (signedKey records place).withParts
      ((identitiesOf place.2 records).map fun (identity, _) => identity)
      ((subkeysOf place.2 records).map (signedKey records)) := rfl

/-- Nothing belongs to a primary key that is still to come. -/
theorem primaryKey_of_le (h : records.length ≤ place.2) :
    primaryKey records place = Assembly.keyOf place.1 := by
  have hidentities : identitiesOf place.2 records = [] := collect_of_le _ _ h
  have hsubkeys : subkeysOf place.2 records = [] := collect_of_le _ _ h
  rw [primaryKey_eq_withParts, hidentities, hsubkeys, signedKey_of_le h]
  rfl

/-- A record that is no user ID, no subkey and no signature leaves a primary key as it is. -/
theorem primaryKey_concat_of_none (hidentity : record.identity? = none)
    (hsubkey : record.subkey? = none) (hsignature : record.signature? = none) :
    primaryKey (records ++ [record]) place = primaryKey records place := by
  have hsigned : signedKey (records ++ [record]) = signedKey records :=
    funext fun _ => signedKey_concat (.inr hsignature)
  rw [primaryKey_eq_withParts, identitiesOf_concat (.inr hidentity),
    subkeysOf_concat (.inr hsubkey), hsigned, primaryKey_eq_withParts]

/-- A record in a place that belongs to another key leaves a primary key as it is. -/
theorem primaryKey_concat_of_owner?_ne (hplace : place ∈ primaries records)
    (howner : owner? records ≠ some place.2) :
    primaryKey (records ++ [record]) place = primaryKey records place := by
  have hsigned : signedKey (records ++ [record]) place = signedKey records place :=
    signedKey_concat (.inl fun hbound => howner (owner?_of_bound?_primary hplace hbound))
  have hsubkeys : (subkeysOf place.2 records).map (signedKey (records ++ [record])) =
      (subkeysOf place.2 records).map (signedKey records) := by
    apply List.map_congr_left
    intro sub hsub
    exact signedKey_concat (.inl fun hbound => howner (owner?_of_bound?_subkey hsub hbound))
  rw [primaryKey_eq_withParts, identitiesOf_concat (.inl howner), subkeysOf_concat (.inl howner),
    hsigned, hsubkeys, primaryKey_eq_withParts]

/-- A record that closes the block before it leaves every primary key as it is. -/
theorem primaryKey_concat_of_opensBlock (h : record.opensBlock = true) :
    primaryKey (records ++ [record]) place = primaryKey records place := by
  cases record with
  | publicKey packet =>
    have hsub : packet.subkey = false := by simpa [PacketRecord.opensBlock] using h
    exact primaryKey_concat_of_none rfl (by simp [PacketRecord.subkey?, hsub]) rfl
  | malformed tag reason => exact primaryKey_concat_of_none rfl rfl rfl
  | userId view => cases h
  | signature view => cases h
  | other tag => cases h

/-! ## The state of the pass -/

/-- What the focus of the block of `owner` says about the next signature. -/
inductive HasFocus (records : List PacketRecord) (owner : Nat) : Focus → Prop
  /-- It binds to the primary key. -/
  | primary (hbound : bound? records = some owner) : HasFocus records owner .primary
  /-- It binds to the last subkey. -/
  | newestSubkey (earlier : List (PublicKey × Nat)) (sub : PublicKey × Nat)
      (hsubkeys : subkeysOf owner records = earlier ++ [sub])
      (hbound : bound? records = some sub.2) : HasFocus records owner .newestSubkey
  /-- It binds to no key of the block. -/
  | nothing (hprimary : bound? records ≠ some owner)
      (hsubkeys : ∀ sub ∈ subkeysOf owner records, bound? records ≠ some sub.2) :
      HasFocus records owner .nothing

/-- What the state of the pass is behind records. -/
inductive Tracks (records : List PacketRecord) : Assembly → Prop
  /-- No block is open, since user IDs and subkeys belong to no key. -/
  | outside (howner : ∀ place ∈ primaries records, owner? records ≠ some place.2) :
      Tracks records ⟨keys records, none⟩
  /-- The block of the last primary key is open. -/
  | inside (earlier : List (PublicKey × Nat)) (place : PublicKey × Nat) (focus : Focus)
      (hprimaries : primaries records = earlier ++ [place])
      (howner : owner? records = some place.2) (hfocus : HasFocus records place.2 focus) :
      Tracks records ⟨earlier.map (primaryKey records), some ⟨primaryKey records place, focus⟩⟩

/-- The keys of the pass are those of the stream. -/
theorem Tracks.keys_eq {assembly : Assembly} (h : Tracks records assembly) :
    assembly.keys = keys records := by
  cases h with
  | outside howner => simp [Assembly.keys]
  | inside earlier place focus hprimaries howner hfocus =>
    simp [Assembly.keys, keys, hprimaries]

/-- A record that signatures can bind past, and that is no subkey, leaves the focus as it is. -/
theorem HasFocus.concat {focus : Focus} (h : HasFocus records owner focus)
    (htakes : record.takesFocus = false) :
    HasFocus (records ++ [record]) owner focus := by
  have hbound : bound? (records ++ [record]) = bound? records := by
    rw [bound?_concat, if_neg (by simp [htakes])]
  have hsubkey : record.subkey? = none := by
    by_contra hsub
    obtain ⟨packet, hpacket⟩ := Option.ne_none_iff_exists'.mp hsub
    obtain ⟨rfl, -⟩ := eq_publicKey_of_subkey? hpacket
    cases htakes
  have hsubkeys : subkeysOf owner (records ++ [record]) = subkeysOf owner records :=
    subkeysOf_concat (.inr hsubkey)
  cases h with
  | primary hprimary => exact .primary (hbound.trans hprimary)
  | newestSubkey earlier sub heq hsub =>
    exact .newestSubkey earlier sub (hsubkeys.trans heq) (hbound.trans hsub)
  | nothing hprimary hsub =>
    refine .nothing (hbound ▸ hprimary) ?_
    rw [hbound, hsubkeys]
    exact hsub

/-! ## A step in an open block -/

/-- The newest subkey is the last. -/
theorem signNewest_concat (signature : Signature) (subkeys : List Key) (subkey : Key) :
    Assembly.signNewest signature (subkeys ++ [subkey]) =
      (subkeys ++ [(subkey.applySignature signature).1], (subkey.applySignature signature).2) := by
  induction subkeys with
  | nil => rfl
  | cons first rest ih =>
    have hrest : rest ++ [subkey] ≠ [] := by simp
    rw [List.cons_append, Assembly.signNewest, ih]
    · rfl
    · exact hrest

/-- A signature in an open block is applied to the key that it binds to. -/
theorem extend_signature {focus : Focus} (hfocus : HasFocus records place.2 focus)
    (signature : Signature) :
    Block.extend ⟨primaryKey records place, focus⟩ (.signature signature) =
      ⟨primaryKey (records ++ [.signature signature]) place, focus⟩ := by
  have hidentities : identitiesOf place.2 (records ++ [.signature signature]) =
      identitiesOf place.2 records := identitiesOf_concat (.inr rfl)
  have hsubkeys : subkeysOf place.2 (records ++ [.signature signature]) =
      subkeysOf place.2 records := subkeysOf_concat (.inr rfl)
  rw [primaryKey_eq_withParts, primaryKey_eq_withParts, hidentities, hsubkeys]
  unfold Block.extend Assembly.sign
  cases hfocus with
  | primary hbound =>
    -- The subkeys are behind their primary key, so the signature binds to none of them.
    have hunsigned : ∀ sub ∈ subkeysOf place.2 records,
        signedKey (records ++ [.signature signature]) sub = signedKey records sub := by
      intro sub hsub
      refine signedKey_concat (.inl fun hsubkey => ?_)
      have hlt := lt_of_mem_subkeysOf hsub
      rw [hbound, Option.some.injEq] at hsubkey
      omega
    rw [List.map_congr_left hunsigned, signedKey_concat_signature hbound,
      ← Key.applySignature_withParts]
  | newestSubkey earlier sub heq hbound =>
    -- The primary key and the earlier subkeys are in front of the newest.
    have hmem : sub ∈ subkeysOf place.2 records := by simp [heq]
    have hprimary : signedKey (records ++ [.signature signature]) place =
        signedKey records place := by
      refine signedKey_concat (.inl fun hplace => ?_)
      have hlt := lt_of_mem_subkeysOf hmem
      rw [hbound, Option.some.injEq] at hplace
      omega
    have hearlier : ∀ other ∈ earlier,
        signedKey (records ++ [.signature signature]) other = signedKey records other := by
      intro other hother
      refine signedKey_concat (.inl fun hsubkey => ?_)
      have hlt := lt_of_collect_eq heq hother
      rw [hbound, Option.some.injEq] at hsubkey
      omega
    rw [hprimary, heq, List.map_append, List.map_append, List.map_congr_left hearlier,
      List.map_singleton, List.map_singleton, signedKey_concat_signature hbound]
    dsimp only [Key.withParts]
    rw [signNewest_concat]
  | nothing hprimary hsub =>
    have hunsigned : ∀ sub ∈ subkeysOf place.2 records,
        signedKey (records ++ [.signature signature]) sub = signedKey records sub :=
      fun sub hmem => signedKey_concat (.inl (hsub sub hmem))
    rw [List.map_congr_left hunsigned, signedKey_concat (.inl hprimary)]

/-- A subkey in an open block becomes its newest subkey. -/
theorem extend_subkey (howner : owner? records = some place.2) (focus : Focus)
    {packet : PublicKey} (hsub : packet.subkey = true) :
    Block.extend ⟨primaryKey records place, focus⟩ (.publicKey packet) =
      ⟨primaryKey (records ++ [.publicKey packet]) place, .newestSubkey⟩ ∧
        HasFocus (records ++ [.publicKey packet]) place.2 .newestSubkey := by
  have hsubkeys : subkeysOf place.2 (records ++ [.publicKey packet]) =
      subkeysOf place.2 records ++ [(packet, records.length)] :=
    collect_concat_of_some (decide_eq_true howner) (by simp [PacketRecord.subkey?, hsub])
  have hsigned : signedKey (records ++ [.publicKey packet]) = signedKey records :=
    funext fun _ => signedKey_concat (.inr rfl)
  have hnew : signedKey records (packet, records.length) = Assembly.keyOf packet :=
    signedKey_of_le (Nat.le_refl _)
  constructor
  · rw [primaryKey_eq_withParts, primaryKey_eq_withParts, identitiesOf_concat (.inr rfl), hsubkeys,
      hsigned, List.map_append, List.map_singleton, hnew]
    rfl
  · exact .newestSubkey _ _ hsubkeys (bound?_concat records _)

/-- A user ID in an open block adds its identity. -/
theorem extend_userId (howner : owner? records = some place.2) (focus : Focus) (view : UserId) :
    Block.extend ⟨primaryKey records place, focus⟩ (.userId view) =
      ⟨primaryKey (records ++ [.userId view]) place, focus⟩ := by
  have hidentities : identitiesOf place.2 (records ++ [.userId view]) =
      identitiesOf place.2 records ++ [(view.identity, records.length)] :=
    collect_concat_of_some (decide_eq_true howner) rfl
  have hsigned : signedKey (records ++ [.userId view]) = signedKey records :=
    funext fun _ => signedKey_concat (.inr rfl)
  rw [primaryKey_eq_withParts, primaryKey_eq_withParts, subkeysOf_concat (.inr rfl), hidentities,
    hsigned, List.map_append]
  rfl

/-- The open block stays that of the last primary key when a record changes it. -/
theorem extend_primaryKey {focus : Focus} (howner : owner? records = some place.2)
    (hfocus : HasFocus records place.2 focus) (hopens : record.opensBlock = false) :
    ∃ focus', Block.extend ⟨primaryKey records place, focus⟩ record =
        ⟨primaryKey (records ++ [record]) place, focus'⟩ ∧
      HasFocus (records ++ [record]) place.2 focus' := by
  cases record with
  | publicKey packet =>
    have hsub : packet.subkey = true := by simpa [PacketRecord.opensBlock] using hopens
    exact ⟨.newestSubkey, extend_subkey howner focus hsub⟩
  | userId view => exact ⟨focus, extend_userId howner focus view, hfocus.concat rfl⟩
  | signature signature => exact ⟨focus, extend_signature hfocus signature, hfocus.concat rfl⟩
  | malformed tag reason =>
    rw [primaryKey_concat_of_none rfl rfl rfl]
    by_cases htag : Assembly.isKeyTag tag = true
    · -- The lost key is behind all others, so the signatures that bind to it bind to no key.
      have hbound : bound? (records ++ [.malformed tag reason]) = some records.length := by
        rw [bound?_concat]
        exact if_pos htag
      refine ⟨.nothing, if_pos htag, .nothing ?_ ?_⟩
      · have hlt := latest?_lt howner
        rw [hbound, ne_eq, Option.some.injEq]
        omega
      · intro sub hmem
        rw [subkeysOf_concat (.inr rfl)] at hmem
        have hlt := lt_of_mem_collect hmem
        rw [hbound, ne_eq, Option.some.injEq]
        omega
    · exact ⟨focus, if_neg htag, hfocus.concat (Bool.eq_false_iff.mpr htag)⟩
  | other tag =>
    rw [primaryKey_concat_of_none rfl rfl rfl]
    exact ⟨focus, rfl, hfocus.concat rfl⟩

/-! ## All steps -/

/-- No primary key in front of the last one is the owner that the last one is. -/
theorem owner?_ne_of_mem_earlier {earlier : List (PublicKey × Nat)} {other : PublicKey × Nat}
    (hprimaries : primaries records = earlier ++ [place]) (howner : owner? records = some place.2)
    (hother : other ∈ earlier) : owner? records ≠ some other.2 := by
  have hlt := lt_of_collect_eq hprimaries hother
  rw [howner, ne_eq, Option.some.injEq]
  omega

/-- A record that closes the block before it opens its own if it is a primary key. -/
theorem Tracks.advance_of_opensBlock {assembly : Assembly} (h : Tracks records assembly)
    (hopens : record.opensBlock = true) :
    Tracks (records ++ [record]) (assembly.advance record) := by
  have howner : owner? (records ++ [record]) = some records.length := by
    rw [owner?_concat, if_pos hopens]
  have hbound : bound? (records ++ [record]) = some records.length := by
    rw [bound?_concat, if_pos (takesFocus_of_opensBlock hopens)]
  have hkeys : keys records = (primaries records).map (primaryKey (records ++ [record])) :=
    List.map_congr_left fun _ _ => (primaryKey_concat_of_opensBlock hopens).symm
  rw [Assembly.advance_of_opensBlock hopens, h.keys_eq, hkeys]
  cases record with
  | publicKey packet =>
    have hsub : packet.subkey = false := by simpa [PacketRecord.opensBlock] using hopens
    have hprimaries : primaries (records ++ [.publicKey packet]) =
        primaries records ++ [(packet, records.length)] :=
      collect_concat_of_some rfl (by simp [PacketRecord.primary?, hsub])
    have hnew : primaryKey (records ++ [.publicKey packet]) (packet, records.length) =
        Assembly.keyOf packet := by
      rw [primaryKey_concat_of_opensBlock hopens, primaryKey_of_le (Nat.le_refl _)]
    have hopened : (PacketRecord.publicKey packet).openedBlock =
        some ⟨primaryKey (records ++ [.publicKey packet]) (packet, records.length), .primary⟩ := by
      rw [hnew]
      rfl
    rw [hopened]
    exact .inside _ _ .primary hprimaries howner (.primary hbound)
  | malformed tag reason =>
    -- The lost key is behind every primary key, so what follows it belongs to none.
    have hprimaries : primaries (records ++ [.malformed tag reason]) = primaries records :=
      collect_concat_of_none (.inr rfl)
    rw [← hprimaries]
    refine .outside fun place hplace => ?_
    rw [hprimaries] at hplace
    have hlt := lt_of_mem_collect hplace
    rw [howner, ne_eq, Option.some.injEq]
    omega
  | userId view => cases hopens
  | signature view => cases hopens
  | other tag => cases hopens

/-- A record that closes no block changes the last primary key if its block is open. -/
theorem Tracks.advance_of_not_opensBlock {assembly : Assembly} (h : Tracks records assembly)
    (hopens : record.opensBlock = false) :
    Tracks (records ++ [record]) (assembly.advance record) := by
  have howner : owner? (records ++ [record]) = owner? records := by
    rw [owner?_concat, if_neg (by simp [hopens])]
  have hprimary : record.primary? = none := by
    by_contra hprimary
    obtain ⟨packet, hpacket⟩ := Option.ne_none_iff_exists'.mp hprimary
    rw [opensBlock_of_primary? hpacket] at hopens
    cases hopens
  have hprimaries : primaries (records ++ [record]) = primaries records :=
    collect_concat_of_none (.inr hprimary)
  rw [Assembly.advance_of_not_opensBlock hopens]
  cases h with
  | outside hnone =>
    have hkeys : keys records = keys (records ++ [record]) := by
      unfold keys
      rw [hprimaries]
      exact List.map_congr_left fun place hplace =>
        (primaryKey_concat_of_owner?_ne hplace (hnone place hplace)).symm
    rw [hkeys]
    refine .outside ?_
    rw [howner, hprimaries]
    exact hnone
  | inside earlier place focus hlast hplace hfocus =>
    -- The step changes the last primary key, and what it takes belongs to no earlier one.
    obtain ⟨focus', hextend, hfocus'⟩ := extend_primaryKey hplace hfocus hopens
    have hearlier : earlier.map (primaryKey records) =
        earlier.map (primaryKey (records ++ [record])) := by
      apply List.map_congr_left
      intro other hother
      have hmem : other ∈ primaries records := by simp [hlast, hother]
      exact (primaryKey_concat_of_owner?_ne hmem
        (owner?_ne_of_mem_earlier hlast hplace hother)).symm
    rw [hearlier, Option.map_some, hextend]
    exact .inside earlier place focus' (hprimaries.trans hlast) (howner.trans hplace) hfocus'

/-- One record more is tracked. -/
theorem Tracks.advance {assembly : Assembly} (h : Tracks records assembly)
    (record : PacketRecord) : Tracks (records ++ [record]) (assembly.advance record) := by
  cases hopens : record.opensBlock with
  | true => exact h.advance_of_opensBlock hopens
  | false => exact h.advance_of_not_opensBlock hopens

/-- The pass tracks every stream. -/
theorem tracks_after (records : List PacketRecord) :
    Tracks records (({} : Assembly).after records) := by
  induction records using List.reverseRecOn with
  | nil => exact .outside fun _ hplace => nomatch hplace
  | append_singleton records record ih =>
    rw [Assembly.after_concat]
    exact ih.advance record

/-! ## The assembled keys -/

/-- A key says of its packet what the packet says itself. -/
structure Describes (packet : PublicKey) (key : Key) : Prop where
  /-- The fingerprint is that of the packet. -/
  fingerprint : key.fingerprint = packet.fingerprint
  /-- The label is that of the algorithm of the packet. -/
  algorithmLabel : key.algorithmLabel = Algorithm.label packet.algorithm
  /-- The algorithm is that of the packet. -/
  algorithm : key.algorithm = packet.algorithm
  /-- The size is that of the packet. -/
  size : key.size = (packet.size : Binary64)
  /-- The creation time is that of the packet. -/
  created : key.created = packet.created

/-- Signatures change the capabilities and the expiry of a packet's key only. -/
theorem exists_signedKey_eq_withTerms (records : List PacketRecord) (place : PublicKey × Nat) :
    ∃ capabilities expires,
      signedKey records place = (Assembly.keyOf place.1).withTerms capabilities expires := by
  unfold signedKey
  induction signaturesOn place.2 records using List.reverseRecOn with
  | nil => exact ⟨_, _, (Key.withTerms_self _).symm⟩
  | append_singleton signatures signature ih =>
    obtain ⟨capabilities, expires, hsigned⟩ := ih
    rw [List.foldl_append, hsigned]
    exact ⟨_, _, Key.applySignature_eq_withTerms _ signature.1⟩

/-- The key of a packet describes it whatever signatures bind to it. -/
theorem describes_signedKey (records : List PacketRecord) (place : PublicKey × Nat) :
    Describes place.1 (signedKey records place) := by
  obtain ⟨capabilities, expires, hsigned⟩ := exists_signedKey_eq_withTerms records place
  rw [hsigned]
  exact ⟨rfl, rfl, rfl, rfl, rfl⟩

/-- A primary key describes its packet whatever belongs to it. -/
theorem describes_primaryKey (records : List PacketRecord) (place : PublicKey × Nat) :
    Describes place.1 (primaryKey records place) := by
  obtain ⟨capabilities, expires, hsigned⟩ := exists_signedKey_eq_withTerms records place
  rw [primaryKey_eq_withParts, hsigned]
  exact ⟨rfl, rfl, rfl, rfl, rfl⟩

/-- A subkey of the stream is marked as one and has neither identities nor subkeys. -/
theorem signedKey_of_mem_subkeysOf (h : place ∈ subkeysOf owner records) :
    (signedKey records place).isSubkey = true ∧ (signedKey records place).identities = [] ∧
      (signedKey records place).subkeys = [] := by
  obtain ⟨record, -, hsubkey, -⟩ := exists_of_mem_collect h
  obtain ⟨capabilities, expires, hsigned⟩ := exists_signedKey_eq_withTerms records place
  rw [hsigned]
  exact ⟨(eq_publicKey_of_subkey? hsubkey).2, rfl, rfl⟩

/-- A primary key of the stream is not marked as a subkey. -/
theorem isSubkey_primaryKey (h : place ∈ primaries records) :
    (primaryKey records place).isSubkey = false := by
  obtain ⟨record, -, hprimary, -⟩ := exists_of_mem_collect h
  obtain ⟨capabilities, expires, hsigned⟩ := exists_signedKey_eq_withTerms records place
  rw [primaryKey_eq_withParts, hsigned]
  exact (eq_publicKey_of_primary? hprimary).2

/-- The assembled keys are those that the stream says: one for each primary key, in order, with the
identities and subkeys that belong to it, in order, under the signatures that bind to it or to
them, in order. -/
theorem assembleKeys_eq_keys (records : List PacketRecord) :
    (assembleKeys records).1 = keys records ∧
      List.Forall₂ (fun place key => Describes place.1 key ∧ key.isSubkey = false ∧
        List.Forall₂ (fun sub subkey => Describes sub.1 subkey ∧ subkey.isSubkey = true ∧
          subkey.identities = [] ∧ subkey.subkeys = []) (subkeysOf place.2 records) key.subkeys)
        (primaries records) (assembleKeys records).1 := by
  have hkeys : (assembleKeys records).1 = keys records := by
    rw [Assembly.assembleKeys_fst, (tracks_after records).keys_eq]
  refine ⟨hkeys, ?_⟩
  rw [hkeys]
  apply List.forall₂_map_right_iff.mpr
  apply List.forall₂_same.mpr
  intro place hplace
  refine ⟨describes_primaryKey records place, isSubkey_primaryKey hplace, ?_⟩
  apply List.forall₂_map_right_iff.mpr
  apply List.forall₂_same.mpr
  intro sub hsub
  exact ⟨describes_signedKey records sub, signedKey_of_mem_subkeysOf hsub⟩

end Ownership

end PgpInspect
