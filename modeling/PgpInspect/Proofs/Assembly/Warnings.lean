import PgpInspect.Proofs.Key.Taken

/-!
# What the pass over records leaves out and warns about

A signature fails at its first subpacket that is too short. It costs what it says from there on, and
nothing else: the keys are those of the stream in which it is cut there. The log says what was left
out, record by record and in order (`Ownership.warnings`). Like the keys, the warnings are said
without a pass: whether there is a primary key, and whether a key is current, is read off the records
in front (`HasPrimary`, `HasCurrent`), and `Tracks` says that the state of the pass agrees with it.
-/

namespace PgpInspect

/-! ## Signatures that fail -/

/-- What is wrong with a signature: what is wrong with the first subpacket that stops it. -/
def Signature.stopCause? (signature : Signature) : Option FieldCause :=
  (signature.subpackets.find? fun subpacket => subpacket.Stops).map Subpacket.stopCause

namespace Key

/-- Subpackets fail at the first that stops their signature. -/
theorem applySubpackets_snd (key : Key) (subpackets : List Subpacket) :
    (key.applySubpackets subpackets).2 =
      (subpackets.find? fun subpacket => subpacket.Stops).map Subpacket.stopCause := by
  -- On the subpackets: those in front of the one that stops change the key and nothing else.
  induction subpackets generalizing key with
  | nil => rfl
  | cons subpacket rest ih =>
    rw [applySubpackets]
    rcases key.applySubpacket_cases subpacket with ⟨hstops, hrefused⟩ | ⟨hstops, htaken⟩
    · rw [hrefused, List.find?_cons_of_pos (by simpa using hstops)]
      rfl
    · rw [htaken, List.find?_cons_of_neg (by simpa using hstops)]
      exact ih (key.take subpacket)

/-- A signature fails for what is wrong with it, whatever key it is applied to. -/
theorem applySignature_snd (key : Key) (signature : Signature) :
    (key.applySignature signature).2 = signature.stopCause?.map (⟨signature.tag, ·⟩) := by
  rw [Signature.stopCause?, ← key.applySubpackets_snd]
  rfl

/-- A signature does to a key what it does when it is cut in front of the subpacket that stops it. -/
theorem applySignature_cut (key : Key) (signature : Signature) :
    (key.applySignature { signature with subpackets := signature.taken }).1 =
      (key.applySignature signature).1 := by
  have hcut : Signature.taken { signature with subpackets := signature.taken } = signature.taken :=
    List.takeWhile_idem
  rw [applySignature_fst, applySignature_fst, hcut]

end Key

namespace Assembly

/-- The newest subkey is signed as with the signature that is cut. -/
theorem signNewest_cut (signature : Signature) (subkeys : List Key) :
    (signNewest { signature with subpackets := signature.taken } subkeys).1 =
      (signNewest signature subkeys).1 := by
  obtain rfl | ⟨earlier, subkey, rfl⟩ := List.eq_nil_or_concat' subkeys
  · rfl
  · rw [Ownership.signNewest_concat, Ownership.signNewest_concat, Key.applySignature_cut]

/-- The key in focus is signed as with the signature that is cut. -/
theorem sign_cut (block : Block) (signature : Signature) :
    (sign block { signature with subpackets := signature.taken }).1 = (sign block signature).1 := by
  obtain ⟨key, focus⟩ := block
  unfold sign
  cases focus with
  | nothing => rfl
  | primary =>
    dsimp only
    rw [Key.applySignature_cut]
  | newestSubkey =>
    dsimp only
    rw [signNewest_cut]

/-- A signature in an open block is logged if it fails. -/
theorem step_signature_snd (closed : List Key) (block : Block) (index : Nat)
    (signature : Signature) :
    (step ⟨closed, some block⟩ index (.signature signature)).2 =
      ((sign block signature).2.map (skippedEntry index)).toList := rfl

/-- A signature that is cut in front of the subpacket that stops it leaves the same state. -/
theorem advance_cut (assembly : Assembly) (signature : Signature) :
    assembly.advance (.signature { signature with subpackets := signature.taken }) =
      assembly.advance (.signature signature) := by
  have hextend : (Block.extend · (.signature { signature with subpackets := signature.taken })) =
      (Block.extend · (.signature signature)) := funext fun block => sign_cut block signature
  rw [advance_of_not_opensBlock rfl, advance_of_not_opensBlock rfl, hextend]

end Assembly

namespace Ownership

/-! ## The warnings of a stream -/

/-- Whether the user IDs and subkeys behind `before` belong to a primary key. -/
def HasPrimary (before : List PacketRecord) : Prop :=
  ∃ place ∈ primaries before, owner? before = some place.2

instance : DecidablePred HasPrimary := fun before =>
  inferInstanceAs (Decidable (∃ place ∈ primaries before, owner? before = some place.2))

/-- Whether the signatures behind `before` bind to a primary key or to one of its subkeys. -/
def HasCurrent (before : List PacketRecord) : Prop :=
  ∃ place ∈ primaries before, bound? before = some place.2 ∨
    ∃ sub ∈ subkeysOf place.2 before, bound? before = some sub.2

instance : DecidablePred HasCurrent := fun before =>
  inferInstanceAs (Decidable (∃ place ∈ primaries before, bound? before = some place.2 ∨
    ∃ sub ∈ subkeysOf place.2 before, bound? before = some sub.2))

/-- The warning about a record behind `before`. -/
def warning? (before : List PacketRecord) : (record : PacketRecord) → Option LogEntry
  | .malformed tag reason =>
    some ⟨.warn, "Malformed packet skipped", [("tag", .number tag), ("reason", .string reason)]⟩
  | .publicKey key =>
    if key.subkey ∧ ¬ HasPrimary before then
      some ⟨.warn, "Subkey packet before any primary key, skipped",
        [("fingerprint", .string key.fingerprint)]⟩
    else none
  | .signature signature =>
    if HasCurrent before then
      signature.stopCause?.map fun cause => ⟨.warn, "Packet skipped",
        [("index", .nat before.length), ("tag", .number signature.tag),
          ("error", .string cause.message)]⟩
    else none
  | .userId _ => none
  | .other _ => none

/-- A signature gives a warning if it fails while a key is current. -/
theorem warning?_signature (before : List PacketRecord) (signature : Signature) :
    warning? before (.signature signature) =
      if HasCurrent before then
        signature.stopCause?.map fun cause =>
          Assembly.skippedEntry before.length ⟨signature.tag, cause⟩
      else none := rfl

/-- The warnings about the records of a stream, in its order. -/
def warnings (records : List PacketRecord) : List LogEntry :=
  records.zipIdx.filterMap fun (record, position) => warning? (records.take position) record

/-- The warning about one record more comes after the others. -/
theorem warnings_concat (records : List PacketRecord) (record : PacketRecord) :
    warnings (records ++ [record]) = warnings records ++ (warning? records record).toList :=
  filterMap_zipIdx_concat (fun before other _ => warning? before other) records record

/-! ## The state of the pass -/

variable {records : List PacketRecord} {place : PublicKey × Nat} {focus : Focus}

/-- A block has something in focus exactly if a key is current. -/
theorem HasFocus.hasCurrent_iff (hfocus : HasFocus records place.2 focus)
    (hplace : place ∈ primaries records) (howner : owner? records = some place.2) :
    HasCurrent records ↔ focus ≠ .nothing := by
  cases hfocus with
  | primary hbound => exact iff_of_true ⟨place, hplace, .inl hbound⟩ nofun
  | newestSubkey earlier sub hsubkeys hbound =>
    have hsub : sub ∈ subkeysOf place.2 records := by simp [hsubkeys]
    exact iff_of_true ⟨place, hplace, .inr ⟨sub, hsub, hbound⟩⟩ nofun
  | nothing hprimary hsubkeys =>
    refine iff_of_false ?_ (not_not_intro rfl)
    -- Whatever key were current would be that of the open block or one of its subkeys.
    rintro ⟨other, hother, hbound | ⟨sub, hsub, hbound⟩⟩
    · have hsame := owner?_of_bound?_primary hother hbound
      rw [howner, Option.some.injEq] at hsame
      exact hprimary (hsame ▸ hbound)
    · have hsame := owner?_of_bound?_subkey hsub hbound
      rw [howner, Option.some.injEq] at hsame
      exact hsubkeys sub (hsame ▸ hsub) hbound

/-- A signature in an open block fails for what is wrong with it if a key is current. -/
theorem sign_snd (hfocus : HasFocus records place.2 focus) (signature : Signature) :
    (Assembly.sign ⟨primaryKey records place, focus⟩ signature).2 =
      if focus = .nothing then none
      else signature.stopCause?.map (⟨signature.tag, ·⟩) := by
  cases hfocus with
  | primary hbound => exact Key.applySignature_snd _ signature
  | newestSubkey earlier sub hsubkeys hbound =>
    -- There is a subkey to sign, so that the fault is not lost with an empty list.
    have hnewest : (primaryKey records place).subkeys =
        earlier.map (signedKey records) ++ [signedKey records sub] := by
      rw [primaryKey_eq_withParts, hsubkeys, List.map_append]
      rfl
    unfold Assembly.sign
    dsimp only
    rw [hnewest, signNewest_concat]
    exact Key.applySignature_snd _ signature
  | nothing hprimary hsubkeys => rfl

/-- The pass has an open block exactly if there is a primary key. -/
theorem Tracks.hasPrimary_iff {assembly : Assembly} (h : Tracks records assembly) :
    HasPrimary records ↔ assembly.block.isSome := by
  cases h with
  | outside hnone =>
    refine iff_of_false ?_ nofun
    rintro ⟨place, hplace, howner⟩
    exact hnone place hplace howner
  | inside earlier place focus hprimaries howner hfocus =>
    exact iff_of_true ⟨place, by simp [hprimaries], howner⟩ rfl

/-- No key is current without a primary key. -/
theorem HasCurrent.hasPrimary (h : HasCurrent records) : HasPrimary records := by
  obtain ⟨place, hplace, hbound | ⟨sub, hsub, hbound⟩⟩ := h
  · exact ⟨place, hplace, owner?_of_bound?_primary hplace hbound⟩
  · exact ⟨place, hplace, owner?_of_bound?_subkey hsub hbound⟩

/-- The step of a key warns about it if it is a subkey and there is no primary key. -/
theorem Tracks.step_publicKey_snd {assembly : Assembly} (h : Tracks records assembly)
    (key : PublicKey) :
    (assembly.step records.length (.publicKey key)).2 =
      (warning? records (.publicKey key)).toList := by
  have hprimary := h.hasPrimary_iff
  obtain ⟨closed, block⟩ := assembly
  unfold Assembly.step warning?
  cases hsub : key.subkey with
  | false => simp [hsub]
  | true =>
    cases block with
    | none => simp [hsub, hprimary, Assembly.orphanEntry]
    | some block => simp [hsub, hprimary]

/-- The step of a signature warns about it if it fails while a key is current. -/
theorem Tracks.step_signature_snd {assembly : Assembly} (h : Tracks records assembly)
    (signature : Signature) :
    (assembly.step records.length (.signature signature)).2 =
      (warning? records (.signature signature)).toList := by
  have hprimary := h.hasPrimary_iff
  rw [warning?_signature]
  cases h with
  | outside hnone =>
    -- Without an open block no key is current, and the signature stays silent.
    have hcurrent : ¬ HasCurrent records := fun hcurrent => nomatch hprimary.mp hcurrent.hasPrimary
    rw [if_neg hcurrent]
    rfl
  | inside earlier place focus hprimaries howner hfocus =>
    have hplace : place ∈ primaries records := by simp [hprimaries]
    have hcurrent := hfocus.hasCurrent_iff hplace howner
    rw [Assembly.step_signature_snd, sign_snd hfocus]
    by_cases hnothing : focus = .nothing
    · rw [if_pos hnothing, if_neg fun hyes => hcurrent.mp hyes hnothing]
      rfl
    · rw [if_neg hnothing, if_pos (hcurrent.mpr hnothing), Option.map_map]
      rfl

/-- A step warns about its record as the stream says. -/
theorem Tracks.step_snd {assembly : Assembly} (h : Tracks records assembly)
    (record : PacketRecord) :
    (assembly.step records.length record).2 = (warning? records record).toList := by
  cases record with
  | publicKey key => exact h.step_publicKey_snd key
  | userId view =>
    unfold Assembly.step
    cases assembly.block <;> rfl
  | signature signature => exact h.step_signature_snd signature
  | malformed tag reason =>
    unfold Assembly.step
    dsimp only
    split_ifs <;> rfl
  | other tag => rfl

end Ownership

/-! ## The whole pass -/

namespace Assembly

/-- The last record is taken with its number, and what it logs comes after the rest. -/
theorem run_concat_snd (assembly : Assembly) (index : Nat) (records : List PacketRecord)
    (record : PacketRecord) :
    (assembly.run index (records ++ [record])).2 = (assembly.run index records).2 ++
      ((assembly.after records).step (index + records.length) record).2 := by
  -- From the front, as the pass goes: each record moves the state and the number on.
  induction records generalizing assembly index with
  | nil => simp [run]
  | cons first rest ih =>
    have hnumber : index + (first :: rest).length = index + 1 + rest.length := by
      rw [List.length_cons]
      omega
    rw [List.cons_append, run, run, after_cons, hnumber, ← step_fst assembly index first]
    dsimp only
    rw [ih, List.append_assoc]

end Assembly

namespace Ownership

/-- The pass logs the warnings of the stream and nothing else. -/
theorem run_snd (records : List PacketRecord) :
    (({} : Assembly).run 0 records).2 = warnings records := by
  -- From the end, since the warning about a record is said by the records in front of it.
  induction records using List.reverseRecOn with
  | nil => rfl
  | append_singleton records record ih =>
    rw [Assembly.run_concat_snd, Nat.zero_add, ih, (tracks_after records).step_snd record,
      warnings_concat]

/-- A signature that fails costs what it says from there on, and nothing else: the assembled keys
are those of the stream in which it is cut in front of the first subpacket that stops it. What is
logged is one warning for each malformed record, for each subkey without a primary key, and for each
signature that fails while a key is current, in the order of the records. -/
theorem assembleKeys_cut_and_warnings :
    (∀ before signature after,
      (assembleKeys (before ++ .signature signature :: after)).1 =
        (assembleKeys (before ++
          .signature { signature with subpackets := signature.taken } :: after)).1) ∧
      ∀ records, (assembleKeys records).2 = warnings records := by
  constructor
  · intro before signature after
    rw [Assembly.assembleKeys_fst, Assembly.assembleKeys_fst, Assembly.after_append,
      Assembly.after_append, Assembly.after_cons, Assembly.after_cons, Assembly.advance_cut]
  · intro records
    rw [← run_snd]
    rfl

/-- A signature in front of every key stays silent, whether it would fail or not. -/
example (signature : Signature) : warnings [.signature signature] = [] := rfl

end Ownership

end PgpInspect
