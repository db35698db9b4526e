import PgpInspect.Proofs.Packet.PublicKey

/-!
# Octets behind the stated public part

A key packet of version 5 or 6 states the number of octets of its public fields, and its heading and
that many octets are its public part. The fingerprint covers exactly this part. The readers of the
fields stop at the end of the body instead, so that fields which are longer than stated are
completed with the octets behind the public part.

`PublicKey.overrun` is what such fields show, and it is all that the octets behind the public part
decide: two bodies with the same public part differ in the modulus and the curve only, and they do
exactly if their overruns differ (`PublicKey.ofPacket_eq_iff_overrun_eq`). The readers are settled
by the octets that they consume, so fields that end inside of the public part are the same in both
bodies.
-/

namespace PgpInspect.PublicKey

open Reading (Reads Settled)

/-! ## Headings with a stated length -/

/-- A body of version 5 or 6 states the length of its public fields and has as many octets. -/
structure StatesLength (body : Octets) (length : Nat) : Prop where
  /-- The first octet is the version. -/
  version_eq : body.head? = some 5 ∨ body.head? = some 6
  /-- The length is in the last four of the ten octets in front of the fields. -/
  length_eq : Octets.toNat ((body.drop 6).take 4) = length
  /-- The body does not end earlier. -/
  length_le : 10 + length ≤ body.length

/-- The number of the algorithm of a body of version 5 or 6. -/
def algorithmOf (body : Octets) : Nat := Octets.toNat ((body.drop 5).take 1)

/-- What the first ten octets of a body of version 5 or 6 are read as. -/
def measuredHeader (body : Octets) : Header :=
  { version := Octets.toNat (body.take 1)
    created := Octets.toNat ((body.drop 1).take 4)
    daysValid := 0
    algorithm := algorithmOf body
    materialLength := some (Octets.toNat ((body.drop 6).take 4)) }

variable {body body' : Octets} {length : Nat}

/-- The version in the first octet. -/
theorem StatesLength.toNat_take (h : StatesLength body length) :
    Octets.toNat (body.take 1) = 5 ∨ Octets.toNat (body.take 1) = 6 := by
  have hversion := h.version_eq
  cases body with
  | nil => simp at hversion
  | cons version rest =>
    simp only [List.head?_cons, Option.some.injEq] at hversion
    rcases hversion with rfl | rfl
    · exact .inl rfl
    · exact .inr rfl

/-- The first ten octets are the header. -/
theorem StatesLength.reads_header (h : StatesLength body length) :
    Reads readHeader (body.take 10) (measuredHeader body) := by
  have hlength := h.length_le
  have hten : body.take 10 = body.take 1 ++ ((body.drop 1).take 4 ++
      ((body.drop 5).take 1 ++ (body.drop 6).take 4)) := by
    rw [show 10 = 1 + (4 + (1 + 4)) from rfl, List.take_add, List.take_add, List.take_add,
      List.drop_drop, List.drop_drop]
  have hversion := h.toNat_take
  have hdated : ¬ (Octets.toNat (body.take 1) = 2 ∨ Octets.toNat (body.take 1) = 3) := by omega
  rw [readHeader_eq, hten]
  refine (Reads.number_toNat (by rw [List.length_take]; omega) "version").bind ?_
  refine (Reads.number_toNat (by rw [List.length_take, List.length_drop]; omega)
    "creation time").bind ?_
  rw [if_neg hdated]
  unfold readHeaderEnd
  refine (Reads.number_toNat (by rw [List.length_take, List.length_drop]; omega)
    "algorithm").bind ?_
  rw [if_pos hversion]
  exact (Reads.number_toNat (by rw [List.length_take, List.length_drop]; omega)
    "key material length").map _

/-! ## Fields and their extent -/

/-- The public fields of a body of version 5 or 6 and the number of octets that they take, if they
can be read. -/
def fields? (body : Octets) : Option (Material × Nat) :=
  match (readMaterial (algorithmOf body)).runAt (.start 0 (body.drop 10)) with
  | (.ok material, after) => some (material, after.position)
  | (.error _, _) => none

/-- The public fields that are read of a body, none if they cannot be read. -/
def readFields (body : Octets) : Material := ((fields? body).map (·.1)).getD {}

/-- The modulus and the curve of public fields that reach beyond the stated length, nothing for
fields that do not or that cannot be read. -/
def overrun (length : Nat) (body : Octets) : Option Octets × Option String :=
  match fields? body with
  | some (material, extent) =>
    if extent ≤ length then (none, none) else (material.modulus, material.curve)
  | none => (none, none)

/-- Fields are read if they are written behind the heading, and they take their octets. -/
theorem fields?_eq_some_iff {material : Material} {extent : Nat} :
    fields? body = some (material, extent) ↔
      ∃ octets behind, body.drop 10 = octets ++ behind ∧ octets.length = extent ∧
        Reads (readMaterial (algorithmOf body)) octets material := by
  constructor
  · intro h
    unfold fields? at h
    split at h
    · next value after hrun =>
      obtain ⟨rfl, rfl⟩ : value = material ∧ after.position = extent := by simpa using h
      -- A reader that is settled would read the same with other octets behind.
      obtain ⟨-, octets, behind, hbody, hreads⟩ := settled_readMaterial _ _ _ _ _ _ hrun
      rw [Cursor.start, hbody] at hrun
      rw [hreads.after_eq hrun]
      exact ⟨octets, behind, hbody, (Nat.zero_add _).symm, hreads⟩
    · cases h
  · rintro ⟨octets, behind, hbody, rfl, hreads⟩
    unfold fields?
    rw [hbody, Cursor.start, hreads 0 0 behind, Nat.zero_add]

/-- Octets inside of a common beginning are the same. -/
theorem take_drop_eq {start count reach : Nat} (h : start + count ≤ reach)
    (hagree : body.take reach = body'.take reach) :
    (body.drop start).take count = (body'.drop start).take count := by
  have hinside (octets : Octets) :
      (octets.drop start).take count = ((octets.take reach).drop start).take count := by
    rw [List.drop_take, List.take_take, Nat.min_eq_left (by omega)]
  rw [hinside body, hinside body', hagree]

/-- Bodies with the same public part have the same header. -/
theorem measuredHeader_eq (h : body.take (10 + length) = body'.take (10 + length)) :
    measuredHeader body = measuredHeader body' := by
  have hversion : body.take 1 = body'.take 1 := by
    have hfirst := take_drop_eq (by omega : 0 + 1 ≤ 10 + length) h
    exact hfirst
  have hcreated : (body.drop 1).take 4 = (body'.drop 1).take 4 := take_drop_eq (by omega) h
  have halgorithm : (body.drop 5).take 1 = (body'.drop 5).take 1 := take_drop_eq (by omega) h
  have hlength : (body.drop 6).take 4 = (body'.drop 6).take 4 := take_drop_eq (by omega) h
  unfold measuredHeader algorithmOf
  rw [hversion, hcreated, halgorithm, hlength]

/-- Fields inside of the public part are those of every body with this part. -/
theorem fields?_eq_of_take_eq (h : body.take (10 + length) = body'.take (10 + length))
    {material : Material} {extent : Nat} (hfields : fields? body = some (material, extent))
    (hle : extent ≤ length) : fields? body' = some (material, extent) := by
  obtain ⟨octets, behind, hbody, hextent, hreads⟩ := fields?_eq_some_iff.mp hfields
  have halgorithm : algorithmOf body = algorithmOf body' :=
    congrArg Header.algorithm (measuredHeader_eq h)
  -- The octets of the fields end in front of the place up to which the bodies are the same.
  have hbegins : octets = (body'.drop 10).take extent := by
    rw [← take_drop_eq (by omega : 10 + extent ≤ 10 + length) h, hbody, ← hextent, List.take_left]
  refine fields?_eq_some_iff.mpr ⟨octets, (body'.drop 10).drop extent, ?_, hextent, ?_⟩
  · rw [hbegins, List.take_append_drop]
  · rw [← halgorithm]
    exact hreads

/-! ## Views -/

/-- The digest of a public part of version 5 or 6 looks at nothing else. -/
theorem exists_digest {version : Nat} (h : version = 5 ∨ version = 6) (publicPart : Octets) :
    ∃ digested, ∀ tag material,
      digest tag (version : Binary64) publicPart material = .ok digested := by
  rcases h with rfl | rfl
  · exact ⟨_, fun _ _ => rfl⟩
  · exact ⟨_, fun _ _ => rfl⟩

/-- The public part of a body that states its length has this length, and the fields are those that
can be read of the body. -/
theorem StatesLength.publicPart_eq (h : StatesLength body length) (tag : Binary64) :
    publicPart (measuredHeader body) ⟨tag, 10, body.drop 10, 0⟩ body =
      (readFields body, 10 + length) := by
  have hlength : (measuredHeader body).materialLength = some length := congrArg some h.length_eq
  have hend : min body.length (10 + length) = 10 + length := Nat.min_eq_right h.length_le
  have halgorithm : (measuredHeader body).algorithm = algorithmOf body := rfl
  unfold publicPart readFields
  rw [hlength, halgorithm]
  cases hfields : fields? body with
  | some fields =>
    obtain ⟨octets, behind, hbody, -, hreads⟩ := fields?_eq_some_iff.mp hfields
    rw [hbody, hreads tag 10 behind]
    dsimp only
    rw [hend]
    rfl
  | none =>
    cases hrun : (readMaterial (algorithmOf body)).runAt ⟨tag, 10, body.drop 10, 0⟩ with
    | mk outcome after =>
      cases outcome with
      | ok material =>
        -- What can be read here can be read at the start of a body, so it has an extent.
        obtain ⟨-, octets, behind, hbody, hreads⟩ := settled_readMaterial _ _ _ _ _ _ hrun
        have hsome := fields?_eq_some_iff.mpr ⟨octets, behind, hbody, rfl, hreads⟩
        rw [hfields] at hsome
        cases hsome
      | error fault =>
        dsimp only
        rw [hend]
        rfl

/-- The view of a body that states its length: the fingerprint covers the public part, and modulus
and curve are those of the fields wherever these end. -/
theorem StatesLength.ofPacket_eq (h : StatesLength body length) (tag : Binary64)
    {digested : Octets} (hdigest : ∀ tag material, digest tag ((measuredHeader body).version : Binary64)
      (body.take (10 + length)) material = .ok digested) :
    PublicKey.ofPacket ⟨tag, body⟩ =
      .ok (ofParts tag ⟨measuredHeader body, readFields body, digested⟩) := by
  have hlength := h.length_le
  have hheader : readHeader.runAt (.start tag body) =
      (.ok (measuredHeader body), ⟨tag, 10, body.drop 10, 0⟩) := by
    have hreads := h.reads_header tag 0 (body.drop 10)
    rw [List.take_append_drop, List.length_take, Nat.zero_add,
      Nat.min_eq_left (by omega : 10 ≤ body.length)] at hreads
    exact hreads
  rw [ofPacket_eq_map ⟨tag, body⟩ hheader (h.publicPart_eq tag), hdigest]
  rfl

/-- Fields that do not end inside of the public part show what they overrun it with. -/
theorem overrun_eq_of_not_inside
    (h : ¬ ∃ material extent, fields? body = some (material, extent) ∧ extent ≤ length) :
    overrun length body = ((readFields body).modulus, (readFields body).curve) := by
  unfold overrun readFields
  cases hfields : fields? body with
  | none => rfl
  | some fields =>
    obtain ⟨material, extent⟩ := fields
    have hbeyond : ¬ extent ≤ length := fun hle => h ⟨material, extent, hfields, hle⟩
    exact if_neg hbeyond

/-- Two bodies with the same public part overrun it alike exactly if their fields show the same. -/
theorem overrun_eq_iff (h : body.take (10 + length) = body'.take (10 + length)) :
    overrun length body = overrun length body' ↔
      (readFields body).modulus = (readFields body').modulus ∧
        (readFields body).curve = (readFields body').curve := by
  by_cases hinside : ∃ material extent, fields? body = some (material, extent) ∧ extent ≤ length
  · -- The fields end inside of the public part in one body, and so they do in the other.
    obtain ⟨material, extent, hfields, hle⟩ := hinside
    have hfields' := fields?_eq_of_take_eq h hfields hle
    simp [overrun, readFields, hfields, hfields']
  · have hinside' : ¬ ∃ material extent, fields? body' = some (material, extent) ∧
        extent ≤ length := by
      rintro ⟨material, extent, hfields, hle⟩
      exact hinside ⟨material, extent, fields?_eq_of_take_eq h.symm hfields hle, hle⟩
    rw [overrun_eq_of_not_inside hinside, overrun_eq_of_not_inside hinside', Prod.mk.injEq]

/-- Two bodies of the same version, 5 or 6, that have the same public part differ in modulus and
curve only, and exactly if the fields that reach beyond this part show other ones. -/
theorem ofPacket_eq_iff_overrun_eq (h : StatesLength body length) (h' : StatesLength body' length)
    (hagree : body.take (10 + length) = body'.take (10 + length)) (tag : Binary64) :
    (PublicKey.ofPacket ⟨tag, body⟩ = PublicKey.ofPacket ⟨tag, body'⟩ ↔
        overrun length body = overrun length body') ∧
      ∃ key key', PublicKey.ofPacket ⟨tag, body⟩ = .ok key ∧
        PublicKey.ofPacket ⟨tag, body'⟩ = .ok key' ∧
          key' = { key with modulus := key'.modulus, curve := key'.curve } := by
  have hheader := measuredHeader_eq hagree
  -- The digest is that of the common public part, so only the fields can make a difference.
  obtain ⟨digested, hdigest⟩ := exists_digest h.toNat_take (body.take (10 + length))
  have hview : PublicKey.ofPacket ⟨tag, body⟩ =
      .ok (ofParts tag ⟨measuredHeader body, readFields body, digested⟩) :=
    h.ofPacket_eq tag hdigest
  have hview' : PublicKey.ofPacket ⟨tag, body'⟩ =
      .ok (ofParts tag ⟨measuredHeader body, readFields body', digested⟩) := by
    rw [hheader]
    refine h'.ofPacket_eq tag ?_
    rw [← hheader, ← hagree]
    exact hdigest
  refine ⟨?_, _, _, hview, hview', rfl⟩
  rw [hview, hview', overrun_eq_iff hagree, Except.ok.injEq, ofParts, ofParts, PublicKey.mk.injEq]
  simp

/-- The public part of an RSA key whose six octets of fields are as many as it states. -/
def statedPart : Octets := [6, 0, 0, 0, 1, 1, 0, 0, 0, 6, 0, 1, 1, 0, 2, 3]

/-- Whatever stands behind it, the key is the same. -/
theorem ofPacket_statedPart :
    StatesLength (statedPart ++ [0xAA]) 6 ∧ StatesLength (statedPart ++ [0xBB, 1]) 6 ∧
      (statedPart ++ [0xAA]).take (10 + 6) = (statedPart ++ [0xBB, 1]).take (10 + 6) ∧
        PublicKey.ofPacket ⟨5, statedPart ++ [0xAA]⟩ =
          PublicKey.ofPacket ⟨5, statedPart ++ [0xBB, 1]⟩ := by
  have hstates : StatesLength (statedPart ++ [0xAA]) 6 := ⟨.inr rfl, rfl, by decide⟩
  have hstates' : StatesLength (statedPart ++ [0xBB, 1]) 6 := ⟨.inr rfl, rfl, by decide⟩
  have hagree : (statedPart ++ [0xAA]).take (10 + 6) = (statedPart ++ [0xBB, 1]).take (10 + 6) :=
    rfl
  have hoverrun : overrun 6 (statedPart ++ [0xAA]) = overrun 6 (statedPart ++ [0xBB, 1]) := by
    decide +kernel
  exact ⟨hstates, hstates', hagree,
    (ofPacket_eq_iff_overrun_eq hstates hstates' hagree 5).1.mpr hoverrun⟩

/-- The public part of an RSA key that states the three octets of its modulus only. -/
def cutPart : Octets := [6, 0, 0, 0, 1, 1, 0, 0, 0, 3, 0, 8, 0xC5]

/-- Octets behind it are taken for the exponent, and the key gets the modulus that it does not have
without them. -/
theorem ofPacket_cutPart_ne :
    StatesLength cutPart 3 ∧ StatesLength (cutPart ++ [0, 1, 1]) 3 ∧
      cutPart.take (10 + 3) = (cutPart ++ [0, 1, 1]).take (10 + 3) ∧
        (PublicKey.ofPacket ⟨5, cutPart⟩).map PublicKey.modulus = .ok none ∧
          (PublicKey.ofPacket ⟨5, cutPart ++ [0, 1, 1]⟩).map PublicKey.modulus =
            .ok (some [0xC5]) ∧
            PublicKey.ofPacket ⟨5, cutPart⟩ ≠ PublicKey.ofPacket ⟨5, cutPart ++ [0, 1, 1]⟩ := by
  have hnone : (PublicKey.ofPacket ⟨5, cutPart⟩).map PublicKey.modulus = .ok none := by
    decide +kernel
  have hsome : (PublicKey.ofPacket ⟨5, cutPart ++ [0, 1, 1]⟩).map PublicKey.modulus =
      .ok (some [0xC5]) := by
    decide +kernel
  refine ⟨⟨.inr rfl, rfl, by decide⟩, ⟨.inr rfl, rfl, by decide⟩, rfl, hnone, hsome, ?_⟩
  intro hsame
  rw [hsame, hsome] at hnone
  cases hnone

end PgpInspect.PublicKey
