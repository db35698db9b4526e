import PgpInspect.Proofs.Packet.Reading

/-!
# Readers that accept exactly a grammar

`Reading.Accepts reading written` says of a reader everything that a grammar can say: what is written
is read, with anything behind it, nothing else is read, and a fault reports the tag of the packet.
The relation `written` is put together along the text of a reader as the reader itself is: octets
one after the other for steps one after the other (`Accepts.bind`), and a choice for a choice
(`Accepts.ite`). A grammar that is said in another way is then compared with that relation, and no
more with the reader (`Accepts.congr`).
-/

namespace PgpInspect.Reading

variable {α β : Type}

/-- A reader reads what is written, and nothing else. -/
structure Accepts (reading : Reading α) (written : Octets → α → Prop) : Prop where
  /-- What is written is read, whatever stands behind it. -/
  reads : ∀ {octets value}, written octets value → Reads reading octets value
  /-- A value that is read is written in front of what is left. -/
  exists_written : ∀ {tag position rest value after},
    runAt reading ⟨tag, position, rest, 0⟩ = (.ok value, after) →
      ∃ octets behind, rest = octets ++ behind ∧ written octets value
  /-- A fault reports the tag of the packet. -/
  tag_eq : ∀ {tag position rest fault after},
    runAt reading ⟨tag, position, rest, 0⟩ = (.error fault, after) → fault.tag = tag

variable {reading other : Reading α} {next : α → Reading β} {written written' : Octets → α → Prop}
  {writtenNext : α → Octets → β → Prop}

/-! ## Steps -/

/-- A value that is there is written without octets. -/
theorem Accepts.pure (value : α) :
    Accepts (pure value) fun octets value' => octets = [] ∧ value' = value where
  reads := by
    rintro octets value' ⟨rfl, rfl⟩
    exact Reads.pure value'
  exists_written := by
    intro tag position rest value' after hrun
    cases hrun
    exact ⟨[], rest, rfl, rfl, rfl⟩
  tag_eq := by
    intro tag position rest fault after hrun
    cases hrun

/-- Nothing is written for a reader that never succeeds. -/
theorem Accepts.fail (cause : FieldCause) :
    Accepts (fail cause : Reading α) fun _ _ => False where
  reads := False.elim
  exists_written := by
    intro tag position rest value after hrun
    rw [runAt_fail] at hrun
    cases hrun
  tag_eq := by
    intro tag position rest fault after hrun
    rw [runAt_fail] at hrun
    cases hrun
    rfl

/-- Octets are written as they are. -/
theorem Accepts.bytes (length : Nat) (field : String) :
    Accepts (bytes (length : Int) field) fun octets value =>
      octets.length = length ∧ value = octets where
  reads := by
    rintro octets value ⟨hlength, rfl⟩
    exact Reads.bytes_of_length hlength field
  exists_written := by
    intro tag position rest value after hrun
    rw [runAt_bytes] at hrun
    split at hrun
    · next hle =>
      cases hrun
      exact ⟨rest.take length, rest.drop length, (List.take_append_drop ..).symm,
        List.length_take_of_le hle, rfl⟩
    · cases hrun
  tag_eq := by
    intro tag position rest fault after hrun
    rw [runAt_bytes] at hrun
    split at hrun
    · cases hrun
    · cases hrun
      rfl

/-- Steps one after the other accept octets one after the other. -/
theorem Accepts.bind (h : Accepts reading written)
    (h' : ∀ value, Accepts (next value) (writtenNext value)) :
    Accepts (reading >>= next) fun octets value' =>
      ∃ front value back, octets = front ++ back ∧ written front value ∧
        writtenNext value back value' where
  reads := by
    rintro octets value' ⟨front, value, back, rfl, hfront, hback⟩
    exact (h.reads hfront).bind ((h' value).reads hback)
  exists_written := by
    intro tag position rest value' after hrun
    rw [runAt_bind] at hrun
    split at hrun
    · next value middle hfirst =>
      -- What the first step has read fixes the cursor that the second begins with.
      obtain ⟨front, behind, rfl, hfront⟩ := h.exists_written hfirst
      obtain rfl := (h.reads hfront).after_eq hfirst
      obtain ⟨back, behind', rfl, hback⟩ := (h' value).exists_written hrun
      exact ⟨front ++ back, behind', (List.append_assoc ..).symm, front, value, back, rfl, hfront,
        hback⟩
    · cases hrun
  tag_eq := by
    intro tag position rest fault after hrun
    rw [runAt_bind] at hrun
    split at hrun
    · next value middle hfirst =>
      obtain ⟨front, behind, rfl, hfront⟩ := h.exists_written hfirst
      obtain rfl := (h.reads hfront).after_eq hfirst
      exact (h' value).tag_eq hrun
    · next fault' middle hfirst =>
      cases hrun
      exact h.tag_eq hfirst

/-- A choice of readers accepts what the chosen one accepts. -/
theorem Accepts.ite {p : Prop} [Decidable p] (h : p → Accepts reading written)
    (h' : ¬ p → Accepts other written') :
    Accepts (if p then reading else other) fun octets value =>
      if p then written octets value else written' octets value := by
  split
  · next hp => exact h hp
  · next hp => exact h' hp

/-- What is written may be said in another way. -/
theorem Accepts.congr (h : Accepts reading written)
    (heq : ∀ octets value, written octets value ↔ written' octets value) :
    Accepts reading written' := by
  have hwritten : written = written' := funext fun octets => funext fun value =>
    propext (heq octets value)
  rw [← hwritten]
  exact h

/-- What is made of a value without reading on is written as the value is. -/
theorem Accepts.map (h : Accepts reading written) (f : α → β) :
    Accepts (reading >>= fun value => Pure.pure (f value)) fun octets value' =>
      ∃ value, written octets value ∧ value' = f value := by
  refine (h.bind fun value => Accepts.pure (f value)).congr fun octets value' => ?_
  constructor
  · rintro ⟨front, value, back, rfl, hfront, rfl, rfl⟩
    rw [List.append_nil]
    exact ⟨value, hfront, rfl⟩
  · rintro ⟨value, hoctets, rfl⟩
    exact ⟨octets, value, [], (List.append_nil _).symm, hoctets, rfl, rfl⟩

/-- A number is written as its octets. -/
theorem Accepts.number (width : Nat) (field : String) :
    Accepts (number width field) fun octets value =>
      octets.length = width ∧ value = octets.toNat := by
  refine ((Accepts.bytes width field).map Octets.toNat).congr fun octets value => ?_
  constructor
  · rintro ⟨_, ⟨hlength, rfl⟩, rfl⟩
    exact ⟨hlength, rfl⟩
  · rintro ⟨hlength, rfl⟩
    exact ⟨octets, ⟨hlength, rfl⟩, rfl⟩

/-- A number of one octet is that octet. -/
theorem Accepts.u8 (field : String) :
    Accepts (u8 field) fun octets value => ∃ octet : UInt8, octets = [octet] ∧ value = octet.toNat := by
  refine (Accepts.number 1 field).congr fun octets value => ?_
  have hvalue (octet : UInt8) : Octets.toNat [octet] = octet.toNat := by simp [Octets.toNat]
  constructor
  · rintro ⟨hlength, rfl⟩
    obtain ⟨octet, rfl⟩ := List.length_eq_one_iff.mp hlength
    exact ⟨octet, rfl, hvalue octet⟩
  · rintro ⟨octet, rfl, rfl⟩
    exact ⟨rfl, (hvalue octet).symm⟩

/-- What is read after an octet is written behind that octet. -/
theorem Accepts.octet {next : Nat → Reading β} {writtenNext : Nat → Octets → β → Prop}
    (field : String) (h : ∀ number, Accepts (next number) (writtenNext number)) :
    Accepts (Reading.u8 field >>= next) fun octets value =>
      ∃ (octet : UInt8) (back : Octets), octets = octet :: back ∧
        writtenNext octet.toNat back value := by
  refine ((Accepts.u8 field).bind h).congr fun octets value => ?_
  constructor
  · rintro ⟨_, _, back, rfl, ⟨octet, rfl, rfl⟩, hback⟩
    exact ⟨octet, back, rfl, hback⟩
  · rintro ⟨octet, back, rfl, hback⟩
    exact ⟨[octet], octet.toNat, back, rfl, ⟨octet, rfl, rfl⟩, hback⟩

/-! ## Outcomes -/

/-- If what is written is read, and otherwise the packet is at fault, then reading succeeds exactly
for what is written and fails with a field fault for all else. -/
theorem outcome_iff {tag : Binary64} {outcome : Except FieldFault α} {written : α → Prop}
    (hcomplete : ∀ value, written value → outcome = .ok value)
    (houtcome : (∃ value, outcome = .ok value ∧ written value) ∨
      ∃ fault, outcome = .error fault ∧ fault.tag = tag) :
    (∀ value, outcome = .ok value ↔ written value) ∧
      ((¬ ∃ value, written value) ↔ ∃ fault, outcome = .error fault ∧ fault.tag = tag ∧
        fault.toFault.name = "PacketFieldError") := by
  rcases houtcome with ⟨value, rfl, hwritten⟩ | ⟨fault, rfl, htag⟩
  · refine ⟨fun value' => ⟨?_, hcomplete value'⟩, fun hnone => absurd ⟨value, hwritten⟩ hnone, ?_⟩
    · intro hok
      cases hok
      exact hwritten
    · rintro ⟨fault, herror, -⟩
      cases herror
  · have hnone (value : α) : ¬ written value := fun hwritten => by
      have hok := hcomplete value hwritten
      cases hok
    refine ⟨fun value => ⟨fun hok => ?_, fun hwritten => absurd hwritten (hnone value)⟩, ?_, ?_⟩
    · cases hok
    · intro _
      exact ⟨fault, rfl, htag, rfl⟩
    · rintro - ⟨value, hwritten⟩
      exact hnone value hwritten

/-- A body is read as what is written at its beginning, and if there is nothing of the kind, its
packet is at fault. -/
theorem Accepts.outcome_of_onBody (h : Accepts reading written) (tag : Binary64) (body : Octets) :
    (∃ value, reading.onBody tag body = .ok value ∧
        ∃ octets tail, body = octets ++ tail ∧ written octets value) ∨
      ∃ fault, reading.onBody tag body = .error fault ∧ fault.tag = tag := by
  cases hread : reading.onBody tag body with
  | ok value => exact .inl ⟨value, rfl, h.exists_written (Prod.ext hread rfl)⟩
  | error fault => exact .inr ⟨fault, rfl, h.tag_eq (Prod.ext hread rfl)⟩

/-- What is written at the beginning of a body is read. -/
theorem Accepts.onBody_append (h : Accepts reading written) {octets : Octets} {value : α}
    (hwritten : written octets value) (tag : Binary64) (tail : Octets) :
    reading.onBody tag (octets ++ tail) = .ok value :=
  congrArg Prod.fst (h.reads hwritten tag 0 tail)

end PgpInspect.Reading
