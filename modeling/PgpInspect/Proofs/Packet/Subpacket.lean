import PgpInspect.Packet.Signature
import PgpInspect.Proofs.Packet.Acceptance

/-!
# The grammar of subpacket areas

An area is subpackets one after the other, each behind its length. The lengths look like those of
packets but are others: two octets reach to a first octet of 254, nothing is partial, and the octet
with the type counts. `WrittenLength`, `Written` and `Area` say so without reading an area, and the
reader accepts exactly that (`ofArea_eq_ok_iff_area`): octets that are left over refuse the whole
area.
-/

namespace PgpInspect.Subpacket

open Reading (Accepts Reads runAt)

/-! ## Grammar -/

/-- The octets that write the length of a subpacket. -/
inductive WrittenLength : (written : Octets) → (length : Nat) → Prop where
  /-- One octet, below 192. -/
  | oneOctet {first : UInt8} : first.toNat < 192 → WrittenLength [first] first.toNat
  /-- Two octets, of which the first is from 192 to 254. -/
  | twoOctets {first second : UInt8} : 192 ≤ first.toNat → first.toNat ≤ 254 →
    WrittenLength [first, second] ((first.toNat - 192) * 256 + second.toNat + 192)
  /-- The octet 255 and four more with the length in base 256. -/
  | fourOctets {octets : Octets} : octets.length = 4 → WrittenLength (0xFF :: octets) octets.toNat

/-- The octet with the type of a subpacket and whether it is critical. -/
def typeOctet (type : Nat) (critical : Bool) : UInt8 :=
  UInt8.ofNat (type + if critical then 128 else 0)

/-- The octets that write a subpacket: the length of type and content, type, content. -/
inductive Written : (written : Octets) → Subpacket → Prop where
  /-- The type is below 128. -/
  | mk {type : Nat} {critical : Bool} {lengthOctets data : Octets} : type < 128 →
    WrittenLength lengthOctets (1 + data.length) →
    Written (lengthOctets ++ typeOctet type critical :: data) ⟨(type : Int), critical, data⟩

/-- The octets of an area: those of its subpackets, one after the other. -/
inductive Area : (area : Octets) → (subpackets : List Subpacket) → Prop where
  /-- No subpacket. -/
  | nil : Area [] []
  /-- A subpacket, and what follows it. -/
  | cons {written area : Octets} {subpacket : Subpacket} {subpackets : List Subpacket} :
    Written written subpacket → Area area subpackets →
    Area (written ++ area) (subpacket :: subpackets)

/-! ## One subpacket -/

/-- A type octet is the type, with 128 added if the subpacket is critical. -/
theorem toNat_typeOctet {type : Nat} (h : type < 128) (critical : Bool) :
    (typeOctet type critical).toNat = type + if critical then 128 else 0 := by
  rw [typeOctet, UInt8.toNat_ofNat']
  cases critical <;> simp <;> omega

/-- Every octet is a type octet. -/
theorem eq_typeOctet (octet : UInt8) :
    octet = typeOctet (octet.toNat % 128) (128 ≤ octet.toNat) := by
  have hlt := octet.toNat_lt
  apply UInt8.toNat_inj.mp
  rw [toNat_typeOctet (Nat.mod_lt _ (by decide))]
  by_cases h : 128 ≤ octet.toNat <;> simp [h] <;> omega

/-- The length of a subpacket is read by the grammar. -/
theorem accepts_readLength : Accepts readLength WrittenLength := by
  unfold readLength
  refine (Accepts.octet _ fun first => Accepts.ite (fun _ => Accepts.pure first) fun _ =>
    Accepts.ite (fun _ => (Accepts.u8 _).map fun second => (first - 192) * 256 + second + 192)
      fun _ => Accepts.number 4 _).congr fun octets length => ?_
  constructor
  · rintro ⟨first, back, rfl, hback⟩
    have hlt := first.toNat_lt
    split at hback
    · next hone =>
      obtain ⟨rfl, rfl⟩ := hback
      exact .oneOctet hone
    · split at hback
      · next hone htwo =>
        obtain ⟨_, ⟨second, rfl, rfl⟩, rfl⟩ := hback
        exact .twoOctets (by omega) (by omega)
      · next hone htwo =>
        -- Neither below 192 nor below 255: the first octet says that four more follow.
        obtain ⟨hlength, rfl⟩ := hback
        obtain rfl : first = 0xFF := UInt8.toNat_inj.mp (show first.toNat = 255 by omega)
        exact .fourOctets hlength
  · intro hwritten
    cases hwritten with
    | @oneOctet first hone =>
      refine ⟨first, [], rfl, ?_⟩
      rw [if_pos hone]
      exact ⟨rfl, rfl⟩
    | @twoOctets first second hlow hhigh =>
      refine ⟨first, [second], rfl, ?_⟩
      rw [if_neg (by omega), if_pos (by omega)]
      exact ⟨second.toNat, ⟨second, rfl, rfl⟩, rfl⟩
    | @fourOctets octets hlength => exact ⟨0xFF, octets, rfl, hlength, rfl⟩

/-- A subpacket is read by the grammar. -/
theorem accepts_readOne : Accepts readOne Written := by
  unfold readOne
  refine (accepts_readLength.bind fun length => Accepts.ite (fun _ => Accepts.fail _) fun _ =>
    Accepts.octet _ fun type => (Accepts.bytes (length - 1) _).map fun data =>
      (⟨(type % 128 : Nat), 128 ≤ type, data⟩ : Subpacket)).congr fun octets subpacket => ?_
  constructor
  · rintro ⟨lengthOctets, length, back, rfl, hlength, hback⟩
    split at hback
    · exact hback.elim
    · next hne =>
      obtain ⟨octet, _, rfl, data, ⟨hdata, rfl⟩, rfl⟩ := hback
      have hcount : 1 + data.length = length := by omega
      nth_rewrite 1 [eq_typeOctet octet]
      exact .mk (Nat.mod_lt _ (by decide)) (hcount ▸ hlength)
  · intro hwritten
    cases hwritten with
    | @mk type critical lengthOctets data htype hlength =>
      have hnonzero : 1 + data.length ≠ 0 := by omega
      have hdata : data.length = 1 + data.length - 1 := by omega
      refine ⟨lengthOctets, 1 + data.length, typeOctet type critical :: data, rfl, hlength, ?_⟩
      rw [if_neg hnonzero]
      refine ⟨typeOctet type critical, data, rfl, data, ⟨hdata, rfl⟩, ?_⟩
      rw [toNat_typeOctet htype]
      cases critical <;> simp <;> omega

/-- A subpacket takes at least one octet. -/
theorem Written.length_pos {written : Octets} {subpacket : Subpacket}
    (h : Written written subpacket) : 0 < written.length := by
  cases h
  rw [List.length_append, List.length_cons]
  omega

/-! ## All subpackets -/

/-- Octets that are left are read as a subpacket and what follows it. -/
theorem runAt_readAll_succ (fuel : Nat) (tag : Binary64) (position : Nat) {area : Octets}
    (h : area ≠ []) :
    runAt (readAll (fuel + 1)) ⟨tag, position, area, 0⟩ =
      runAt (do
        let subpacket ← readOne
        return subpacket :: (← readAll fuel)) ⟨tag, position, area, 0⟩ := by
  have hleft : area.isEmpty = false := by simpa using h
  rw [readAll, Reading.runAt_get_bind]
  dsimp only
  rw [hleft]
  rfl

/-- An area is read to its end as its subpackets. -/
theorem runAt_readAll {area : Octets} {subpackets : List Subpacket} (h : Area area subpackets)
    {fuel : Nat} (hfuel : area.length ≤ fuel) (tag : Binary64) (position : Nat) :
    runAt (readAll fuel) ⟨tag, position, area, 0⟩ =
      (.ok subpackets, ⟨tag, position + area.length, [], 0⟩) := by
  -- On the subpackets. Each takes an octet at least, so the fuel lasts as long as the octets do.
  induction h generalizing fuel position with
  | nil => cases fuel <;> rfl
  | @cons written area subpacket subpackets hwritten harea ih =>
    have hpos := hwritten.length_pos
    rw [List.length_append] at hfuel
    obtain ⟨fuel, rfl⟩ : ∃ fuel', fuel = fuel' + 1 := ⟨fuel - 1, by omega⟩
    have hleft : written ++ area ≠ [] := by
      apply List.ne_nil_of_length_pos
      rw [List.length_append]
      omega
    have hfuel' : area.length ≤ fuel := by omega
    rw [runAt_readAll_succ fuel tag position hleft, Reading.runAt_bind,
      accepts_readOne.reads hwritten tag position area]
    dsimp only
    rw [Reading.runAt_bind, ih hfuel' (position + written.length), List.length_append,
      Nat.add_assoc]
    rfl

/-- What an area is read as is written in it, and what refuses it reports the tag of the packet. -/
theorem outcome_of_runAt_readAll {fuel : Nat} {tag : Binary64} {position : Nat} {area : Octets}
    {outcome : Except FieldFault (List Subpacket)} {after : Cursor} (hfuel : area.length ≤ fuel)
    (h : runAt (readAll fuel) ⟨tag, position, area, 0⟩ = (outcome, after)) :
    (∃ subpackets, outcome = .ok subpackets ∧ Area area subpackets) ∨
      ∃ fault, outcome = .error fault ∧ fault.tag = tag := by
  -- On the fuel: what follows a subpacket is read with less of it, and has fewer octets.
  induction fuel generalizing position area outcome after with
  | zero =>
    obtain rfl := List.eq_nil_of_length_eq_zero (Nat.le_zero.mp hfuel)
    cases h
    exact .inl ⟨[], rfl, .nil⟩
  | succ fuel ih =>
    by_cases hnil : area = []
    · subst hnil
      cases h
      exact .inl ⟨[], rfl, .nil⟩
    · rw [runAt_readAll_succ fuel tag position hnil, Reading.runAt_bind] at h
      split at h
      · next subpacket middle hone =>
        -- The cursor is behind the subpacket that was read, whatever the octets behind it are.
        obtain ⟨written, behind, rfl, hwritten⟩ := accepts_readOne.exists_written hone
        obtain rfl := (accepts_readOne.reads hwritten).after_eq hone
        have hpos := hwritten.length_pos
        rw [List.length_append] at hfuel
        rw [Reading.runAt_bind] at h
        split at h
        · next subpackets middle hrest =>
          cases h
          rcases ih (by omega) hrest with ⟨_, hok, harea⟩ | ⟨_, herror, -⟩
          · cases hok
            exact .inl ⟨_, rfl, .cons hwritten harea⟩
          · cases herror
        · next fault middle hrest =>
          cases h
          rcases ih (by omega) hrest with ⟨_, hok, -⟩ | ⟨_, herror, htag⟩
          · cases hok
          · cases herror
            exact .inr ⟨_, rfl, htag⟩
      · next fault middle hone =>
        cases h
        exact .inr ⟨fault, rfl, accepts_readOne.tag_eq hone⟩

/-- An area is read as its subpackets. -/
theorem ofArea_of_area {area : Octets} {subpackets : List Subpacket} (h : Area area subpackets)
    (tag : Binary64) : ofArea tag area = .ok subpackets :=
  congrArg Prod.fst (runAt_readAll h (Nat.le_refl _) tag 0)

/-- Octets are read as the subpackets of an area, or their packet is at fault. -/
theorem outcome_of_ofArea (tag : Binary64) (area : Octets) :
    (∃ subpackets, ofArea tag area = .ok subpackets ∧ Area area subpackets) ∨
      ∃ fault, ofArea tag area = .error fault ∧ fault.tag = tag :=
  outcome_of_runAt_readAll (Nat.le_refl _) rfl

/-- Octets are read as `subpackets` exactly if they are these, each behind its length, one after the
other. All other octets are refused as a whole, with a field fault for the packet that they belong
to. -/
theorem ofArea_eq_ok_iff_area (tag : Binary64) (area : Octets) :
    (∀ subpackets, ofArea tag area = .ok subpackets ↔ Area area subpackets) ∧
      ((¬ ∃ subpackets, Area area subpackets) ↔
        ∃ fault, ofArea tag area = .error fault ∧ fault.tag = tag ∧
          fault.toFault.name = "PacketFieldError") :=
  Reading.outcome_iff (fun _ harea => ofArea_of_area harea tag) (outcome_of_ofArea tag area)

/-- A critical creation time in front of one octet of another type. -/
example : ofArea 2 [5, 0x82, 0, 0, 0, 7, 2, 27, 1] =
    .ok [⟨2, true, [0, 0, 0, 7]⟩, ⟨27, false, [1]⟩] := by decide +kernel

end PgpInspect.Subpacket
