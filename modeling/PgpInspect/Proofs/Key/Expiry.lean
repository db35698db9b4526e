import Mathlib.Order.Bounds.Basic
import PgpInspect.Proofs.Binary64
import PgpInspect.Proofs.Key.Taken
import PgpInspect.Proofs.Packet.PublicKey
import PgpInspect.Proofs.Packet.View

/-!
# The expiry of a key is the earliest that is stated

A key expires by the days of validity in its packet and by the key expirations that its signatures
are taken for (`Key.expiryTimes`). The expiry of an assembled key is the least of these times, and 0
if there are none, whatever the order of the signatures (`Ownership.expiry_assembleKeys`). The times
are sums of fields of at most four octets, so that none of them is rounded, none is as early as the
creation of the key, and all are below `2 ^ 34`.

The invariant is `Key.ExpiresAt`: one subpacket adds its time to the set and keeps the expiry at the
least of it.
-/

namespace PgpInspect

/-- The first four octets write a number of 32 bits. -/
theorem leadingWord_lt (data : Octets) : leadingWord data < 2 ^ 32 := by
  have hlength : ((data ++ [0, 0, 0, 0]).take 4).length = 4 := by
    rw [List.length_take, List.length_append]
    exact Nat.min_eq_left (Nat.le_add_left 4 data.length)
  have hlt := Octets.toNat_lt ((data ++ [0, 0, 0, 0]).take 4)
  rw [hlength] at hlt
  exact hlt

namespace Key

/-! ## The earliest of a set of times -/

/-- `expires` is the least of `times`, and 0 if there are none. -/
def IsEarliest (times : Set Nat) (expires : Binary64) : Prop :=
  (times = ∅ ∧ expires = 0) ∨ ∃ time, IsLeast times time ∧ expires = (time : Binary64)

/-- The earliest of a set of times is one number. -/
theorem IsEarliest.unique {times : Set Nat} {expires expires' : Binary64}
    (h : IsEarliest times expires) (h' : IsEarliest times expires') : expires = expires' := by
  rcases h with ⟨hempty, rfl⟩ | ⟨time, hleast, rfl⟩
  · rcases h' with ⟨-, rfl⟩ | ⟨time', hleast', -⟩
    · rfl
    · rw [hempty] at hleast'
      exact absurd hleast'.1 (Set.notMem_empty time')
  · rcases h' with ⟨hempty, -⟩ | ⟨time', hleast', rfl⟩
    · rw [hempty] at hleast
      exact absurd hleast.1 (Set.notMem_empty time)
    · rw [hleast.unique hleast']

/-! ## One subpacket more -/

/-- A key that was made at `created` and expires at the earliest of `times`, all of them later. -/
structure ExpiresAt (created : Nat) (times : Set Nat) (key : Key) : Prop where
  /-- The key was made at `created`. -/
  created_eq : key.created = (created : Binary64)
  /-- It expires at the earliest of the times. -/
  earliest : IsEarliest times key.expires
  /-- The times are after its creation. -/
  created_lt : ∀ time ∈ times, created < time

variable {created : Nat} {times : Set Nat} {key : Key}

/-- A stated number of seconds after the creation adds one time. -/
theorem ExpiresAt.applyExpiration (h : ExpiresAt created times key) {seconds : Nat}
    (hpos : 0 < seconds) (hsum : created + seconds < 2 ^ 53) :
    ExpiresAt created (insert (created + seconds) times)
      (key.applyExpiration (seconds : Binary64)) := by
  have hnonzero : ¬ (seconds : Binary64) ≤ 0 := fun hle =>
    Nat.ne_of_gt hpos (Binary64.natCast_le_zero.mp hle)
  have hcandidate : key.created + (seconds : Binary64) = ((created + seconds : Nat) : Binary64) := by
    rw [h.created_eq, Binary64.natCast_add_natCast hsum]
  have hpositive : (0 : Binary64) < ((created + seconds : Nat) : Binary64) :=
    Binary64.zero_lt_natCast.mpr (by omega)
  have hlater : ∀ time ∈ insert (created + seconds) times, created < time := by
    rintro time (rfl | htime)
    · omega
    · exact h.created_lt time htime
  unfold Key.applyExpiration
  rw [if_neg hnonzero, hcandidate]
  dsimp only
  rcases h.earliest with ⟨hempty, hexpires⟩ | ⟨least, hleast, hexpires⟩
  · rw [if_pos ⟨hpositive, .inl hexpires⟩]
    refine ⟨h.created_eq, .inr ⟨created + seconds, ?_, rfl⟩, hlater⟩
    rw [hempty, insert_empty_eq]
    exact isLeast_singleton
  · have hleastPos : least ≠ 0 := Nat.ne_of_gt (Nat.zero_lt_of_lt (h.created_lt least hleast.1))
    have hset : key.expires ≠ 0 := by
      rw [hexpires]
      exact mt Binary64.natCast_eq_zero.mp hleastPos
    have hinsert := hleast.insert (created + seconds)
    by_cases hearlier : created + seconds < least
    · have htaken : ((created + seconds : Nat) : Binary64) < key.expires := by
        rw [hexpires]
        exact Binary64.natCast_lt_natCast.mpr hearlier
      rw [if_pos ⟨hpositive, .inr htaken⟩]
      rw [min_eq_left (Nat.le_of_lt hearlier)] at hinsert
      exact ⟨h.created_eq, .inr ⟨created + seconds, hinsert, rfl⟩, hlater⟩
    · have hleft : ¬ ((created + seconds : Nat) : Binary64) < key.expires := by
        rw [hexpires]
        exact mt Binary64.natCast_lt_natCast.mp hearlier
      rw [if_neg (not_and_of_not_right _ (not_or.mpr ⟨hset, hleft⟩))]
      rw [min_eq_right (Nat.le_of_not_lt hearlier)] at hinsert
      exact ⟨h.created_eq, .inr ⟨least, hinsert, hexpires⟩, hlater⟩

/-- The times at which a key that was made at `created` expires by key expirations among
`subpackets`. -/
def expirationTimes (created : Nat) (subpackets : List Subpacket) : Set Nat :=
  {time | ∃ subpacket ∈ subpackets, subpacket.type = Subpacket.keyExpiration ∧
    0 < leadingWord subpacket.data ∧ time = created + leadingWord subpacket.data}

/-- A subpacket adds the time that it states. -/
theorem ExpiresAt.take (h : ExpiresAt created times key) (hcreated : created < 2 ^ 32)
    (subpacket : Subpacket) :
    ExpiresAt created (times ∪ expirationTimes created [subpacket]) (key.take subpacket) := by
  have hword := leadingWord_lt subpacket.data
  have hnone (hstates : ¬ (subpacket.type = Subpacket.keyExpiration ∧
      0 < leadingWord subpacket.data)) : times ∪ expirationTimes created [subpacket] = times := by
    apply Set.union_eq_self_of_subset_right
    rintro time ⟨other, hother, htype, hpos, -⟩
    rw [List.mem_singleton.mp hother] at htype hpos
    exact absurd ⟨htype, hpos⟩ hstates
  unfold Key.take
  split
  · next htype =>
    rcases Nat.eq_zero_or_pos (leadingWord subpacket.data) with hzero | hpos
    · have hkept : key.applyExpiration (leadingWord subpacket.data : Binary64) = key := by
        unfold Key.applyExpiration
        exact if_pos (Binary64.natCast_le_zero.mpr hzero)
      rw [hkept, hnone (by omega)]
      exact h
    · have hinsert : times ∪ expirationTimes created [subpacket] =
          insert (created + leadingWord subpacket.data) times := by
        ext time
        simp [expirationTimes, htype, hpos, or_comm]
      rw [hinsert]
      exact h.applyExpiration hpos (by omega)
  · next htype =>
    rw [hnone fun hstates => htype hstates.1]
    split
    · split
      · exact h
      · exact ⟨h.created_eq, h.earliest, h.created_lt⟩
    · exact h

/-- Subpackets add the times that they state. -/
theorem ExpiresAt.foldl_take (h : ExpiresAt created times key) (hcreated : created < 2 ^ 32)
    (subpackets : List Subpacket) :
    ExpiresAt created (times ∪ expirationTimes created subpackets)
      (subpackets.foldl Key.take key) := by
  induction subpackets generalizing key times with
  | nil =>
    have hnone : times ∪ expirationTimes created [] = times := by simp [expirationTimes]
    rw [hnone]
    exact h
  | cons subpacket rest ih =>
    have hcons : times ∪ expirationTimes created (subpacket :: rest) =
        times ∪ expirationTimes created [subpacket] ∪ expirationTimes created rest := by
      ext time
      simp [expirationTimes, or_assoc]
    rw [hcons, List.foldl_cons]
    exact ih (h.take hcreated subpacket)

/-! ## The key of a packet -/

/-- The times at which a key expires that was made at `created`: `days` later, if there are any, and
when key expirations among the subpackets taken of its signatures say. -/
def expiryTimes (created days : Nat) (signatures : List (Signature × Nat)) : Set Nat :=
  {time | 0 < days ∧ time = created + 86400 * days} ∪
    expirationTimes created (takenOf signatures)

/-- Every time at which a key expires is below `2 ^ 34`. -/
theorem lt_of_mem_expiryTimes {days time : Nat} {signatures : List (Signature × Nat)}
    (hcreated : created < 2 ^ 32) (hdays : days < 2 ^ 16)
    (h : time ∈ expiryTimes created days signatures) : time < 2 ^ 34 := by
  rcases h with ⟨-, rfl⟩ | ⟨subpacket, -, -, -, rfl⟩
  · omega
  · have hword := leadingWord_lt subpacket.data
    omega

variable {packet : PublicKey} {days : Nat}

/-- The days of validity are counted without rounding. -/
theorem stated_eq_natCast (hcreated : created < 2 ^ 32) (hdays : days < 2 ^ 16)
    (hpacket : packet.created = (created : Binary64))
    (hvalid : packet.daysValid = (days : Binary64)) :
    packet.created + packet.daysValid.scaleBy Assembly.secondsPerDay =
      ((created + 86400 * days : Nat) : Binary64) := by
  have hscaled : packet.daysValid.scaleBy Assembly.secondsPerDay =
      ((86400 * days : Nat) : Binary64) := by
    rw [hvalid, Assembly.secondsPerDay, Binary64.scaleBy_natCast (by omega), Nat.mul_comm]
  rw [hscaled, hpacket, Binary64.natCast_add_natCast (by omega)]

/-- The key of a packet expires after its days of validity. -/
theorem expiresAt_keyOf (hcreated : created < 2 ^ 32) (hdays : days < 2 ^ 16)
    (hpacket : packet.created = (created : Binary64))
    (hvalid : packet.daysValid = (days : Binary64)) :
    ExpiresAt created {time | 0 < days ∧ time = created + 86400 * days}
      (Assembly.keyOf packet) := by
  have hstated := stated_eq_natCast hcreated hdays hpacket hvalid
  have hexpires : (Assembly.keyOf packet).expires = Assembly.statedExpiry packet := rfl
  refine ⟨hpacket, ?_, ?_⟩
  · rw [hexpires]
    unfold Assembly.statedExpiry
    rw [hstated]
    dsimp only
    rw [hvalid]
    rcases Nat.eq_zero_or_pos days with rfl | hpos
    · exact .inl ⟨by simp, if_neg (mt Binary64.zero_lt_natCast.mp (Nat.lt_irrefl 0))⟩
    · have hlater : ¬ Binary64.equal ((created + 86400 * days : Nat) : Binary64)
          packet.created = true := by
        rw [hpacket, Binary64.equal_natCast]
        omega
      rw [if_pos (Binary64.zero_lt_natCast.mpr hpos), if_neg hlater]
      refine .inr ⟨created + 86400 * days, ⟨⟨hpos, rfl⟩, ?_⟩, rfl⟩
      rintro time ⟨-, rfl⟩
      exact Nat.le_refl _
  · rintro time ⟨hpos, rfl⟩
    omega

/-- The key of a packet under signatures expires at the earliest of the times that are stated. -/
theorem expiresAt_signedBy (hcreated : created < 2 ^ 32) (hdays : days < 2 ^ 16)
    (hpacket : packet.created = (created : Binary64))
    (hvalid : packet.daysValid = (days : Binary64)) (signatures : List (Signature × Nat)) :
    ExpiresAt created (expiryTimes created days signatures) (signedBy signatures packet) := by
  rw [signedBy_eq_foldl]
  exact (expiresAt_keyOf hcreated hdays hpacket hvalid).foldl_take hcreated _

/-- The expiry of a key that a packet with `created` and `days` describes, under signatures. -/
structure HasExactExpiry (packet : PublicKey) (signatures : List (Signature × Nat))
    (created days : Nat) (key : Key) : Prop where
  /-- The packet states the creation time. -/
  packet_created : packet.created = (created : Binary64)
  /-- The packet states the days of validity, 0 for none. -/
  packet_daysValid : packet.daysValid = (days : Binary64)
  /-- The key has the creation time of its packet. -/
  created_eq : key.created = (created : Binary64)
  /-- The key expires at the earliest of the times that are stated. -/
  earliest : IsEarliest (expiryTimes created days signatures) key.expires
  /-- The signatures might come in any order. -/
  expires_of_perm : ∀ order, order.Perm signatures → (signedBy order packet).expires = key.expires
  /-- The key does not expire, or it expires after its creation. -/
  eq_zero_or_lt : key.expires = 0 ∨ key.created < key.expires
  /-- The expiry is below `2 ^ 34`. -/
  lt_two_pow : key.expires < ((2 ^ 34 : Nat) : Binary64)
  /-- Days of validity do not vanish beside the creation time. -/
  not_vanishing : 0 < packet.daysValid →
    (packet.created + packet.daysValid.scaleBy Assembly.secondsPerDay).equal packet.created = false

/-- The expiry of the key of a packet under signatures. -/
theorem hasExactExpiry_signedBy (hcreated : created < 2 ^ 32) (hdays : days < 2 ^ 16)
    (hpacket : packet.created = (created : Binary64))
    (hvalid : packet.daysValid = (days : Binary64)) (signatures : List (Signature × Nat)) :
    HasExactExpiry packet signatures created days (signedBy signatures packet) := by
  have hexpires := expiresAt_signedBy hcreated hdays hpacket hvalid signatures
  refine ⟨hpacket, hvalid, hexpires.created_eq, hexpires.earliest, ?_, ?_, ?_, ?_⟩
  · intro order hperm
    have horder := expiresAt_signedBy hcreated hdays hpacket hvalid order
    have htimes : expiryTimes created days order = expiryTimes created days signatures := by
      have htaken : ∀ subpacket, subpacket ∈ takenOf order ↔ subpacket ∈ takenOf signatures :=
        fun _ => (hperm.flatMap_right _).mem_iff
      unfold expiryTimes expirationTimes
      simp only [htaken]
    rw [htimes] at horder
    exact horder.earliest.unique hexpires.earliest
  · rcases hexpires.earliest with ⟨-, hzero⟩ | ⟨time, hleast, htime⟩
    · exact .inl hzero
    · rw [hexpires.created_eq, htime]
      exact .inr (Binary64.natCast_lt_natCast.mpr (hexpires.created_lt time hleast.1))
  · rcases hexpires.earliest with ⟨-, hzero⟩ | ⟨time, hleast, htime⟩
    · rw [hzero]
      exact Binary64.zero_lt_natCast.mpr (by decide)
    · rw [htime]
      exact Binary64.natCast_lt_natCast.mpr (lt_of_mem_expiryTimes hcreated hdays hleast.1)
  · intro hpos
    rw [hvalid] at hpos
    have hdaysPos := Binary64.zero_lt_natCast.mp hpos
    rw [stated_eq_natCast hcreated hdays hpacket hvalid, hpacket, Bool.eq_false_iff, ne_eq,
      Binary64.equal_natCast]
    omega

/-- Identities and subkeys play no part in the expiry of a key. -/
theorem HasExactExpiry.withParts {signatures : List (Signature × Nat)}
    (h : HasExactExpiry packet signatures created days key) (identities : List Identity)
    (subkeys : List Key) :
    HasExactExpiry packet signatures created days (key.withParts identities subkeys) :=
  ⟨h.packet_created, h.packet_daysValid, h.created_eq, h.earliest, h.expires_of_perm,
    h.eq_zero_or_lt, h.lt_two_pow, h.not_vanishing⟩

end Key

/-! ## The keys of a stream -/

namespace Ownership

variable {records : List PacketRecord} {place : PublicKey × Nat}

/-- A key packet of a decoded stream has times of fields of four and two octets. -/
theorem times_of_mem_records {packets : List RawPacket} {key : PublicKey}
    (h : .publicKey key ∈ packets.map PacketRecord.ofPacket) :
    ∃ created days : Nat, created < 2 ^ 32 ∧ days < 2 ^ 16 ∧ key.created = (created : Binary64) ∧
      key.daysValid = (days : Binary64) := by
  obtain ⟨packet, -, hrecord⟩ := List.mem_map.mp h
  exact PublicKey.times_of_ofPacket (PublicKey.ofPacket_of_record hrecord)

/-- A primary key of a stream is one of its records. -/
theorem mem_records_of_mem_primaries (h : place ∈ primaries records) :
    .publicKey place.1 ∈ records := by
  obtain ⟨record, hrecord, hprimary, -⟩ := exists_of_mem_collect h
  rw [← (eq_publicKey_of_primary? hprimary).1]
  exact List.mem_of_getElem? hrecord

/-- A subkey of a stream is one of its records. -/
theorem mem_records_of_mem_subkeysOf {owner : Nat} (h : place ∈ subkeysOf owner records) :
    .publicKey place.1 ∈ records := by
  obtain ⟨record, hrecord, hsubkey, -⟩ := exists_of_mem_collect h
  rw [← (eq_publicKey_of_subkey? hsubkey).1]
  exact List.mem_of_getElem? hrecord

/-- The key of a packet of a decoded stream has its exact expiry. -/
theorem exists_hasExactExpiry {packets : List RawPacket}
    (hrecords : records = packets.map PacketRecord.ofPacket)
    (h : .publicKey place.1 ∈ records) :
    ∃ created days, Key.HasExactExpiry place.1 (signaturesOn place.2 records) created days
      (signedKey records place) := by
  rw [hrecords] at h
  obtain ⟨created, days, hcreated, hdays, hpacket, hvalid⟩ := times_of_mem_records h
  refine ⟨created, days, ?_⟩
  rw [signedKey_eq_signedBy]
  exact Key.hasExactExpiry_signedBy hcreated hdays hpacket hvalid _

/-- Every key and every subkey of a decoded stream expires at the earliest of the times that its
packet and the signatures bound to it state, and never if there are none. -/
theorem expiry_assembleKeys {data : Octets} (h : readRecords data = .ok records) :
    List.Forall₂ (fun place key =>
        (∃ created days,
          Key.HasExactExpiry place.1 (signaturesOn place.2 records) created days key) ∧
        List.Forall₂ (fun sub subkey => ∃ created days,
            Key.HasExactExpiry sub.1 (signaturesOn sub.2 records) created days subkey)
          (subkeysOf place.2 records) key.subkeys)
      (primaries records) (assembleKeys records).1 := by
  obtain ⟨packets, hrecords⟩ : ∃ packets : List RawPacket,
      records = packets.map PacketRecord.ofPacket := by
    unfold readRecords at h
    cases hread : readPackets data with
    | error fault =>
      rw [hread] at h
      cases h
    | ok packets =>
      rw [hread] at h
      cases h
      exact ⟨packets, rfl⟩
  rw [assembleKeys_fst_eq]
  apply List.forall₂_map_right_iff.mpr
  apply List.forall₂_same.mpr
  intro place hplace
  constructor
  · obtain ⟨created, days, hexact⟩ :=
      exists_hasExactExpiry hrecords (mem_records_of_mem_primaries hplace)
    rw [primaryKey_eq_withParts]
    exact ⟨created, days, hexact.withParts _ _⟩
  · apply List.forall₂_map_right_iff.mpr
    apply List.forall₂_same.mpr
    intro sub hsub
    exact exists_hasExactExpiry hrecords (mem_records_of_mem_subkeysOf hsub)

/-- An RSA key of version 3, made one second after the epoch and valid for one day, and two
signatures. The first lets it expire after 100 seconds and, behind a subpacket that is too short,
after 5 seconds; the second lets it expire after 10 seconds. -/
def expiringKeyring : Octets :=
  [0xC6, 14, 3, 0, 0, 0, 1, 0, 1, 1, 0, 1, 1, 0, 2, 3,
    0xC2, 23, 4, 0x13, 1, 8, 0, 15, 5, 9, 0, 0, 0, 100, 2, 9, 0, 5, 9, 0, 0, 0, 5, 0, 0,
    0xC2, 14, 4, 0x13, 1, 8, 0, 6, 5, 9, 0, 0, 0, 10, 0, 0]

/-- The records of the expiring key. -/
def expiringRecords : List PacketRecord :=
  [⟨6, [3, 0, 0, 0, 1, 0, 1, 1, 0, 1, 1, 0, 2, 3]⟩,
    ⟨2, [4, 0x13, 1, 8, 0, 15, 5, 9, 0, 0, 0, 100, 2, 9, 0, 5, 9, 0, 0, 0, 5, 0, 0]⟩,
    ⟨2, [4, 0x13, 1, 8, 0, 6, 5, 9, 0, 0, 0, 10, 0, 0]⟩].map PacketRecord.ofPacket

/-- The expiring key is read and expires 11 seconds after the epoch, as the second signature says. -/
theorem expiry_expiringKeyring : readRecords expiringKeyring = .ok expiringRecords ∧
    (assembleKeys expiringRecords).1.map (·.expires) = [11] ∧
    List.Forall₂ (fun place key =>
        (∃ created days,
          Key.HasExactExpiry place.1 (signaturesOn place.2 expiringRecords) created days key) ∧
        List.Forall₂ (fun sub subkey => ∃ created days,
            Key.HasExactExpiry sub.1 (signaturesOn sub.2 expiringRecords) created days subkey)
          (subkeysOf place.2 expiringRecords) key.subkeys)
      (primaries expiringRecords) (assembleKeys expiringRecords).1 := by
  have hpackets : readPackets expiringKeyring =
      .ok [⟨6, [3, 0, 0, 0, 1, 0, 1, 1, 0, 1, 1, 0, 2, 3]⟩,
        ⟨2, [4, 0x13, 1, 8, 0, 15, 5, 9, 0, 0, 0, 100, 2, 9, 0, 5, 9, 0, 0, 0, 5, 0, 0]⟩,
        ⟨2, [4, 0x13, 1, 8, 0, 6, 5, 9, 0, 0, 0, 10, 0, 0]⟩] := by cbv
  have hread : readRecords expiringKeyring = .ok expiringRecords := by
    unfold readRecords
    rw [hpackets]
    rfl
  have hexpires : (assembleKeys expiringRecords).1.map (·.expires) = [11] := by decide +kernel
  exact ⟨hread, hexpires, expiry_assembleKeys hread⟩

end Ownership

end PgpInspect
