import PgpInspect.Proofs.Framing.Grammar
import PgpInspect.Proofs.Octets

/-!
# The reader accepts exactly the grammar of packet streams

Each reader of `PgpInspect/Packet/Framing.lean` is matched with one relation of the grammar: it
succeeds exactly if its input begins with octets of the relation, and then splits the input behind
them. The statements leave the octets behind open, so that they compose: from a chunk length to a
body (`newBody_sound`, `newBody_complete`), to a packet, and to a whole stream
(`packetsFrom_eq_ok_iff`). That the grammar is unambiguous follows, since a reader has one result.
-/

namespace PgpInspect.Framing

/-! ## Lengths and parts -/

/-- An octet below 192 writes itself. -/
theorem WrittenLength.of_one {first : UInt8} (h : first.toNat < 192) :
    WrittenLength [first] first.toNat false := by
  have hwritten := WrittenLength.oneOctet h
  rwa [UInt8.ofNat_toNat] at hwritten

/-- An octet from 192 to 223 and any other write a length in base 256 with 192 added. -/
theorem WrittenLength.of_two {first : UInt8} (second : UInt8) (h : 192 ≤ first.toNat)
    (h' : first.toNat < 224) :
    WrittenLength [first, second] ((first.toNat - 192) * 256 + second.toNat + 192) false := by
  have hsecond := second.toNat_lt
  generalize hn : (first.toNat - 192) * 256 + second.toNat + 192 = n
  have hhigh : 192 + (n - 192) / 256 = first.toNat := by omega
  have hlow : (n - 192) % 256 = second.toNat := by omega
  have hwritten : WrittenLength [UInt8.ofNat (192 + (n - 192) / 256), UInt8.ofNat ((n - 192) % 256)]
      n false := WrittenLength.twoOctets (by omega) (by omega)
  rwa [hhigh, hlow, UInt8.ofNat_toNat, UInt8.ofNat_toNat] at hwritten

/-- The octet 255 and any four write a length in base 256. -/
theorem WrittenLength.of_four (a b c d : UInt8) :
    WrittenLength (0xFF :: [a, b, c, d]) (Octets.toNat [a, b, c, d]) false := by
  have hlt : Octets.toNat [a, b, c, d] < 2 ^ 32 := by
    simpa using Octets.toNat_lt [a, b, c, d]
  have hback : Octets.ofNat 4 (Octets.toNat [a, b, c, d]) = [a, b, c, d] :=
    Octets.ofNat_toNat [a, b, c, d]
  have hwritten := WrittenLength.fourOctets hlt
  rwa [hback] at hwritten

/-- An octet from 224 to 254 writes a power of two. -/
theorem WrittenLength.of_power {first : UInt8} (h : 224 ≤ first.toNat) (h' : first.toNat < 255) :
    WrittenLength [first] (2 ^ (first.toNat - 224)) true := by
  have hfirst : 224 + (first.toNat - 224) = first.toNat := by omega
  have hk : first.toNat - 224 ≤ 30 := by omega
  have hwritten := WrittenLength.power hk
  rwa [hfirst, UInt8.ofNat_toNat] at hwritten

/-- What is in front of a length is a written length. -/
theorem chunkLength_sound {total : Nat} {data : Octets} {found : ChunkLength data}
    (h : chunkLength total data = .ok found) :
    ∃ written, WrittenLength written found.length found.continues ∧ data = written ++ found.rest := by
  cases data with
  | nil => simp [chunkLength] at h
  | cons first rest =>
    have hfirst := first.toNat_lt
    simp only [chunkLength] at h
    -- The four forms, told apart by the first octet.
    split at h
    · next hone =>
      cases h
      exact ⟨[first], .of_one hone, rfl⟩
    · split at h
      · next hone htwo =>
        cases rest with
        | nil => cases h
        | cons second rest =>
          cases h
          exact ⟨[first, second], .of_two second (by omega) htwo, rfl⟩
      · split at h
        · next hone htwo hfour =>
          obtain rfl : first = 0xFF := UInt8.toNat_inj.mp hfour
          split at h
          · next a b c d rest =>
            obtain rfl := Except.ok.inj h
            exact ⟨0xFF :: [a, b, c, d], .of_four a b c d, rfl⟩
          · cases h
        · next hone htwo hfour =>
          obtain rfl := Except.ok.inj h
          exact ⟨[first], .of_power (by omega) (by omega), rfl⟩

/-- A written length is read, and what follows it is left. -/
theorem chunkLength_complete (total : Nat) {written : Octets} {length : Nat} {continues : Bool}
    (h : WrittenLength written length continues) (rest : Octets) :
    ∃ lt, chunkLength total (written ++ rest) = .ok ⟨length, continues, rest, lt⟩ := by
  cases h with
  | oneOctet hn =>
    have hfirst : (UInt8.ofNat length).toNat = length := by
      rw [UInt8.toNat_ofNat']
      omega
    refine ⟨by simp, ?_⟩
    simp only [List.cons_append, List.nil_append, chunkLength, hfirst, if_pos hn]
  | twoOctets hlow hhigh =>
    have hfirst : (UInt8.ofNat (192 + (length - 192) / 256)).toNat =
        192 + (length - 192) / 256 := by
      rw [UInt8.toNat_ofNat']
      omega
    have hsecond : (UInt8.ofNat ((length - 192) % 256)).toNat = (length - 192) % 256 := by
      rw [UInt8.toNat_ofNat']
      omega
    have hlength : (192 + (length - 192) / 256 - 192) * 256 + (length - 192) % 256 + 192 =
        length := by omega
    refine ⟨by simp only [List.length_append, List.length_cons]; omega, ?_⟩
    simp only [List.cons_append, List.nil_append, chunkLength, hfirst, hsecond, hlength]
    rw [if_neg (by omega), if_pos (by omega)]
  | fourOctets hn =>
    have hread : (Octets.ofNat 4 length).toNat = length :=
      Octets.toNat_ofNat_of_lt (by simpa using hn)
    simp only [Octets.ofNat] at hread ⊢
    refine ⟨by simp only [List.length_append, List.length_cons]; omega, ?_⟩
    simp only [List.cons_append, List.nil_append, chunkLength, hread]
    rfl
  | @power k hk =>
    have hfirst : (UInt8.ofNat (224 + k)).toNat = 224 + k := by
      rw [UInt8.toNat_ofNat']
      omega
    refine ⟨by simp, ?_⟩
    simp only [List.cons_append, List.nil_append, chunkLength, hfirst]
    rw [if_neg (by omega), if_neg (by omega), if_neg (by omega)]
    simp

/-- A part has the length that was asked for, and the rest follows it. -/
theorem split_sound {total length : Nat} {data : Octets} {found : Split data}
    (h : split total data length = .ok found) :
    found.body.length = length ∧ data = found.body ++ found.rest := by
  unfold split at h
  split at h
  · next hle =>
    cases h
    exact ⟨List.length_take_of_le hle, (List.take_append_drop length data).symm⟩
  · cases h

/-- What is there can be split off. -/
theorem split_complete (total : Nat) (body rest : Octets) :
    ∃ le, split total (body ++ rest) body.length = .ok ⟨body, rest, le⟩ := by
  have hle : body.length ≤ (body ++ rest).length := by simp
  refine ⟨by simp, ?_⟩
  simp only [split, if_pos hle, List.take_left, List.drop_left]

/-! ## Bodies -/

/-- What a new-format body is read from is in the grammar. -/
theorem newBody_sound {total : Nat} {data : Octets} {found : Split data}
    (h : newBody total data = .ok found) :
    ∃ written, NewBody written found.body ∧ data = written ++ found.rest := by
  fun_induction newBody total data with
  | case1 => cases h
  | case2 => cases h
  | case3 => cases h
  | case4 data length afterLength _ chunk rest _ hsplit more rest' _ hmore hlength ih =>
    cases h
    obtain ⟨lengthOctets, hwritten, hdata⟩ := chunkLength_sound hlength
    obtain ⟨hchunk, hafter⟩ := split_sound hsplit
    obtain ⟨written, hbody, hrest⟩ := ih hmore
    dsimp only at hwritten hdata hchunk hafter hbody hrest ⊢
    subst hdata hafter hrest hchunk
    exact ⟨lengthOctets ++ chunk ++ written, NewBody.chunk hwritten hbody, by simp⟩
  | case5 data length continues afterLength _ hlength chunk rest _ hsplit hlast =>
    cases h
    obtain ⟨lengthOctets, hwritten, hdata⟩ := chunkLength_sound hlength
    obtain ⟨hchunk, hafter⟩ := split_sound hsplit
    dsimp only at hwritten hdata hchunk hafter ⊢
    rw [Bool.not_eq_true] at hlast
    subst hdata hafter hchunk hlast
    exact ⟨lengthOctets ++ chunk, NewBody.last hwritten, by simp⟩

/-- A new-format body of the grammar is read, and what follows it is left. -/
theorem newBody_complete (total : Nat) {written body : Octets} (h : NewBody written body)
    (rest : Octets) : ∃ le, newBody total (written ++ rest) = .ok ⟨body, rest, le⟩ := by
  induction h with
  | @last lengthOctets chunk hwritten =>
    obtain ⟨_, hlength⟩ := chunkLength_complete total hwritten (chunk ++ rest)
    obtain ⟨_, hsplit⟩ := split_complete total chunk rest
    rw [List.append_assoc]
    refine ⟨by simp only [List.length_append]; omega, ?_⟩
    rw [newBody]
    simp only [hlength, hsplit, Bool.false_eq_true, if_false]
  | @chunk lengthOctets chunk written body hwritten hbody ih =>
    obtain ⟨_, hlength⟩ := chunkLength_complete total hwritten (chunk ++ (written ++ rest))
    obtain ⟨_, hsplit⟩ := split_complete total chunk (written ++ rest)
    obtain ⟨_, hmore⟩ := ih
    rw [List.append_assoc, List.append_assoc]
    refine ⟨by simp only [List.length_append]; omega, ?_⟩
    rw [newBody]
    simp only [hlength, hsplit, hmore, if_true]

/-- What a body with a counted length is read from is that length and the body. -/
theorem countedBody_sound {total width : Nat} {data : Octets} {found : Split data}
    (h : countedBody total width data = .ok found) :
    found.body.length < 256 ^ width ∧
      data = Octets.ofNat width found.body.length ++ found.body ++ found.rest := by
  unfold countedBody at h
  split at h
  · cases h
  · next length afterLength _ hlength =>
    split at h
    · cases h
    · next body rest _ hbody =>
      cases h
      obtain ⟨hwidth, hdata⟩ := split_sound hlength
      obtain ⟨hcount, hafter⟩ := split_sound hbody
      dsimp only at hwidth hdata hcount hafter ⊢
      subst hdata hafter hwidth
      rw [hcount, Octets.ofNat_toNat, List.append_assoc]
      exact ⟨Octets.toNat_lt length, rfl⟩

/-- A body behind its length is read, and what follows it is left. -/
theorem countedBody_complete (total : Nat) {width : Nat} {body : Octets}
    (h : body.length < 256 ^ width) (rest : Octets) :
    ∃ le, countedBody total width (Octets.ofNat width body.length ++ body ++ rest) =
      .ok ⟨body, rest, le⟩ := by
  have hlength := split_complete total (Octets.ofNat width body.length) (body ++ rest)
  rw [Octets.length_ofNat] at hlength
  obtain ⟨_, hlength⟩ := hlength
  obtain ⟨_, hbody⟩ := split_complete total body rest
  rw [List.append_assoc]
  refine ⟨by simp only [List.length_append]; omega, ?_⟩
  simp only [countedBody, hlength, Octets.toNat_ofNat_of_lt h, hbody]

/-- An old-format body is counted in one, two or four octets, or it is all that is left. -/
theorem oldBody_sound {total lengthType : Nat} {data : Octets} {found : Split data}
    (h : oldBody total lengthType data = .ok found) :
    (lengthType ≤ 2 ∧ found.body.length < 256 ^ 2 ^ lengthType ∧
        data = Octets.ofNat (2 ^ lengthType) found.body.length ++ found.body ++ found.rest) ∨
      (3 ≤ lengthType ∧ found.body = data ∧ found.rest = []) := by
  match lengthType with
  | 0 => exact .inl ⟨by decide, countedBody_sound h⟩
  | 1 => exact .inl ⟨by decide, countedBody_sound h⟩
  | 2 => exact .inl ⟨by decide, countedBody_sound h⟩
  | n + 3 =>
    cases h
    exact .inr ⟨by omega, rfl, rfl⟩

/-- An old-format body behind its length is read, and what follows it is left. -/
theorem oldBody_complete (total : Nat) {lengthType : Nat} {body : Octets} (hl : lengthType ≤ 2)
    (h : body.length < 256 ^ 2 ^ lengthType) (rest : Octets) :
    ∃ le, oldBody total lengthType
      (Octets.ofNat (2 ^ lengthType) body.length ++ body ++ rest) = .ok ⟨body, rest, le⟩ := by
  match lengthType with
  | 0 => exact countedBody_complete total h rest
  | 1 => exact countedBody_complete total h rest
  | 2 => exact countedBody_complete total h rest
  | n + 3 => omega

/-! ## Streams -/

/-- The octets that packets are read from are a stream of them. -/
theorem packetsFrom_sound {total : Nat} {data : Octets} {packets : List RawPacket}
    (h : packetsFrom total data = .ok packets) : Stream data packets := by
  fun_induction packetsFrom total data generalizing packets with
  | case1 => cases h; exact Stream.nil
  | case2 => cases h
  | case3 => cases h
  | case4 => cases h
  | case5 header data n hn isNew outcome body rest _ houtcome more hmore =>
    rename_i ih
    cases h
    have hstream : Stream rest more := ih hmore
    have hlt : n < 256 := header.toNat_lt
    by_cases hnew : 0xC0 ≤ n
    · have hisNew : isNew = true := decide_eq_true hnew
      simp only [outcome, hisNew, if_true] at houtcome ⊢
      obtain ⟨written, hbody, hdata⟩ := newBody_sound houtcome
      dsimp only at hbody hdata
      rw [hdata, eq_newHeader hnew]
      exact Stream.cons (Framed.new (Nat.mod_lt _ (by decide)) hbody) hstream
    · have hisNew : isNew = false := decide_eq_false hnew
      simp only [outcome, hisNew, Bool.false_eq_true, if_false] at houtcome ⊢
      have htag : n / 4 % 16 < 16 := Nat.mod_lt _ (by decide)
      have hheader : header = oldHeader (header.toNat / 4 % 16) (header.toNat % 4) :=
        eq_oldHeader (by omega) (by omega)
      rw [hheader]
      rcases oldBody_sound houtcome with ⟨hcounted, hlength, hdata⟩ | ⟨htoEnd, hbody, hrest⟩
      · dsimp only at hlength hdata
        rw [hdata]
        exact Stream.cons (Framed.old htag hcounted hlength) hstream
      · dsimp only at hbody hrest
        subst hbody hrest
        rw [packetsFrom] at hmore
        cases hmore
        have hthree : header.toNat % 4 = 3 := by omega
        rw [hthree]
        exact Stream.toEnd htag

/-- A new-format header and the body behind it are a packet in front of those that follow. -/
theorem packetsFrom_newHeader {total tag : Nat} {data body rest : Octets} {le}
    (htag : tag < 64) (hbody : newBody total data = .ok ⟨body, rest, le⟩) :
    packetsFrom total (newHeader tag :: data) =
      (packetsFrom total rest).map (⟨(tag : Binary64), body⟩ :: ·) := by
  have hnew : 0xC0 ≤ 192 + tag := Nat.le_add_right _ _
  have hlow : (192 + tag) % 64 = tag := by omega
  rw [packetsFrom]
  simp only [toNat_newHeader htag, decide_eq_true hnew, if_true, hbody, hlow]
  rw [if_neg (by omega)]
  cases packetsFrom total rest <;> rfl

/-- An old-format header and the body behind it are a packet in front of those that follow. -/
theorem packetsFrom_oldHeader {total tag lengthType : Nat} {data body rest : Octets} {le}
    (htag : tag < 16) (hl : lengthType < 4)
    (hbody : oldBody total lengthType data = .ok ⟨body, rest, le⟩) :
    packetsFrom total (oldHeader tag lengthType :: data) =
      (packetsFrom total rest).map (⟨(tag : Binary64), body⟩ :: ·) := by
  have hold : ¬ 0xC0 ≤ 128 + 4 * tag + lengthType := by omega
  have hlow : (128 + 4 * tag + lengthType) % 4 = lengthType := by omega
  have hhigh : (128 + 4 * tag + lengthType) / 4 % 16 = tag := by omega
  rw [packetsFrom]
  simp only [toNat_oldHeader htag hl, decide_eq_false hold, Bool.false_eq_true, if_false, hbody,
    hlow, hhigh]
  rw [if_neg (by omega)]
  cases packetsFrom total rest <;> rfl

/-- A packet with its length is read in front of those that follow. -/
theorem packetsFrom_framed (total : Nat) {written : Octets} {packet : RawPacket}
    (h : Framed written packet) (rest : Octets) :
    packetsFrom total (written ++ rest) = (packetsFrom total rest).map (packet :: ·) := by
  cases h with
  | new htag hbody =>
    obtain ⟨_, hread⟩ := newBody_complete total hbody rest
    exact packetsFrom_newHeader htag hread
  | old htag hcounted hlength =>
    obtain ⟨_, hread⟩ := oldBody_complete total hcounted hlength rest
    exact packetsFrom_oldHeader htag (by omega) hread

/-- A stream of the grammar is read as its packets. -/
theorem packetsFrom_complete (total : Nat) {data : Octets} {packets : List RawPacket}
    (h : Stream data packets) : packetsFrom total data = .ok packets := by
  have hnone : packetsFrom total [] = .ok [] := by rw [packetsFrom]
  induction h with
  | nil => exact hnone
  | @cons written rest packet packets hframed hstream ih =>
    rw [packetsFrom_framed total hframed, ih]
    rfl
  | @toEnd tag body htag =>
    have hbody : oldBody total 3 body = .ok ⟨body, [], by simp⟩ := rfl
    rw [packetsFrom_oldHeader htag (by decide) hbody, hnone]
    rfl

/-- Reading gives packets exactly if the octets are a stream of them. -/
theorem packetsFrom_eq_ok_iff {total : Nat} {data : Octets} {packets : List RawPacket} :
    packetsFrom total data = .ok packets ↔ Stream data packets :=
  ⟨packetsFrom_sound, packetsFrom_complete total⟩

/-- Octets are a stream of at most one sequence of packets. -/
theorem Stream.unique {data : Octets} {packets packets' : List RawPacket}
    (h : Stream data packets) (h' : Stream data packets') : packets = packets' := by
  have hread := packetsFrom_complete 0 h
  rw [packetsFrom_complete 0 h'] at hread
  exact (Except.ok.inj hread).symm

/-- Reading a stream of octets gives `packets` exactly if the octets are the framed packets one
after the other, and octets that are a stream of no packets are refused with a decode fault. -/
theorem readPackets_eq_ok_iff_stream (data : Octets) :
    (∀ packets, readPackets data = .ok packets ↔ Stream data packets) ∧
      ((¬ ∃ packets, Stream data packets) ↔
        ∃ fault, readPackets data = .error fault ∧ fault.toFault.name = "PacketDecodeError") := by
  refine ⟨fun packets => packetsFrom_eq_ok_iff, ?_⟩
  constructor
  · intro hnone
    cases hread : readPackets data with
    | ok packets => exact absurd ⟨packets, packetsFrom_sound hread⟩ hnone
    | error fault => exact ⟨fault, rfl, rfl⟩
  · rintro ⟨fault, hread, -⟩ ⟨packets, hstream⟩
    have hok : readPackets data = .ok packets := packetsFrom_complete _ hstream
    rw [hok] at hread
    cases hread

end PgpInspect.Framing
