import PgpInspect.Proofs.Framing.Acceptance

/-!
# Streams that are cut or joined

A stream in which every packet has its length is its framed packets one after the other
(`FramedPacket`), and in one way only: no packet is framed by a beginning of another
(`Framed.eq_of_append_eq`). So what is left of the stream when it is cut is a stream again only if
the cut is between two packets, and cuts inside of a length, of a body or between two chunks are all
noticed.

What follows such a stream is read as if it stood alone. Only the offsets that faults report are
those of the whole stream (`packetsFrom_behind`).
-/

namespace PgpInspect

/-- The same fault in a stream with `length` octets more in front. -/
def DecodeFault.behind (length : Nat) : DecodeFault → DecodeFault
  | .invalidHeader offset header => .invalidHeader (length + offset) header
  | .pastEnd offset needed available => .pastEnd (length + offset) needed available
  | fault => fault

namespace Framing

/-! ## Faults behind other octets -/

variable {front total : Nat}

/-- A shortage is reported behind the octets in front. -/
theorem shortage_behind {data : Octets} (h : data.length ≤ total) (length : Nat) :
    shortage (front + total) data length = (shortage total data length).behind front := by
  have hoffset : front + total - data.length = front + (total - data.length) := by omega
  unfold shortage DecodeFault.behind
  rw [hoffset]

/-- A chunk length is read in the same way behind other octets. -/
theorem chunkLength_behind {data : Octets} (h : data.length ≤ total) :
    chunkLength (front + total) data =
      (chunkLength total data).mapError (·.behind front) := by
  cases data with
  | nil => exact congrArg Except.error (shortage_behind h 1)
  | cons first rest =>
    rw [List.length_cons] at h
    simp only [chunkLength]
    split
    · rfl
    · split
      · cases rest with
        | nil => exact congrArg Except.error (shortage_behind h 2)
        | cons second rest => rfl
      · split
        · split
          · rfl
          · exact congrArg Except.error (shortage_behind (by omega) 4)
        · rfl

/-- A part is split off in the same way behind other octets. -/
theorem split_behind {data : Octets} (h : data.length ≤ total) (length : Nat) :
    split (front + total) data length = (split total data length).mapError (·.behind front) := by
  unfold split
  split
  · rfl
  · exact congrArg Except.error (shortage_behind h length)

/-- A new-format body is read in the same way behind other octets. -/
theorem newBody_behind {data : Octets} (h : data.length ≤ total) :
    newBody (front + total) data = (newBody total data).mapError (·.behind front) := by
  -- On the number of octets: what follows a chunk is shorter than what the chunk is read from.
  induction hn : data.length using Nat.strong_induction_on generalizing data with
  | _ n ih =>
    subst hn
    rw [newBody, newBody, chunkLength_behind h]
    cases chunkLength total data with
    | error fault => rfl
    | ok found =>
      obtain ⟨length, continues, afterLength, hlt⟩ := found
      dsimp only [Except.mapError]
      rw [split_behind (by omega)]
      cases split total afterLength length with
      | error fault => rfl
      | ok found =>
        obtain ⟨chunk, rest, hle⟩ := found
        cases continues with
        | false => rfl
        | true =>
          have hrest : rest.length ≤ total := by omega
          simp only [Except.mapError, if_true]
          rw [ih rest.length (by omega) hrest rfl]
          cases newBody total rest <;> rfl

/-- A body with a counted length is read in the same way behind other octets. -/
theorem countedBody_behind {data : Octets} (h : data.length ≤ total) (width : Nat) :
    countedBody (front + total) width data =
      (countedBody total width data).mapError (·.behind front) := by
  unfold countedBody
  rw [split_behind h]
  cases split total data width with
  | error fault => rfl
  | ok found =>
    obtain ⟨length, afterLength, hle⟩ := found
    dsimp only [Except.mapError]
    rw [split_behind (by omega)]
    cases split total afterLength length.toNat <;> rfl

/-- An old-format body is read in the same way behind other octets. -/
theorem oldBody_behind {data : Octets} (h : data.length ≤ total) (lengthType : Nat) :
    oldBody (front + total) lengthType data =
      (oldBody total lengthType data).mapError (·.behind front) := by
  match lengthType with
  | 0 => exact countedBody_behind h 1
  | 1 => exact countedBody_behind h 2
  | 2 => exact countedBody_behind h 4
  | n + 3 => rfl

/-- Packets are read in the same way behind other octets. -/
theorem packetsFrom_behind {data : Octets} (h : data.length ≤ total) :
    packetsFrom (front + total) data = (packetsFrom total data).mapError (·.behind front) := by
  -- On the number of octets: what follows a packet is shorter than what it is read from.
  induction hn : data.length using Nat.strong_induction_on generalizing data with
  | _ n ih =>
    subst hn
    cases data with
    | nil =>
      rw [packetsFrom, packetsFrom]
      rfl
    | cons header data =>
      rw [List.length_cons] at h ih
      have hoffset : front + total - (data.length + 1) = front + (total - (data.length + 1)) := by
        omega
      have hbehind (isNew : Bool) :
          (if isNew then newBody (front + total) data
            else oldBody (front + total) (header.toNat % 4) data) =
          (if isNew then newBody total data
            else oldBody total (header.toNat % 4) data).mapError (·.behind front) := by
        cases isNew with
        | true => exact newBody_behind (by omega)
        | false => exact oldBody_behind (by omega) _
      rw [packetsFrom, packetsFrom]
      dsimp only
      split
      · rw [hoffset]
        rfl
      · rw [hbehind]
        generalize (if decide (0xC0 ≤ header.toNat) = true then newBody total data
          else oldBody total (header.toNat % 4) data) = outcome
        cases outcome with
        | error fault => rfl
        | ok found =>
          obtain ⟨body, rest, hle⟩ := found
          dsimp only [Except.mapError]
          rw [ih rest.length (by omega) (by omega) rfl]
          cases packetsFrom total rest <;> rfl

/-! ## Framed packets -/

/-- Octets are split in one way. -/
theorem eq_of_split_eq {read : (data : Octets) → Except DecodeFault (Split data)}
    {data data' body body' rest rest' : Octets} {le : rest.length ≤ data.length}
    {le' : rest'.length ≤ data'.length} (heq : data = data')
    (h : read data = .ok ⟨body, rest, le⟩) (h' : read data' = .ok ⟨body', rest', le'⟩) :
    body = body' ∧ rest = rest' := by
  subst heq
  rw [h] at h'
  cases h'
  exact ⟨rfl, rfl⟩

/-- No new-format body is written by a beginning of another. -/
theorem NewBody.eq_of_append_eq {written written' body body' rest rest' : Octets}
    (h : NewBody written body) (h' : NewBody written' body')
    (heq : written ++ rest = written' ++ rest') : body = body' ∧ rest = rest' := by
  obtain ⟨_, hread⟩ := newBody_complete 0 h rest
  obtain ⟨_, hread'⟩ := newBody_complete 0 h' rest'
  exact eq_of_split_eq heq hread hread'

/-- No old-format body is written by a beginning of another. -/
theorem eq_of_counted_append_eq {lengthType : Nat} {body body' rest rest' : Octets}
    (hl : lengthType ≤ 2) (h : body.length < 256 ^ 2 ^ lengthType)
    (h' : body'.length < 256 ^ 2 ^ lengthType)
    (heq : Octets.ofNat (2 ^ lengthType) body.length ++ body ++ rest =
      Octets.ofNat (2 ^ lengthType) body'.length ++ body' ++ rest') : body = body' ∧ rest = rest' := by
  obtain ⟨_, hread⟩ := oldBody_complete 0 hl h rest
  obtain ⟨_, hread'⟩ := oldBody_complete 0 hl h' rest'
  exact eq_of_split_eq heq hread hread'

/-- No packet is framed by a beginning of another: what begins with a framed packet does so in one
way. -/
theorem Framed.eq_of_append_eq {written written' rest rest' : Octets} {packet packet' : RawPacket}
    (h : Framed written packet) (h' : Framed written' packet')
    (heq : written ++ rest = written' ++ rest') : written = written' ∧ packet = packet' := by
  cases h with
  | @new tag written body htag hbody =>
    cases h' with
    | @new tag' written' body' htag' hbody' =>
      obtain ⟨hheader, hbehind⟩ := List.cons.inj heq
      obtain rfl := newHeader_inj htag htag' hheader
      obtain ⟨rfl, rfl⟩ := hbody.eq_of_append_eq hbody' hbehind
      exact ⟨congrArg _ (List.append_cancel_right hbehind), rfl⟩
    | @old tag' lengthType body' htag' hl hlength =>
      have hheader := (List.cons.inj heq).1
      exact absurd hheader (newHeader_ne_oldHeader htag htag' (by omega))
  | @old tag lengthType body htag hl hlength =>
    cases h' with
    | @new tag' written' body' htag' hbody' =>
      have hheader := (List.cons.inj heq).1
      exact absurd hheader.symm (newHeader_ne_oldHeader htag' htag (by omega))
    | @old tag' lengthType' body' htag' hl' hlength' =>
      obtain ⟨hheader, hbehind⟩ := List.cons.inj heq
      obtain ⟨rfl, rfl⟩ := oldHeader_inj htag htag' (by omega) (by omega) hheader
      obtain ⟨rfl, -⟩ := eq_of_counted_append_eq hl hlength hlength' hbehind
      exact ⟨rfl, rfl⟩

/-- A packet with the octets that frame it. -/
@[ext]
structure FramedPacket where
  /-- The octets. -/
  octets : Octets
  /-- The packet. -/
  packet : RawPacket
  /-- The packet is framed with its length. -/
  framed : Framed octets packet

/-- The octets of framed packets, one after the other. -/
def octetsOf (pieces : List FramedPacket) : Octets := pieces.flatMap FramedPacket.octets

/-- The packets that are framed. -/
def packetsOf (pieces : List FramedPacket) : List RawPacket := pieces.map FramedPacket.packet

/-- Whether the last packet of a stream has no length, so that its body reaches to the end. -/
def EndsOpen (data : Octets) : Prop :=
  ∃ pieces tag body, tag < 16 ∧ data = octetsOf pieces ++ oldHeader tag 3 :: body

/-- Packets with the offsets at which they end, of which the first begins at `offset`. -/
def placedFrom (offset : Nat) : (pieces : List FramedPacket) → List (RawPacket × Nat)
  | [] => []
  | piece :: rest =>
    (piece.packet, offset + piece.octets.length) ::
      placedFrom (offset + piece.octets.length) rest

variable {pieces : List FramedPacket}

/-- The first packet stands first. -/
theorem octetsOf_cons (piece : FramedPacket) (rest : List FramedPacket) :
    octetsOf (piece :: rest) = piece.octets ++ octetsOf rest := List.flatMap_cons

/-- Packets one after the other stand one after the other. -/
theorem octetsOf_append (front back : List FramedPacket) :
    octetsOf (front ++ back) = octetsOf front ++ octetsOf back := List.flatMap_append

/-- A framed packet begins with the header of a packet that has a length. -/
theorem FramedPacket.exists_header (piece : FramedPacket) :
    ∃ header behind, piece.octets = header :: behind ∧
      ∀ tag < 16, header ≠ oldHeader tag 3 := by
  obtain ⟨octets, packet, framed⟩ := piece
  cases framed with
  | @new tag written body htag hbody =>
    exact ⟨_, _, rfl, fun _ hopen => newHeader_ne_oldHeader htag hopen (by decide)⟩
  | @old tag lengthType body htag hl hlength =>
    refine ⟨_, _, rfl, fun _ hopen heq => ?_⟩
    have htypes := (oldHeader_inj htag hopen (by omega) (by decide) heq).2
    omega

/-- A framed packet takes at least one octet. -/
theorem FramedPacket.length_pos (piece : FramedPacket) : 0 < piece.octets.length := by
  obtain ⟨header, behind, hoctets, -⟩ := piece.exists_header
  rw [hoctets]
  exact Nat.succ_pos _

/-- Octets are cut into framed packets in one way: those of a beginning are the first ones. -/
theorem exists_eq_append_of_octetsOf_eq {front : List FramedPacket} {rest : Octets}
    (h : octetsOf pieces = octetsOf front ++ rest) :
    ∃ back, pieces = front ++ back ∧ rest = octetsOf back := by
  -- On the first pieces, of which each has to be the first of the others.
  induction front generalizing pieces with
  | nil => exact ⟨pieces, rfl, h.symm⟩
  | cons first front ih =>
    rw [octetsOf_cons, List.append_assoc] at h
    cases pieces with
    | nil =>
      -- There are no octets left for it.
      have hlength := congrArg List.length h
      have hpos := first.length_pos
      rw [List.length_append, octetsOf, List.flatMap_nil, List.length_nil] at hlength
      omega
    | cons piece pieces =>
      rw [octetsOf_cons] at h
      obtain ⟨hoctets, hpacket⟩ := piece.framed.eq_of_append_eq first.framed h
      rw [hoctets] at h
      obtain ⟨back, rfl, hrest⟩ := ih (List.append_cancel_left h)
      exact ⟨back, congrArg (· :: (front ++ back)) (FramedPacket.ext hoctets hpacket), hrest⟩

/-- A stream is framed packets, behind which there may be one without a length. -/
theorem Stream.exists_pieces {data : Octets} {packets : List RawPacket} (h : Stream data packets) :
    (∃ pieces, data = octetsOf pieces ∧ packets = packetsOf pieces) ∨ EndsOpen data := by
  induction h with
  | nil => exact .inl ⟨[], rfl, rfl⟩
  | @cons written data packet packets hframed hstream ih =>
    rcases ih with ⟨pieces, rfl, rfl⟩ | ⟨pieces, tag, body, htag, rfl⟩
    · exact .inl ⟨⟨written, packet, hframed⟩ :: pieces, rfl, rfl⟩
    · refine .inr ⟨⟨written, packet, hframed⟩ :: pieces, tag, body, htag, ?_⟩
      rw [octetsOf_cons, List.append_assoc]
  | @toEnd tag body htag => exact .inr ⟨[], tag, body, htag, rfl⟩

/-- The last of framed packets has its length. -/
theorem not_endsOpen_octetsOf (pieces : List FramedPacket) : ¬ EndsOpen (octetsOf pieces) := by
  rintro ⟨front, tag, body, htag, h⟩
  obtain ⟨back, -, hback⟩ := exists_eq_append_of_octetsOf_eq h
  cases back with
  | nil => cases hback
  | cons piece back =>
    obtain ⟨header, behind, hoctets, hheader⟩ := piece.exists_header
    rw [octetsOf_cons, hoctets] at hback
    exact hheader tag htag (List.cons.inj hback).1.symm

/-- Framed packets are read in front of what follows them. -/
theorem packetsFrom_octetsOf_append (total : Nat) (pieces : List FramedPacket) (rest : Octets) :
    packetsFrom total (octetsOf pieces ++ rest) =
      (packetsFrom total rest).map (packetsOf pieces ++ ·) := by
  induction pieces with
  | nil =>
    rw [octetsOf, List.flatMap_nil, List.nil_append]
    cases packetsFrom total rest <;> rfl
  | cons piece pieces ih =>
    -- Both sides refuse what is refused behind the pieces.
    rw [octetsOf_cons, List.append_assoc, packetsFrom_framed total piece.framed, ih]
    cases packetsFrom total rest <;> rfl

/-- Framed packets are read. -/
theorem packetsFrom_octetsOf (total : Nat) (pieces : List FramedPacket) :
    packetsFrom total (octetsOf pieces) = .ok (packetsOf pieces) := by
  have hnone : packetsFrom total [] = .ok [] := by rw [packetsFrom]
  have hread := packetsFrom_octetsOf_append total pieces []
  rw [hnone, List.append_nil] at hread
  rw [hread, Except.map, List.append_nil]

/-! ## Ends -/

/-- Packets end where they end behind those in front of them. -/
theorem placedFrom_append (offset : Nat) (front back : List FramedPacket) :
    placedFrom offset (front ++ back) =
      placedFrom offset front ++ placedFrom (offset + (octetsOf front).length) back := by
  induction front generalizing offset with
  | nil => rfl
  | cons piece front ih =>
    rw [List.cons_append, placedFrom, placedFrom, ih, octetsOf_cons, List.length_append,
      Nat.add_assoc, List.cons_append]

/-- The packets that are placed are those that are framed. -/
theorem map_fst_placedFrom (offset : Nat) (pieces : List FramedPacket) :
    (placedFrom offset pieces).map Prod.fst = packetsOf pieces := by
  induction pieces generalizing offset with
  | nil => rfl
  | cons piece pieces ih => exact congrArg (piece.packet :: ·) (ih _)

/-- Packets end behind the octet at which the first begins, and not behind the last octet. -/
theorem bounds_of_mem_placedFrom {offset : Nat} {item : RawPacket × Nat}
    (h : item ∈ placedFrom offset pieces) :
    offset < item.2 ∧ item.2 ≤ offset + (octetsOf pieces).length := by
  induction pieces generalizing offset with
  | nil => cases h
  | cons piece pieces ih =>
    have hpos := piece.length_pos
    rw [octetsOf_cons, List.length_append]
    rcases List.mem_cons.mp h with rfl | h
    · dsimp only
      omega
    · have hbounds := ih h
      omega

/-- The packets that end at or before the end of some first ones are these. -/
theorem filter_placedFrom_append (front back : List FramedPacket) :
    ((placedFrom 0 (front ++ back)).filter fun (_, last) => last ≤ (octetsOf front).length).map
      Prod.fst = packetsOf front := by
  have hfront : (placedFrom 0 front).filter (fun (_, last) => last ≤ (octetsOf front).length) =
      placedFrom 0 front := by
    refine List.filter_eq_self.mpr fun item hitem => ?_
    have hbounds := bounds_of_mem_placedFrom hitem
    exact decide_eq_true (by omega)
  -- Those behind take octets, so they end later.
  have hback : (placedFrom (0 + (octetsOf front).length) back).filter
      (fun (_, last) => last ≤ (octetsOf front).length) = [] := by
    refine List.filter_eq_nil_iff.mpr fun item hitem => ?_
    have hbounds := bounds_of_mem_placedFrom hitem
    exact of_decide_eq_false (by simp; omega)
  rw [placedFrom_append, List.filter_append, hfront, hback, List.append_nil, map_fst_placedFrom]

/-- A place between two packets is the beginning or the end of a packet. -/
theorem eq_zero_or_mem_ends_iff {n : Nat} :
    (n = 0 ∨ n ∈ (placedFrom 0 pieces).map Prod.snd) ↔
      ∃ front back, pieces = front ++ back ∧ n = (octetsOf front).length := by
  constructor
  · have hends (offset : Nat) (h : n ∈ (placedFrom offset pieces).map Prod.snd) :
        ∃ front back, pieces = front ++ back ∧ n = offset + (octetsOf front).length := by
      induction pieces generalizing offset with
      | nil => cases h
      | cons piece pieces ih =>
        rcases List.mem_cons.mp h with rfl | h
        · exact ⟨[piece], pieces, rfl, by simp [octetsOf]⟩
        · obtain ⟨front, back, rfl, hn⟩ := ih _ h
          refine ⟨piece :: front, back, rfl, ?_⟩
          rw [octetsOf_cons, List.length_append]
          omega
    rintro (rfl | h)
    · exact ⟨[], pieces, rfl, rfl⟩
    · obtain ⟨front, back, hpieces, hn⟩ := hends 0 h
      exact ⟨front, back, hpieces, by omega⟩
  · rintro ⟨front, back, rfl, rfl⟩
    rcases List.eq_nil_or_concat front with rfl | ⟨init, piece, rfl⟩
    · exact .inl rfl
    · right
      rw [List.concat_eq_append, placedFrom_append, placedFrom_append, octetsOf_append]
      simp [placedFrom, octetsOf]

/-! ## Cutting and joining -/

/-- A beginning of framed packets is a stream only if it is the first of them. -/
theorem exists_eq_octetsOf_take {n : Nat} {packets : List RawPacket}
    (h : Stream ((octetsOf pieces).take n) packets) :
    ∃ front back, pieces = front ++ back ∧ (octetsOf pieces).take n = octetsOf front := by
  have hjoined := List.take_append_drop n (octetsOf pieces)
  rcases h.exists_pieces with ⟨front, htake, -⟩ | ⟨front, tag, body, htag, htake⟩
  · rw [htake] at hjoined
    obtain ⟨back, hpieces, -⟩ := exists_eq_append_of_octetsOf_eq hjoined.symm
    exact ⟨front, back, hpieces, htake⟩
  · -- A packet without a length at the cut would be one of the whole stream too.
    refine absurd ⟨front, tag, body ++ (octetsOf pieces).drop n, htag, ?_⟩
      (not_endsOpen_octetsOf pieces)
    rw [htake, List.append_assoc, List.cons_append] at hjoined
    exact hjoined.symm

/-- Framed packets that are cut are read if the cut is between two of them, as those in front of it,
and refused otherwise. -/
theorem readPackets_take_octetsOf {n : Nat} (hn : n ≤ (octetsOf pieces).length) :
    if n = 0 ∨ n ∈ (placedFrom 0 pieces).map Prod.snd then
      readPackets ((octetsOf pieces).take n) =
        .ok (((placedFrom 0 pieces).filter fun (_, last) => last ≤ n).map Prod.fst)
    else ∃ fault, readPackets ((octetsOf pieces).take n) = .error fault ∧
      fault.toFault.name = "PacketDecodeError" := by
  split
  · next hends =>
    obtain ⟨front, back, rfl, rfl⟩ := eq_zero_or_mem_ends_iff.mp hends
    rw [filter_placedFrom_append, octetsOf_append, List.take_left]
    exact packetsFrom_octetsOf _ front
  · next hinside =>
    cases hread : readPackets ((octetsOf pieces).take n) with
    | error fault => exact ⟨fault, rfl, rfl⟩
    | ok packets =>
      obtain ⟨front, back, hpieces, htake⟩ := exists_eq_octetsOf_take (packetsFrom_sound hread)
      refine absurd (eq_zero_or_mem_ends_iff.mpr ⟨front, back, hpieces, ?_⟩) hinside
      rw [← htake, List.length_take_of_le hn]

/-- What follows framed packets is read as it is read alone, and faults are reported behind them. -/
theorem readPackets_octetsOf_append (pieces : List FramedPacket) (more : Octets) :
    readPackets (octetsOf pieces ++ more) =
      ((readPackets more).map (packetsOf pieces ++ ·)).mapError
        (·.behind (octetsOf pieces).length) := by
  unfold readPackets
  rw [packetsFrom_octetsOf_append, List.length_append, packetsFrom_behind (Nat.le_refl _)]
  cases packetsFrom more.length more <;> rfl

/-- Let a stream be read in which every packet has its length, so that it is framed packets one after
the other. A beginning of it is read exactly if it ends where it begins or where a packet ends,
as the packets that end there or before, and refused with a decode fault otherwise. Whatever is put
behind it is read as it is read alone, so that the packets of both are one after the other, and it
is refused if the rest is refused alone, with the same fault behind the octets in front. -/
theorem readPackets_take_and_append {data : Octets} {packets : List RawPacket}
    (hread : readPackets data = .ok packets) (hlengths : ¬ EndsOpen data) :
    ∃ pieces : List FramedPacket, data = octetsOf pieces ∧ packets = packetsOf pieces ∧
      (∀ n ≤ data.length,
        if n = 0 ∨ n ∈ (placedFrom 0 pieces).map Prod.snd then
          readPackets (data.take n) =
            .ok (((placedFrom 0 pieces).filter fun (_, last) => last ≤ n).map Prod.fst)
        else ∃ fault, readPackets (data.take n) = .error fault ∧
          fault.toFault.name = "PacketDecodeError") ∧
      ∀ more, readPackets (data ++ more) =
        ((readPackets more).map (packets ++ ·)).mapError (·.behind data.length) := by
  rcases (packetsFrom_sound hread).exists_pieces with ⟨pieces, rfl, rfl⟩ | hopen
  · exact ⟨pieces, rfl, rfl, fun n => readPackets_take_octetsOf, readPackets_octetsOf_append pieces⟩
  · exact absurd hopen hlengths

/-- A user ID in two chunks and a signature of one octet in the old format. -/
def chunkedPieces : List FramedPacket :=
  [ ⟨newHeader 13 :: ([UInt8.ofNat (224 + 0)] ++ [0x41] ++ ([UInt8.ofNat 1] ++ [0x42])),
      ⟨((13 : Nat) : Binary64), [0x41] ++ [0x42]⟩,
      .new (by decide) (.chunk (.power (Nat.zero_le 30)) (.last (.oneOctet (by decide))))⟩,
    ⟨oldHeader 2 0 :: (Octets.ofNat (2 ^ 0) 1 ++ [0]), ⟨((2 : Nat) : Binary64), [0]⟩,
      @Framed.old 2 0 [0] (by decide) (by decide) (by decide)⟩ ]

/-- Behind two packets with their lengths, anything is read as it is read alone. -/
theorem readPackets_append_chunkedPieces :
    readPackets [0xCD, 0xE0, 0x41, 1, 0x42, 0x88, 1, 0] = .ok [⟨13, [0x41, 0x42]⟩, ⟨2, [0]⟩] ∧
      ¬ EndsOpen [0xCD, 0xE0, 0x41, 1, 0x42, 0x88, 1, 0] ∧
      ∀ more, readPackets ([0xCD, 0xE0, 0x41, 1, 0x42, 0x88, 1, 0] ++ more) =
        ((readPackets more).map ([⟨13, [0x41, 0x42]⟩, ⟨2, [0]⟩] ++ ·)).mapError (·.behind 8) := by
  have hread : readPackets [0xCD, 0xE0, 0x41, 1, 0x42, 0x88, 1, 0] =
      .ok [⟨13, [0x41, 0x42]⟩, ⟨2, [0]⟩] := packetsFrom_octetsOf _ chunkedPieces
  have hlengths : ¬ EndsOpen [0xCD, 0xE0, 0x41, 1, 0x42, 0x88, 1, 0] :=
    not_endsOpen_octetsOf chunkedPieces
  obtain ⟨-, -, -, -, hjoined⟩ := readPackets_take_and_append hread hlengths
  exact ⟨hread, hlengths, hjoined⟩

end Framing

end PgpInspect
