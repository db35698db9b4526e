import PgpInspect.Inspection
import PgpInspect.Proofs.Assembly.Run
import PgpInspect.Proofs.Cut
import PgpInspect.Proofs.Packet.View

/-!
# Key blocks are independent

A stream is cut in front of every packet with the tag of a primary key. What the whole stream is
interpreted as is what its pieces are interpreted as, one after the other: nothing that the pass
keeps, and nothing that is derived after it, reaches over a cut. A piece has at most one key.
-/

namespace PgpInspect

open Assembly (after isPrimaryTag)

/-- Whether a packet has the tag of a primary key, so that a stream is cut in front of it. -/
def RawPacket.startsBlock (packet : RawPacket) : Bool := packet.tag = 5 || packet.tag = 6

/-- The keys that a stream of packets is interpreted as. -/
def interpretedKeys (now : Binary64) (claim : Option IdentityClaim) (packets : List RawPacket) :
    List Key :=
  (interpretRecords (packets.map PacketRecord.ofPacket) now claim).1

/-- Keys are derived one by one. -/
theorem interpretedKeys_eq_map (now : Binary64) (claim : Option IdentityClaim)
    (packets : List RawPacket) :
    interpretedKeys now claim packets =
      (assembleKeys (packets.map PacketRecord.ofPacket)).1.map fun key => key.derive now claim :=
  rfl

/-! ## Pieces of a stream of records -/

/-- A block on its own gives at most one key. -/
theorem length_assembleKeys_block {record : PacketRecord} {rest : List PacketRecord}
    (hrest : ∀ other ∈ rest, other.opensBlock = false) (hrecord : record.opensBlock = true) :
    (assembleKeys (record :: rest)).1.length ≤ 1 := by
  obtain ⟨hclosed, -⟩ := Assembly.after_of_not_opensBlock hrest ⟨[], record.openedBlock⟩
  rw [Assembly.assembleKeys_fst, Assembly.after_cons, Assembly.advance_of_opensBlock hrecord]
  have hkeys : ({} : Assembly).keys = [] := rfl
  rw [hkeys, Assembly.keys, hclosed, List.nil_append, Option.length_toList]
  split_ifs <;> simp

/-- The records in front of the first block give no key. -/
theorem assembleKeys_lead {records : List PacketRecord}
    (h : ∀ record ∈ records, record.opensBlock = false) : (assembleKeys records).1 = [] := by
  obtain ⟨hclosed, hblock⟩ := Assembly.after_of_not_opensBlock h {}
  rw [Assembly.assembleKeys_fst, Assembly.keys, hclosed]
  have hnone : (({} : Assembly).after records).block = none := by simpa using hblock
  rw [hnone]
  rfl

/-- Blocks add their keys to those of the state in front of them. -/
theorem keys_after_flatten {blocks : List (List PacketRecord)}
    (h : ∀ block ∈ blocks, ∃ record rest, block = record :: rest ∧ record.opensBlock = true)
    (assembly : Assembly) :
    (assembly.after blocks.flatten).keys =
      assembly.keys ++ blocks.flatMap fun block => (assembleKeys block).1 := by
  induction blocks generalizing assembly with
  | nil => simp
  | cons block more ih =>
    obtain ⟨⟨record, rest, rfl, hrecord⟩, hmore⟩ := List.forall_mem_cons.mp h
    rw [List.flatten_cons, Assembly.after_append, ih hmore,
      Assembly.keys_after_of_opensBlock hrecord, List.flatMap_cons, Assembly.assembleKeys_fst,
      List.append_assoc]

/-- The keys of a stream of records are those of its pieces. -/
theorem assembleKeys_eq_flatMap_pieces (records : List PacketRecord) :
    (assembleKeys records).1 =
      (Cut.pieces PacketRecord.opensBlock records).flatMap fun piece => (assembleKeys piece).1 := by
  have hblocks : ∀ block ∈ Cut.blocks PacketRecord.opensBlock records,
      ∃ record rest, block = record :: rest ∧ record.opensBlock = true := by
    intro block hblock
    obtain ⟨record, rest, heq, hopens, -⟩ := Cut.exists_of_mem_blocks _ hblock
    exact ⟨record, rest, heq, hopens⟩
  conv_lhs => rw [← Cut.flatten_pieces PacketRecord.opensBlock records]
  rw [Cut.pieces, List.flatten_cons, List.flatMap_cons, Assembly.assembleKeys_fst,
    Assembly.after_append, keys_after_flatten hblocks, ← Assembly.assembleKeys_fst]

/-- A piece of a stream of records gives at most one key. -/
theorem length_assembleKeys_piece {records piece : List PacketRecord}
    (h : piece ∈ Cut.pieces PacketRecord.opensBlock records) :
    (assembleKeys piece).1.length ≤ 1 := by
  rcases List.mem_cons.mp h with rfl | h
  · rw [assembleKeys_lead fun _ => Cut.not_opens_of_mem_lead _]
    exact Nat.zero_le 1
  · obtain ⟨record, rest, rfl, hopens, hrest⟩ := Cut.exists_of_mem_blocks _ h
    exact length_assembleKeys_block hrest hopens

/-! ## Pieces of a stream of packets -/

/-- A key packet closes the block in front of it exactly if it is not the packet of a subkey,
whether it can be viewed or not. -/
theorem opensBlock_keyView (packet : RawPacket)
    (htag : packet.tag = 6 ∨ packet.tag = 14 ∨ packet.tag = 5 ∨ packet.tag = 7) :
    (PacketRecord.ofView packet.tag .publicKey (PublicKey.ofPacket packet)).opensBlock =
      packet.startsBlock := by
  cases hview : PublicKey.ofPacket packet with
  | error fault =>
    simp only [PacketRecord.ofView, PacketRecord.opensBlock, isPrimaryTag, RawPacket.startsBlock,
      Bool.or_comm]
  | ok key =>
    have hsubkey := (PublicKey.tag_of_ofPacket hview).2
    simp only [PacketRecord.ofView, PacketRecord.opensBlock, hsubkey, RawPacket.startsBlock]
    rcases htag with h | h | h | h <;> rw [h] <;> decide

/-- A packet closes the block in front of it exactly by its tag, whatever is in its body. -/
theorem opensBlock_ofPacket (packet : RawPacket) :
    (PacketRecord.ofPacket packet).opensBlock = packet.startsBlock := by
  have htag (n : Int) : packet.tag.toInt? = some n → packet.tag = (n : Binary64) :=
    Binary64.toInt?_eq_some_iff.mp
  unfold PacketRecord.ofPacket
  split
  · next h => exact opensBlock_keyView packet (.inl (htag 6 h))
  · next h => exact opensBlock_keyView packet (.inr (.inl (htag 14 h)))
  · next h => exact opensBlock_keyView packet (.inr (.inr (.inl (htag 5 h))))
  · next h => exact opensBlock_keyView packet (.inr (.inr (.inr (htag 7 h))))
  · next h =>
    rw [RawPacket.startsBlock, htag 13 h]
    rfl
  · next h =>
    rw [RawPacket.startsBlock, htag 2 h]
    cases Signature.ofPacket packet <;> rfl
  · next hsix _ hfive _ _ _ =>
    have h5 : packet.tag ≠ 5 := by
      intro h
      apply hfive
      rw [h]
      rfl
    have h6 : packet.tag ≠ 6 := by
      intro h
      apply hsix
      rw [h]
      rfl
    simp [PacketRecord.opensBlock, RawPacket.startsBlock, h5, h6]

/-- The keys of packets are those of their pieces. -/
theorem interpretedKeys_eq_flatMap_pieces (now : Binary64) (claim : Option IdentityClaim)
    (packets : List RawPacket) :
    interpretedKeys now claim packets =
      (Cut.pieces RawPacket.startsBlock packets).flatMap (interpretedKeys now claim) := by
  have hpieces := Cut.pieces_map RawPacket.startsBlock opensBlock_ofPacket packets
  rw [interpretedKeys_eq_map, assembleKeys_eq_flatMap_pieces, hpieces, List.flatMap_map,
    List.map_flatMap]
  rfl

/-- A piece of a stream of packets has at most one key. -/
theorem length_interpretedKeys_piece (now : Binary64) (claim : Option IdentityClaim)
    {packets piece : List RawPacket} (h : piece ∈ Cut.pieces RawPacket.startsBlock packets) :
    (interpretedKeys now claim piece).length ≤ 1 := by
  have hpieces := Cut.pieces_map RawPacket.startsBlock opensBlock_ofPacket packets
  have hpiece : piece.map PacketRecord.ofPacket ∈
      Cut.pieces PacketRecord.opensBlock (packets.map PacketRecord.ofPacket) := by
    rw [hpieces]
    exact List.mem_map_of_mem h
  rw [interpretedKeys_eq_map, List.length_map]
  exact length_assembleKeys_piece hpiece

/-- A stream of packets, cut in front of each with the tag of a primary key, is interpreted as its
pieces are, one after the other. A piece has at most one key, and that in front of the first cut
has none. Hence another body for one packet, be it one that can be viewed or not, puts at most one
key in place of the at most one key of the piece of that packet, and leaves all others. -/
theorem interpretedKeys_pieces (now : Binary64) (claim : Option IdentityClaim)
    (packets : List RawPacket) :
    interpretedKeys now claim packets =
        ((Cut.pieces RawPacket.startsBlock packets).map (interpretedKeys now claim)).flatten ∧
      (∀ piece ∈ Cut.pieces RawPacket.startsBlock packets,
        (interpretedKeys now claim piece).length ≤ 1) ∧
      interpretedKeys now claim (Cut.lead RawPacket.startsBlock packets) = [] ∧
      ∀ position body, ∃ own, own.length ≤ 1 ∧
        interpretedKeys now claim (packets.modify position ({ · with body })) =
          (((Cut.pieces RawPacket.startsBlock packets).map (interpretedKeys now claim)).set
            (Cut.pieceIndex RawPacket.startsBlock packets position) own).flatten := by
  have hflatMap (packets : List RawPacket) : interpretedKeys now claim packets =
      ((Cut.pieces RawPacket.startsBlock packets).map (interpretedKeys now claim)).flatten := by
    rw [interpretedKeys_eq_flatMap_pieces, List.flatMap_def]
  refine ⟨hflatMap packets, fun _ => length_interpretedKeys_piece now claim, ?_, ?_⟩
  · have hlead : ∀ record ∈ (Cut.lead RawPacket.startsBlock packets).map PacketRecord.ofPacket,
        record.opensBlock = false := by
      intro record hrecord
      obtain ⟨packet, hpacket, rfl⟩ := List.mem_map.mp hrecord
      rw [opensBlock_ofPacket]
      exact Cut.not_opens_of_mem_lead _ hpacket
    rw [interpretedKeys_eq_map, assembleKeys_lead hlead, List.map_nil]
  · intro position body
    obtain ⟨piece, hpiece⟩ := Cut.pieces_modify RawPacket.startsBlock
      (f := fun packet => { packet with body }) (fun _ => rfl) packets position
    have hmem : piece ∈ Cut.pieces RawPacket.startsBlock
        (packets.modify position ({ · with body })) := by
      rw [hpiece]
      exact List.mem_set (Cut.pieceIndex_lt_length _ _ _) piece
    refine ⟨interpretedKeys now claim piece, length_interpretedKeys_piece now claim hmem, ?_⟩
    rw [hflatMap, hpiece, List.map_set]

end PgpInspect
