/- GID: Libofp/Packet/IcmpPayload
   digest: Where the decoder stops in a frame that it finds an ICMP type in: behind the ICMP header
     of the IPv4 packet. -/

import Libofp.Packet.ExtensionWalk
import Libofp.Packet.TcpValidity

set_option autoImplicit false

namespace Libofp.Packet.IcmpPayload

open Octets.ByteRange Octets.ByteList Octets.BigEndian
open Oxm.FieldTable Decoder PacketList ExtensionWalk TcpValidity

/-- The Ethernet type, behind a tag if there is one. -/
def etherType (frame : Bytes) : Nat :=
  if big16 frame 12 = DATALINK_8021Q then big16 frame 16 else big16 frame 12

/-- Where the ICMP header of an IPv4 packet ends. -/
def icmpEnd (pkt : Bytes) : Nat := (big8 pkt 0 &&& 0x0F) * 4 + 4

theorem icmpEnd_le (pkt : Bytes) : icmpEnd pkt ≤ 64 := by
  have most : big8 pkt 0 &&& 0x0F ≤ 0x0F := Nat.and_le_right
  rw [icmpEnd]
  omega

variable {s : MatchPacket} {pkt frame : Bytes}

private theorem leaves_addIPv4Fields (frag : Nat) :
    Leaves .icmpv4Type s (addIPv4Fields pkt frag s) := by
  have fields : Leaves .icmpv4Type s (s |>.addNonzero .ipDscp (big8 pkt 1 >>> 2)
      |>.addNonzero .ipEcn (big8 pkt 1 &&& 0x03) |>.addUnchecked .ipProto (window pkt 9 1)
      |>.addUnchecked .ipv4Src (window pkt 12 4) |>.addUnchecked .ipv4Dst (window pkt 16 4)) :=
    .addUnchecked (.addUnchecked (.addUnchecked (.addNonzero (.addNonzero (.refl _ s)
      _ (by decide)) _ (by decide)) _ (by decide)) _ (by decide)) _ (by decide)
  unfold addIPv4Fields
  split
  · exact .addUnchecked (fields.addUnchecked _ (by decide)) _ (by decide)
  · exact fields.addUnchecked _ (by decide)

private theorem icmp_of_nextHdr {nextHdr : Nat} (fresh : itemsOf .icmpv4Type s.list = [])
    (told : itemsOf .icmpv4Type (decodeIPv4NextHdr pkt nextHdr s).list ≠ []) :
    (decodeIPv4NextHdr pkt nextHdr s).offset = s.offset + 4 := by
  unfold decodeIPv4NextHdr at told ⊢
  split at told
  · unfold decodeICMPv4 at told ⊢
    split at told
    · exact absurd fresh told
    · next room =>
      rw [if_neg room]
      rfl
  · exact absurd (Leaves.fresh (leaves_decodeTCP (by decide) ..) fresh) told
  · exact absurd (Leaves.fresh (leaves_decodeUDP (by decide) ..) fresh) told
  · exact absurd fresh told

theorem offset_addNonzero (id : InternalId) (number : Nat) :
    (s.addNonzero id number).offset = s.offset := by
  unfold MatchPacket.addNonzero
  split <;> rfl

private theorem offset_addIPv4Fields (frag : Nat) :
    (addIPv4Fields pkt frag s).offset = s.offset := by
  unfold addIPv4Fields
  split <;> simp only [MatchPacket.addUnchecked, offset_addNonzero]

private theorem icmp_of_ipv4 (fresh : itemsOf .icmpv4Type s.list = [])
    (told : itemsOf .icmpv4Type (decodeIPv4 pkt s).list ≠ []) :
    (decodeIPv4 pkt s).offset = s.offset + icmpEnd pkt ∧ 24 ≤ icmpEnd pkt := by
  have fields (frag n : Nat) :
      itemsOf .icmpv4Type ((addIPv4Fields pkt frag s).advance n).list = [] :=
    (leaves_addIPv4Fields frag).fresh fresh
  unfold decodeIPv4 at told ⊢
  dsimp only at told ⊢
  split_ifs at told ⊢ with _ _ low _ _ later trimmed
  all_goals first
    | exact absurd fresh told
    | exact absurd (fields _ _) told
    | rw [icmp_of_nextHdr (fields _ _) told, MatchPacket.advance, offset_addIPv4Fields, icmpEnd]
  all_goals exact ⟨Nat.add_assoc .., by omega⟩

private theorem leaves_decodeIPv6 : Leaves .icmpv4Type s (decodeIPv6 pkt s) := by
  by_cases short : pkt.length < 40
  · rw [decodeIPv6, if_pos short]
    exact .refl _ s
  by_cases version : big32 pkt 0 >>> 28 = 6
  · have headed : IPv6Header (pkt.take 40) := by
      refine ⟨by rw [List.length_take]; omega, ?_⟩
      rwa [big32_take (by omega)]
    obtain ⟨s', leaves, same⟩ := decodeIPv6_header headed (pkt.drop 40) s
    rw [List.take_append_drop] at same
    rw [same]
    have walked := leaves_icmpv4Type (startWalk (pkt.drop 40) (big8 (pkt.take 40) 6) s')
    have start : Leaves .icmpv4Type s'
        (startWalk (pkt.drop 40) (big8 (pkt.take 40) 6) s').packet := by
      rw [startWalk]
      split
      · exact .addOrderedUnchecked (.refl _ _) _ (by decide)
      · exact .refl _ _
    exact (leaves _ (by decide)).trans (start.trans (walked.trans
      (leaves_reportFlags (by decide) _ _)))
  · rw [decodeIPv6, if_neg short]
    rw [if_pos version]
    exact .refl _ s

private theorem leaves_decodeARP : Leaves .icmpv4Type s (decodeARP pkt s) := by
  have fields : Leaves .icmpv4Type s (s |>.addUnchecked .arpOp (window pkt 6 2)
      |>.addUnchecked .arpSpa (window pkt 14 4) |>.addUnchecked .arpTpa (window pkt 24 4)
      |>.addUnchecked .arpSha (window pkt 8 6) |>.addUnchecked .arpTha (window pkt 18 6)) :=
    .addUnchecked (.addUnchecked (.addUnchecked (.addUnchecked (.addUnchecked (.refl _ s)
      _ (by decide)) _ (by decide)) _ (by decide)) _ (by decide)) _ (by decide)
  unfold decodeARP
  split
  · exact .refl _ s
  · split
    · exact .refl _ s
    · dsimp only
      split <;> exact fields

theorem leaves_decodeLLDP (pkt : Bytes) (s : MatchPacket) :
    Leaves .icmpv4Type s (decodeLLDP pkt s) := by
  have added (pkt : Bytes) (s : MatchPacket) : Leaves .icmpv4Type s (addTlv pkt s) := by
    rw [addTlv.eq_def]
    split
    all_goals first
      | exact .addUnchecked (.refl _ s) _ (by decide)
      | exact .refl _ s
  fun_induction decodeLLDP pkt s with
  | case5 pkt s _ _ jumpSize _ _ ih => exact ((added pkt s).advance jumpSize).trans ih
  | _ => exact .refl _ _

theorem icmp_of_ethType {type : Nat} (fresh : itemsOf .icmpv4Type s.list = [])
    (told : itemsOf .icmpv4Type (decodeEthType type pkt s).list ≠ []) :
    type = DATALINK_IPV4 ∧ (decodeEthType type pkt s).offset = s.offset + icmpEnd pkt ∧
      24 ≤ icmpEnd pkt := by
  have typed : Leaves .icmpv4Type s (s.addUnchecked .ethType (bigBytes 2 type)) :=
    .addUnchecked (.refl _ s) _ (by decide)
  unfold decodeEthType at told ⊢
  split at told
  · exact absurd ((typed.trans leaves_decodeARP).fresh fresh) told
  · exact ⟨rfl, icmp_of_ipv4 (typed.fresh fresh) told⟩
  · exact absurd ((typed.trans leaves_decodeIPv6).fresh fresh) told
  · exact absurd ((typed.trans (leaves_decodeLLDP ..)).fresh fresh) told
  · exact absurd ((typed.trans (leaves_decodeLLDP ..)).fresh fresh) told
  · exact absurd (typed.fresh fresh) told

/-- A frame with an ICMP type is an IPv4 packet, and the decoder has stopped behind its ICMP
header. -/
theorem icmp_of_frame (told : itemsOf .icmpv4Type (decodeEthernet frame ⟨[], 0⟩).list ≠ []) :
    etherType frame = DATALINK_IPV4 ∧ 24 ≤ icmpEnd (ipPacket frame) ∧
      ∃ start, (decodeEthernet frame ⟨[], 0⟩).offset = start + icmpEnd (ipPacket frame) ∧
        ipPacket frame = frame.drop start ∧ 14 ≤ start ∧ start ≤ 18 := by
  let s := (MatchPacket.mk [] 0) |>.addUnchecked .ethDst (window frame 0 6)
    |>.addUnchecked .ethSrc (window frame 6 6) |>.advance 14
  have addresses : Leaves .icmpv4Type ⟨[], 0⟩ s :=
    .addUnchecked (.addUnchecked (.refl _ _) _ (by decide)) _ (by decide)
  have start : itemsOf .icmpv4Type (MatchPacket.mk [] 0).list = [] := rfl
  unfold decodeEthernet at told ⊢
  split_ifs at told ⊢
  · exact absurd start told
  rw [etherType, ipPacket]
  dsimp only at told ⊢
  split_ifs at told ⊢
  · unfold decodeVlan at told ⊢
    split_ifs at told ⊢
    · exact absurd ((addresses.addUnchecked _ (by decide)).fresh start) told
    · have tag (vid pcp : Nat) : itemsOf .icmpv4Type (s |>.addUnchecked .vlanVid (bigBytes 2 vid)
          |>.addNonzero .vlanPcp pcp |>.advance 4).list = [] :=
        ((addresses.addUnchecked _ (by decide)).addNonzero _ (by decide)).fresh start
      rw [List.drop_drop] at told ⊢
      obtain ⟨type, stop, least⟩ := icmp_of_ethType (tag _ _) told
      rw [big16_drop] at type
      refine ⟨type, least, 18, stop.trans ?_, rfl, by omega, by omega⟩
      rw [MatchPacket.advance, offset_addNonzero]
      rfl
  · obtain ⟨type, stop, least⟩ := icmp_of_ethType (addresses.fresh start) told
    exact ⟨type, least, 14, stop, rfl, by omega, by omega⟩

end Libofp.Packet.IcmpPayload
