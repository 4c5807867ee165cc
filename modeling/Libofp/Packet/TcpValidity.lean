/- GID: Libofp/Packet/TcpValidity
   digest: What is right and what is wrong with a TCP packet of the builder. -/

import Libofp.Demux.MessageFraming
import Libofp.Packet.FieldAssignment
import Libofp.Packet.InternetChecksum

set_option autoImplicit false

namespace Libofp.Packet.TcpValidity

open Octets.ByteRange Octets.ByteList Octets.BigEndian Octets.Fixed
open Base.OnesComplement Decoder InternetChecksum
open FrameBuilder FrameBuilder.MatchPacketBuilder Demux.MessageFraming
open Oxm.Field (Host)

section

variable (frame : Bytes)

def ipPacket : Bytes := frame.drop (if big16 frame 12 = DATALINK_8021Q then 18 else 14)

def ipHeader : Bytes := (ipPacket frame).take ((big8 (ipPacket frame) 0 &&& 0x0F) * 4)

def segment : Bytes :=
  ((ipPacket frame).take (big16 (ipPacket frame) 2)).drop ((big8 (ipPacket frame) 0 &&& 0x0F) * 4)

def tcpPseudoHdr : Bytes :=
  window (ipHeader frame) 12 8 ++ (0 :: window (ipHeader frame) 9 1 ++
    bigBytes 2 (segment frame).length)

/-- The header length that `submitTCP` accepts. -/
def OffsetAccepted : Prop :=
  ∃ tcp, TCPHdr.cast (segment frame) = some tcp ∧ sizeofTCPHdr ≤ tcp.headerLength ∧
    tcp.headerLength ≤ (segment frame).length

/-- A TCP packet that a receiver accepts. A checksum verifies when the words it covers, itself
among them, sum to 0xFFFF. -/
structure ValidTcp : Prop where
  ipChecksum : wordSum (ipHeader frame) = 0xFFFF
  tcpChecksum : wordSum (tcpPseudoHdr frame ++ segment frame) = 0xFFFF
  offset : OffsetAccepted frame

end

section

variable {host : Host} {b : MatchPacketBuilder} {data : Part}

structure IsTcp (b : MatchPacketBuilder) (data : Part) : Prop where
  ethType : b.ethType.toNat = DATALINK_IPV4
  ipProto : b.ipProto.toNat = PROTOCOL_TCP
  fits : 20 + (20 + data.data.length) ≤ 65535

def builtSegment (host : Host) (b : MatchPacketBuilder) (data : Part) : Bytes :=
  b.tcpHdr (checksum host [⟨b.tcpHdr [0, 0], true⟩, data]).bytes ++ data.data

private theorem length_builtSegment :
    (builtSegment host b data).length = 20 + data.data.length := by
  simp only [builtSegment, tcpHdr, List.length_append, length_bigBytes, List.length_replicate,
    ByteBlock.length_bytes]

theorem length_addIPv4 (length : Nat) : (b.addIPv4 host length).length = 20 := by
  simp [addIPv4, ipv4Hdr, length_bigBytes, ByteBlock.length_bytes]

theorem ipPacket_addEthernet (plain : b.ethType.toNat ≠ DATALINK_8021Q) (rest : Bytes) :
    ipPacket (b.addEthernet ++ rest) = rest := by
  have small := b.ethType.toNat_lt
  rw [ipPacket, addEthernet]
  split
  · have type : big16 (b.ethDst.bytes ++ (b.ethSrc.bytes ++ bigBytes 2 b.ethType.toNat) ++
        rest) 12 = b.ethType.toNat := by
      rw [List.append_assoc, List.append_assoc, ← List.append_assoc, big16_within _ (by simp),
        Nat.mod_eq_of_lt small]
    rw [type, if_neg plain]
    exact List.drop_left' (by simp)
  · generalize b.vlanPcp.toNat <<< 13 ||| (b.vlanVid.toNat &&& 0x0fff) = tci
    have type : big16 (b.ethDst.bytes ++ (b.ethSrc.bytes ++ (bigBytes 2 DATALINK_8021Q ++
        (bigBytes 2 tci ++ bigBytes 2 b.ethType.toNat))) ++ rest) 12 = DATALINK_8021Q := by
      simp only [List.append_assoc]
      rw [← List.append_assoc]
      exact big16_within _ (by simp)
    rw [type, if_pos rfl]
    exact List.drop_left' (by simp)

theorem ipPacket_build (tcp : IsTcp b data) : ∃ pad, ipPacket (b.build host data) =
    b.addIPv4 host (20 + data.data.length) ++ (builtSegment host b data ++ pad) := by
  have plain : b.ethType.toNat ≠ DATALINK_8021Q := by
    rw [tcp.ethType]
    decide
  simp only [MatchPacketBuilder.build, tcp.ethType, buildIPv4, tcp.ipProto, buildTCPv4]
  rw [List.append_assoc, ipPacket_addEthernet plain, List.append_assoc]
  exact ⟨_, rfl⟩

theorem addIPv4_parts {length : Nat} (fits : 20 + length ≤ 65535) (rest : Bytes) :
    (big8 (b.addIPv4 host length ++ rest) 0 &&& 0x0F) * 4 = 20 ∧
      big16 (b.addIPv4 host length ++ rest) 2 = 20 + length := by
  rw [addIPv4, ipv4Hdr]
  simp only [List.append_assoc]
  refine ⟨?_, ?_⟩
  · rw [big8_here]
    rfl
  · simp [big16_skip, big16_here]
    omega

theorem segment_build (tcp : IsTcp b data) :
    segment (b.build host data) = builtSegment host b data := by
  obtain ⟨pad, packet⟩ := @ipPacket_build host b data tcp
  obtain ⟨header, total⟩ := @addIPv4_parts host b _ tcp.fits (builtSegment host b data ++ pad)
  have front := @length_addIPv4 host b (20 + data.data.length)
  have size := @length_builtSegment host b data
  rw [segment, packet, header, total, ← List.append_assoc,
    List.take_left' (by rw [List.length_append, front, size])]
  exact List.drop_left' front

private theorem ipHeader_build (tcp : IsTcp b data) :
    ipHeader (b.build host data) = b.addIPv4 host (20 + data.data.length) := by
  obtain ⟨pad, packet⟩ := @ipPacket_build host b data tcp
  obtain ⟨header, -⟩ := @addIPv4_parts host b _ tcp.fits (builtSegment host b data ++ pad)
  rw [ipHeader, packet, header]
  exact List.take_left' (length_addIPv4 _)

theorem not_offsetAccepted (tcp : IsTcp b data) : ¬ OffsetAccepted (b.build host data) := by
  rintro ⟨header, is, long, -⟩
  have flags : big16 (segment (b.build host data)) 12 = 0 := by
    rw [segment_build tcp, builtSegment, tcpHdr]
    simp only [List.append_assoc]
    rw [big16_skip _ (by simp), big16_skip _ (by simp), length_bigBytes, length_bigBytes,
      big16_append _ (by simp)]
    rfl
  rw [TCPHdr.cast] at is
  split at is
  · cases is
  · obtain rfl := Option.some.inj is
    rw [TCPHdr.headerLength, flags] at long
    simp [sizeofTCPHdr] at long

private theorem ipv4Hdr_split (b : MatchPacketBuilder) (length : Nat) : ∃ front : Bytes,
    front.length = 10 ∧ ∀ cksum, b.ipv4Hdr length cksum =
      front ++ (cksum ++ (b.ipv4Src.bytes ++ b.ipv4Dst.bytes)) := by
  refine ⟨bigBytes 1 0x45 ++ (bigBytes 1 0 ++ (bigBytes 2 (20 + length) ++ (bigBytes 2 0 ++
    (bigBytes 2 0 ++ (bigBytes 1 b.ttl.toNat ++ bigBytes 1 b.ipProto.toNat))))), ?_, ?_⟩
  · simp
  · intro cksum
    simp [ipv4Hdr]

private theorem tcpHdr_split (b : MatchPacketBuilder) : ∃ front : Bytes,
    front.length = 16 ∧ ∀ cksum, b.tcpHdr cksum = front ++ (cksum ++ List.replicate 2 0) := by
  refine ⟨bigBytes 2 b.srcPort.toNat ++ (bigBytes 2 b.dstPort.toNat ++ List.replicate 12 0),
    ?_, ?_⟩
  · simp
  · intro cksum
    simp [tcpHdr]

private theorem wordSum_addIPv4 (host : Host) (b : MatchPacketBuilder) (length : Nat) :
    wordSum (b.addIPv4 host length) = 0xFFFF := by
  obtain ⟨front, size, header⟩ := ipv4Hdr_split b length
  have short : (b.ipv4Hdr length [0, 0]).length ≤ 65535 := by
    rw [header]
    simp [size]
  rw [addIPv4, header]
  refine wordSum_stored host ?_ ?_ (by rw [size])
  · intro part listed
    rwa [List.mem_singleton.mp listed]
  · simp [header]

private theorem wordSum_builtSegment (host : Host) (b : MatchPacketBuilder) {data : Part}
    (fits : 20 + (20 + data.data.length) ≤ 65535) :
    wordSum (builtSegment host b data) = 0xFFFF := by
  obtain ⟨front, size, header⟩ := tcpHdr_split b
  have short : (b.tcpHdr [0, 0]).length ≤ 65535 := by
    rw [header]
    simp [size]
  rw [builtSegment, header, List.append_assoc, List.append_assoc]
  refine wordSum_stored host ?_ ?_ (by rw [size])
  · intro part listed
    simp only [List.mem_cons, List.not_mem_nil, or_false] at listed
    rcases listed with rfl | rfl
    · exact short
    · omega
  · simp [header]

/-- The checksum of the IPv4 header is right. That of the segment leaves out the pseudo header,
so it is right when the pseudo header counts as zero. -/
theorem checksums_of_build (tcp : IsTcp b data) :
    wordSum (ipHeader (b.build host data)) = 0xFFFF ∧
      (wordSum (tcpPseudoHdr (b.build host data) ++ segment (b.build host data)) = 0xFFFF ↔
        weigh false (tcpPseudoHdr (b.build host data)) % 65535 = 0) := by
  have header := @ipHeader_build host b data tcp
  have size := @length_addIPv4 host b (20 + data.data.length)
  have pseudo : (tcpPseudoHdr (b.build host data)).length % 2 = 0 := by
    have addresses : (window (b.addIPv4 host (20 + data.data.length)) 12 8).length = 8 :=
      length_window _ (by omega)
    have proto : (window (b.addIPv4 host (20 + data.data.length)) 9 1).length = 1 :=
      length_window _ (by omega)
    simp [tcpPseudoHdr, header, length_bigBytes, addresses, proto]
  refine ⟨?_, wordSum_append_full pseudo ?_⟩
  · rw [header, wordSum_addIPv4]
  · rw [segment_build tcp, wordSum_builtSegment host b tcp.fits]

end

open BuilderMembers FieldAssignment
open Match.Builder (toRange)

/-- No TCP packet that is built of OXM fields is valid: its data offset is zero. -/
theorem built_never_valid (range : Bytes) (host : Host) (data : Part)
    (tcp : IsTcp (ofRange range) data) : ¬ ValidTcp ((ofRange range).build host data) := by
  intro valid
  exact not_offsetAccepted tcp valid.offset

theorem isTcp_taggedTcp : IsTcp (ofRange (toRange (itemsFor Assignment.taggedTcp.fields)))
    ⟨[1, 2, 3], true⟩ where
  ethType := @Assignment.ethType_eq Assignment.taggedTcp DATALINK_IPV4 (by decide) (by decide)
  ipProto := @Assignment.ipProto_eq Assignment.taggedTcp PROTOCOL_TCP (by decide) (by decide)
  fits := by decide

theorem checksums_of_build_tagged :
    let frame := (ofRange (toRange (itemsFor Assignment.taggedTcp.fields))).build .little
      ⟨[1, 2, 3], true⟩
    wordSum (ipHeader frame) = 0xFFFF ∧ wordSum (tcpPseudoHdr frame ++ segment frame) ≠ 0xFFFF := by
  intro frame
  obtain ⟨header, pseudo⟩ := @checksums_of_build .little _ _ isTcp_taggedTcp
  exact ⟨header, fun verifies => absurd (pseudo.mp verifies) (by decide +kernel)⟩

theorem built_never_valid_tagged :
    IsTcp (ofRange (toRange (itemsFor Assignment.taggedTcp.fields))) ⟨[1, 2, 3], true⟩ ∧
      ¬ ValidTcp ((ofRange (toRange (itemsFor Assignment.taggedTcp.fields))).build .little
        ⟨[1, 2, 3], true⟩) :=
  ⟨isTcp_taggedTcp, built_never_valid _ .little ⟨[1, 2, 3], true⟩ isTcp_taggedTcp⟩

/-- A field assignment and a payload whose packet `submitTCP` does not accept. -/
theorem tagged_packet_refused :
    IsTcp (ofRange (toRange (itemsFor Assignment.taggedTcp.fields))) ⟨[1, 2, 3], true⟩ ∧
      ¬ OffsetAccepted ((ofRange (toRange (itemsFor Assignment.taggedTcp.fields))).build .big
        ⟨[1, 2, 3], true⟩) ∧
      ¬ ValidTcp ((ofRange (toRange (itemsFor Assignment.taggedTcp.fields))).build .big
        ⟨[1, 2, 3], true⟩) :=
  ⟨isTcp_taggedTcp, not_offsetAccepted isTcp_taggedTcp,
    fun valid => not_offsetAccepted isTcp_taggedTcp valid.offset⟩

end Libofp.Packet.TcpValidity
