/- GID: Libofp/Rpc/FilterTable
   digest: Filters of packet-in messages: the action that answers echo requests, and the table
     whose first entry that matches a message handles it. -/

import Libofp.Packet.IcmpPayload
import Libofp.Rpc.RateLimiter

set_option autoImplicit false

namespace Libofp.Rpc.FilterTable

open Octets.ByteRange Octets.ByteList Octets.BigEndian Octets.Fixed Base.OnesComplement
open Oxm.Range Oxm.FieldTable Packet.Decoder Packet.WellFormed Packet.BuilderMembers
open Packet.FrameBuilder Packet.FrameBuilder.MatchPacketBuilder Packet.FieldAssignment
open Packet.TcpValidity Packet.InternetChecksum Packet.PacketList Packet.IcmpPayload
open Match.Builder (toRange)
open Oxm.Field (Host)

/-- `OXMRange::get`, on the fields of the list. -/
def get (oxm : List Item) (id : InternalId) : Bytes :=
  let payload := (oxm.find? (·.type == id.type)).elim [] Item.payload
  (ByteBlock.copy (valueSize id) (if id.isExperimenter then payload.drop 4 else payload)).bytes

/-- `OXMRange::exists`. -/
def has (oxm : List Item) (id : InternalId) : Bool := oxm.any (·.type == id.type)

/-- The list that `FilterActionGenericReply::buildICMPv4` makes. -/
def replyFields (oxm : List Item) : List (InternalId × Bytes) :=
  [(.ethType, bigBytes 2 DATALINK_IPV4), (.ethDst, get oxm .ethSrc), (.ethSrc, get oxm .ethDst)] ++
    ((if bigNat (get oxm .vlanVid) ≠ 0 then [(.vlanVid, get oxm .vlanVid)] else []) ++
      [(.ipProto, bigBytes 1 PROTOCOL_ICMP), (.ipv4Src, get oxm .ipv4Dst),
        (.ipv4Dst, get oxm .ipv4Src), (.icmpv4Type, bigBytes 1 0), (.icmpv4Code, bigBytes 1 0)])

/-- The payload in `FilterActionGenericReply::buildICMPv4`. -/
def payload (enetFrame : Bytes) (oxm : List Item) : Bytes :=
  let offset := bigNat (get oxm .xPktPos)
  if 0 < offset then safeByteRange enetFrame offset else []

section

variable (host : Host) (aligned : Bool)

def buildICMPv4 (enetFrame : Bytes) (oxm : List Item) : Option Bytes :=
  if big8 (get oxm .ethSrc) 0 &&& 1 ≠ 0 then none
  else
    some ((ofRange (toRange (itemsFor (replyFields oxm)))).build host
      ⟨payload enetFrame oxm, aligned⟩)

def applyICMPv4 (enetFrame : Bytes) (oxm : List Item) : Option Bytes :=
  if bigNat (get oxm .icmpv4Type) ≠ 8 ∨ bigNat (get oxm .icmpv4Code) ≠ 0 then none
  else buildICMPv4 host aligned enetFrame oxm

/-- `FilterActionGenericReply::apply`: the frame that is sent back. ICMPv6 is not answered. -/
def genericReply (enetFrame : Bytes) : Option Bytes :=
  let oxm := (decode enetFrame).list
  if has oxm .icmpv4Type then applyICMPv4 host aligned enetFrame oxm else none

end

/-- The types of the fields, in the order of the list. -/
def Typed (ids : List InternalId) (s : MatchPacket) : Prop :=
  (s.list.map Item.type).Sublist (ids.map InternalId.type)

namespace Typed

variable {ids : List InternalId} {s : MatchPacket} {frame pkt : Bytes}

theorem skip (typed : Typed ids s) (more : List InternalId) : Typed (ids ++ more) s := by
  rw [Typed, List.map_append]
  exact List.Sublist.trans typed (List.sublist_append_left ..)

theorem addUnchecked (typed : Typed ids s) (id : InternalId) (value : Bytes) :
    Typed (ids ++ [id]) (s.addUnchecked id value) := by
  rw [Typed, MatchPacket.addUnchecked, List.map_append, List.map_append]
  exact List.Sublist.append typed (List.Sublist.refl _)

theorem addNonzero (typed : Typed ids s) (id : InternalId) (value : Nat) :
    Typed (ids ++ [id]) (s.addNonzero id value) := by
  rw [MatchPacket.addNonzero]
  split
  · exact typed.addUnchecked ..
  · exact typed.skip _

theorem advance (typed : Typed ids s) (n : Nat) : Typed ids (s.advance n) := typed

/-- The fields behind an IPv4 header. -/
def upper : List InternalId :=
  [.icmpv4Type, .icmpv4Code, .tcpSrc, .tcpDst, .nxTcpFlags, .udpSrc, .udpDst]

theorem nextHdr (typed : Typed ids s) (number : Nat) :
    Typed (ids ++ upper) (decodeIPv4NextHdr pkt number s) := by
  unfold decodeIPv4NextHdr decodeICMPv4 decodeTCP decodeUDP
  split
  · split
    · exact typed.skip _
    · simpa [upper] using (((typed.addUnchecked .icmpv4Type _).addUnchecked .icmpv4Code _).skip
        [.tcpSrc, .tcpDst, .nxTcpFlags, .udpSrc, .udpDst]).advance 4
  · split
    · exact typed.skip _
    · have behind := typed.skip [.icmpv4Type, .icmpv4Code]
      simpa [upper] using ((((behind.addUnchecked .tcpSrc _).addUnchecked .tcpDst _).addUnchecked
        .nxTcpFlags _).skip [.udpSrc, .udpDst]).advance 20
  · split
    · exact typed.skip _
    · simpa [upper] using (((typed.skip [.icmpv4Type, .icmpv4Code, .tcpSrc, .tcpDst,
        .nxTcpFlags]).addUnchecked .udpSrc _).addUnchecked .udpDst _).advance 8
  · exact typed.skip _

def lower : List InternalId :=
  [.ipDscp, .ipEcn, .ipProto, .ipv4Src, .ipv4Dst, .nxIpFrag, .nxIpTtl]

theorem ipv4Fields (typed : Typed ids s) (frag : Nat) :
    Typed (ids ++ lower) (addIPv4Fields pkt frag s) := by
  have addresses := ((((typed.addNonzero .ipDscp (big8 pkt 1 >>> 2)).addNonzero .ipEcn
    (big8 pkt 1 &&& 0x03)).addUnchecked .ipProto (window pkt 9 1)).addUnchecked .ipv4Src
      (window pkt 12 4)).addUnchecked .ipv4Dst (window pkt 16 4)
  unfold addIPv4Fields
  split
  · simpa [lower] using (addresses.addUnchecked .nxIpFrag _).addUnchecked .nxIpTtl _
  · simpa [lower] using (addresses.skip [.nxIpFrag]).addUnchecked .nxIpTtl _

theorem ipv4 (typed : Typed ids s) : Typed (ids ++ (lower ++ upper)) (decodeIPv4 pkt s) := by
  unfold decodeIPv4
  dsimp only
  split_ifs
  all_goals first
    | exact typed.skip _
    | (rw [← List.append_assoc]; exact ((typed.ipv4Fields _).advance _).skip _)
    | (rw [← List.append_assoc]; exact ((typed.ipv4Fields _).advance _).nextHdr _)

theorem ethType (typed : Typed ids s) : Typed (ids ++ (.ethType :: (lower ++ upper)))
    (decodeEthType DATALINK_IPV4 pkt s) := by
  have next := @ipv4 _ _ pkt (typed.addUnchecked .ethType (bigBytes 2 DATALINK_IPV4))
  rwa [List.append_assoc] at next

end Typed

def frameIds : List InternalId :=
  [.ethDst, .ethSrc, .vlanVid, .vlanPcp] ++ (.ethType :: (Typed.lower ++ Typed.upper))

section

variable {frame : Bytes} (ipv4 : etherType frame = DATALINK_IPV4)

include ipv4

theorem typed_decodeEthernet : Typed frameIds (decodeEthernet frame ⟨[], 0⟩) := by
  have start : Typed [] ⟨[], 0⟩ := List.Sublist.refl _
  have addresses := ((start.addUnchecked .ethDst (window frame 0 6)).addUnchecked .ethSrc
    (window frame 6 6)).advance 14
  rw [etherType] at ipv4
  unfold decodeEthernet
  split
  · exact start.skip _
  · dsimp only
    split_ifs at ipv4 ⊢ with tagged
    · unfold decodeVlan
      split
      · exact ((addresses.skip [.vlanVid, .vlanPcp]).addUnchecked .ethType _).skip _
      · have type : big16 (frame.drop 14) 2 = DATALINK_IPV4 := (big16_drop ..).trans ipv4
        rw [type]
        exact (((addresses.addUnchecked .vlanVid _).addNonzero .vlanPcp _).advance 4).ethType
    · rw [ipv4]
      exact (addresses.skip [.vlanVid, .vlanPcp]).ethType

private theorem typed_decode : Typed (frameIds ++ [.xPktPos]) (decode frame) := by
  unfold decode
  dsimp only
  split
  · exact (typed_decodeEthernet ipv4).addUnchecked ..
  · exact (typed_decodeEthernet ipv4).skip _

theorem get_of_mem {id : InternalId} {value : Bytes}
    (listed : fieldItem id value ∈ (decode frame).list) (size : value.length = valueSize id) :
    get (decode frame).list id = value := by
  have distinct : ((decode frame).list.map Item.type).Nodup :=
    (typed_decode ipv4).nodup (by decide)
  obtain ⟨item, found⟩ : ∃ item, (decode frame).list.find? (·.type == id.type) = some item := by
    rw [← Option.isSome_iff_exists, List.find?_isSome]
    exact ⟨_, listed, by simp [fieldItem]⟩
  have same : item = fieldItem id value := by
    refine List.inj_on_of_nodup_map distinct (List.mem_of_find?_eq_some found) listed ?_
    simpa [fieldItem] using List.find?_some found
  rw [get, found, same, Option.elim_some, fieldItem]
  split
  · rw [List.drop_left' (length_bigBytes ..), ByteBlock.bytes_copy size]
  · rw [ByteBlock.bytes_copy size]

end

section

variable {host : Host} {aligned : Bool} {oxm : List Item} {frame reply : Bytes}

theorem length_get (oxm : List Item) (id : InternalId) : (get oxm id).length = valueSize id :=
  ByteBlock.length_bytes _

/-- The builder that the fields of a reply are read into. -/
def replyBuilder (oxm : List Item) : MatchPacketBuilder :=
  ofRange (toRange (itemsFor (replyFields oxm)))

theorem replyFields_cases : ∀ p ∈ replyFields oxm, p.1 ∈ single ∧ p.2.length = valueSize p.1 ∧
    (p.1 = .vlanVid ∨ p.1 ∈ [.ethDst, .ethSrc] ∨ p.1 ∈ Kind.icmpv4.upper ∧ p.1 ≠ .nxIpTtl) := by
  simp only [replyFields, List.forall_mem_append, List.forall_mem_cons, length_get]
  split <;> simp [length_get] <;> decide

theorem assigned_reply : replyBuilder oxm = assignAll {} (replyFields oxm) :=
  ofRange_itemsFor (fun p listed => List.mem_cons_of_mem _ (replyFields_cases p listed).1)
    fun p listed => (replyFields_cases p listed).2.1

theorem stored_reply {p : InternalId × Bytes} (given : p ∈ replyFields oxm) :
    stored (replyBuilder oxm) p.1 = p.2 := by
  have separate : Separate (replyFields oxm) := by
    unfold replyFields Separate
    split <;> simp [member]
  obtain ⟨kept, size, -⟩ := replyFields_cases p given
  rw [assigned_reply]
  exact stored_assignAll separate given kept size

theorem ethType_reply : (replyBuilder oxm).ethType.toNat = DATALINK_IPV4 :=
  bigBytes_inj (UInt16.toNat_lt _) (by decide)
    (stored_reply (p := (.ethType, bigBytes 2 DATALINK_IPV4)) (by simp [replyFields]))

theorem ipProto_reply : (replyBuilder oxm).ipProto.toNat = PROTOCOL_ICMP :=
  bigBytes_inj (UInt8.toNat_lt _) (by decide)
    (stored_reply (p := (.ipProto, bigBytes 1 PROTOCOL_ICMP)) (by simp [replyFields]))

private theorem vlanPcp_reply : (replyBuilder oxm).vlanPcp.toNat = 0 := by
  have apart : ∀ p ∈ replyFields oxm, member .vlanPcp ≠ member p.1 := by
    simp only [replyFields, List.forall_mem_append, List.forall_mem_cons]
    split <;> simp [member]
  have kept : stored (replyBuilder oxm) .vlanPcp = bigBytes 1 0 := by
    rw [assigned_reply]
    exact stored_assignAll_of_ne apart
  exact bigBytes_inj (UInt8.toNat_lt _) (by decide) kept

/-- The payload of the reply is what stands behind the ICMP header of the frame. -/
theorem payload_eq (told : has (decode frame).list .icmpv4Type = true) :
    payload frame (decode frame).list = (ipPacket frame).drop (icmpEnd (ipPacket frame)) ∧
      (payload frame (decode frame).list).length ≤ frame.length - 38 := by
  have listed : itemsOf .icmpv4Type (decodeEthernet frame ⟨[], 0⟩).list ≠ [] := by
    intro fresh
    have none : itemsOf .icmpv4Type (decode frame).list = [] := by
      unfold decode
      dsimp only
      split
      · exact (Leaves.addUnchecked (.refl _ _) _ (by decide)).fresh fresh
      · exact fresh
    simp [has, itemsOf] at told none
    grind
  obtain ⟨ipv4, least, start, stop, packet, low, high⟩ := icmp_of_frame listed
  have most := icmpEnd_le (ipPacket frame)
  generalize icmpEnd (ipPacket frame) = past at *
  suffices same : payload frame (decode frame).list = frame.drop (start + past) by
    rw [same, packet, List.drop_drop, List.length_drop]
    exact ⟨rfl, by omega⟩
  by_cases room : (decodeEthernet frame ⟨[], 0⟩).offset < frame.length
  · have position : get (decode frame).list .xPktPos =
        bigBytes 2 (start + past) := by
      refine get_of_mem ipv4 ?_ (length_bigBytes ..)
      rw [decode, if_pos room, stop]
      simp [MatchPacket.addUnchecked]
    rw [payload, position, bigNat_bigBytes, Nat.mod_eq_of_lt (by omega), if_pos (by omega),
      safeByteRange, if_pos (by omega)]
  · -- The list has no position, and a position that is not there is read as zero.
    have absent : (decode frame).list.find? (·.type == InternalId.xPktPos.type) = none := by
      rw [decode, if_neg room, List.find?_eq_none]
      intro item listed is
      have known := (typed_decodeEthernet ipv4).subset (List.mem_map_of_mem listed)
      rw [beq_iff_eq.mp is] at known
      exact absurd known (by decide)
    rw [List.drop_eq_nil_of_le (by omega), payload, get, absent]
    rfl

private theorem etherType_addEthernet {b : MatchPacketBuilder}
    (plain : b.ethType.toNat ≠ DATALINK_8021Q) (rest : Bytes) :
    etherType (b.addEthernet ++ rest) = b.ethType.toNat := by
  have small := Nat.mod_eq_of_lt b.ethType.toNat_lt
  rw [etherType, addEthernet]
  split <;> simp [big16_skip, big16_here, small, plain, DATALINK_8021Q]

theorem get_reply {data : Part} (fits : data.data.length ≤ 65511) {p : InternalId × Bytes}
    (given : p ∈ replyFields oxm) (other : p.1 ≠ .vlanVid) :
    get (decode ((replyBuilder oxm).build host data)).list p.1 = p.2 := by
  have plain : (replyBuilder oxm).ethType.toNat ≠ DATALINK_8021Q := by
    rw [ethType_reply]
    decide
  have delivers := @delivers_icmpv4 host (replyBuilder oxm) data ethType_reply ipProto_reply
    (show 20 + (4 + data.data.length) ≤ 65535 by omega)
  have value := stored_reply given
  obtain ⟨-, size, here⟩ := replyFields_cases p given
  refine get_of_mem ?_ (mem_decode_build delivers plain (by rw [vlanPcp_reply]; decide) ?_) size
  · obtain ⟨rest, built, -⟩ := delivers
    rw [built, etherType_addEthernet plain, ethType_reply]
  · rcases here.resolve_left other with header | ⟨upper, plain⟩
    · rw [← value]
      simp only [List.mem_cons, List.not_mem_nil, or_false] at header
      rcases header with is | is <;> simp [is, stored]
    · refine List.mem_append_right _ (List.mem_append_right _ (List.mem_map.mpr ⟨p.1, upper, ?_⟩))
      rw [carried, if_neg plain, value]

private theorem segment_reply {data : Part} (fits : data.data.length ≤ 65511) :
    ∃ cksum : ByteBlock 2, segment ((replyBuilder oxm).build host data) =
        (replyBuilder oxm).icmpHdr cksum.bytes ++ data.data ∧
      wordSum ((replyBuilder oxm).icmpHdr cksum.bytes ++ data.data) = 0xFFFF := by
  generalize made : replyBuilder oxm = b
  have type : b.ethType.toNat = DATALINK_IPV4 := made ▸ ethType_reply
  have proto : b.ipProto.toNat = PROTOCOL_ICMP := made ▸ ipProto_reply
  refine ⟨checksum host [⟨b.icmpHdr [0, 0], true⟩, data], ?_, ?_⟩
  · simp only [MatchPacketBuilder.build, type, buildIPv4, proto, MatchPacketBuilder.buildICMPv4]
    generalize checksum host [⟨b.icmpHdr [0, 0], true⟩, data] = cksum
    have size : (b.icmpHdr cksum.bytes ++ data.data).length = 4 + data.data.length := by
      simp [icmpHdr]
      omega
    generalize List.replicate _ (0 : UInt8) = pad
    obtain ⟨header, total⟩ := @addIPv4_parts host b (4 + data.data.length) (by omega)
      ((b.icmpHdr cksum.bytes ++ data.data) ++ pad)
    have front := @length_addIPv4 host b (4 + data.data.length)
    rw [Packet.TcpValidity.segment, List.append_assoc,
      ipPacket_addEthernet (by rw [type]; decide), List.append_assoc, header, total,
      ← List.append_assoc, List.take_left' (by rw [List.length_append, front, size])]
    exact List.drop_left' front
  · rw [icmpHdr, ← List.append_assoc, List.append_assoc]
    refine wordSum_stored host ?_ ?_ (by simp)
    · simp [icmpHdr]
      omega
    · simp [icmpHdr]

theorem genericReply_eq (answered : genericReply host aligned frame = some reply) :
    has (decode frame).list .icmpv4Type = true ∧
      reply = (replyBuilder (decode frame).list).build host
        ⟨payload frame (decode frame).list, aligned⟩ := by
  unfold genericReply applyICMPv4 buildICMPv4 at answered
  dsimp only at answered
  split_ifs at answered with told
  exact ⟨told, (Option.some.inj answered).symm⟩

/-- The answer goes back with the addresses exchanged, with what stands behind the ICMP header of
the request, padding included, and with a checksum that is right. -/
theorem echo_answered (fits : frame.length ≤ 65549)
    (answered : genericReply host aligned frame = some reply) :
    let asked := get (decode frame).list
    let told := get (decode reply).list
    let request := ipPacket frame
    (told .ethDst = asked .ethSrc ∧ told .ethSrc = asked .ethDst) ∧
      (told .ipv4Dst = asked .ipv4Src ∧ told .ipv4Src = asked .ipv4Dst) ∧
      (segment reply).drop 4 = request.drop (icmpEnd request) ∧
      (request.length ≤ big16 request 2 → (segment reply).drop 4 = (segment frame).drop 4) ∧
      wordSum (segment reply) = 0xFFFF := by
  obtain ⟨echo, same⟩ := genericReply_eq answered
  obtain ⟨behind, short⟩ := payload_eq echo
  have short : (payload frame (decode frame).list).length ≤ 65511 := by omega
  intro asked told request
  have exchanged {id id' : InternalId} (given : (id, asked id') ∈ replyFields (decode frame).list)
      (other : id ≠ .vlanVid) : told id = asked id' := by
    simp only [told, same]
    exact get_reply short given other
  obtain ⟨cksum, message, sum⟩ := @segment_reply host (decode frame).list
    ⟨payload frame (decode frame).list, aligned⟩ short
  have returned : (segment reply).drop 4 = request.drop (icmpEnd request) := by
    rw [same, message, ← behind]
    exact List.drop_left' (by simp [icmpHdr])
  refine ⟨⟨exchanged ?_ ?_, exchanged ?_ ?_⟩, ⟨exchanged ?_ ?_, exchanged ?_ ?_⟩, returned,
    fun unpadded => ?_, by rw [same, message]; exact sum⟩
  any_goals simp [replyFields, asked]
  rw [returned, Packet.TcpValidity.segment, List.take_of_length_le unpadded, List.drop_drop,
    icmpEnd]

/-- A reply is not replied to. -/
theorem genericReply_reply (fits : frame.length ≤ 65549)
    (answered : genericReply host aligned frame = some reply) (host' : Host) (aligned' : Bool) :
    genericReply host' aligned' reply = none := by
  obtain ⟨echo, same⟩ := genericReply_eq answered
  have short := (payload_eq echo).2
  have type : get (decode reply).list .icmpv4Type = bigBytes 1 0 := by
    rw [same]
    exact get_reply (p := (.icmpv4Type, bigBytes 1 0)) (by dsimp only; omega)
      (by simp [replyFields]) (by decide)
  have other : bigNat (bigBytes 1 0) ≠ 8 := by decide
  simp [genericReply, applyICMPv4, type, other]

/-- An echo request from 10.0.0.1 to 10.0.0.2 in a tagged frame, with two bytes behind it. -/
def ping : Bytes :=
  [2, 0, 0, 0, 0, 2, 2, 0, 0, 0, 0, 1, 0x81, 0, 0, 5, 8, 0, 0x45, 0, 0, 25, 0, 0, 0, 0, 64, 1, 0, 0,
    10, 0, 0, 1, 10, 0, 0, 2, 8, 0, 0, 0, 7, 0, 0]

theorem ping_answered : (genericReply .little true ping).isSome = true := by
  decide +kernel

theorem echo_answered_ping : ∃ reply, genericReply .little true ping = some reply ∧
    get (decode reply).list .ipv4Dst = [10, 0, 0, 1] ∧ (segment reply).drop 4 = [7, 0, 0] ∧
      (segment ping).drop 4 = [7] ∧ wordSum (segment reply) = 0xFFFF := by
  obtain ⟨reply, answered⟩ := Option.isSome_iff_exists.mp ping_answered
  obtain ⟨-, ⟨dst, -⟩, returned, -, sum⟩ := echo_answered (by decide) answered
  exact ⟨reply, answered, dst.trans (by decide), returned.trans (by decide), by decide, sum⟩

theorem genericReply_reply_ping : ∃ reply, genericReply .little true ping = some reply ∧
    genericReply .big false reply = none := by
  obtain ⟨reply, answered⟩ := Option.isSome_iff_exists.mp ping_answered
  exact ⟨reply, answered, genericReply_reply (by decide) answered .big false⟩

end

section

open RateLimiter Text.TimeOrder

/-- A packet-in message, as far as the filters look at it. -/
structure PacketIn where
  enetFrame : Bytes
  time : Time

/-- `FilterTableEntry`. The filter is a program of the capture library. -/
structure FilterTableEntry where
  pktFilter : Bytes → Bool
  action : Bool
  escalate : RateLimiter

variable (host : Host) (aligned : Bool)

/-- The part of `FilterTableEntry::apply` before the limiter. -/
def FilterTableEntry.handles (m : PacketIn) (entry : FilterTableEntry) : Bool :=
  entry.pktFilter m.enetFrame &&
    (!entry.action || (genericReply host aligned m.enetFrame).isSome)

/-- `*escalate = escalate_.allow(message->time())`. -/
def FilterTableEntry.meter (m : PacketIn) (entry : FilterTableEntry) : FilterTableEntry :=
  { entry with escalate := (allow entry.escalate m.time.1).2 }

/-- The entry at which the loop of `FilterTable::apply` returns. -/
def handler (table : List FilterTableEntry) (m : PacketIn) : Option Nat :=
  table.findIdx? (·.handles host aligned m)

/-- `FilterTable::apply`: whether the message is escalated, if an entry handles it. -/
def apply (table : List FilterTableEntry) (m : PacketIn) : Option Bool × List FilterTableEntry :=
  match handler host aligned table m with
  | none => (none, table)
  | some i =>
    (table[i]?.map fun entry => (allow entry.escalate m.time.1).1, table.modify i (·.meter m))

/-- The messages, each with what the table said about it. -/
def run (table : List FilterTableEntry) : List PacketIn → List (PacketIn × Option Bool)
  | [] => []
  | m :: ms => (m, (apply host aligned table m).1) :: run (apply host aligned table m).2 ms

variable {host aligned} {table : List FilterTableEntry} {m : PacketIn}

/-- The limiters do not matter for which entry handles a message. -/
private theorem handler_modify (i : Nat) (m' : PacketIn) :
    handler host aligned (table.modify i (·.meter m)) m' = handler host aligned table m' := by
  induction table generalizing i with
  | nil => rw [List.modify_nil]
  | cons entry table ih =>
    cases i with
    | zero => rfl
    | succ i =>
      simp only [handler] at ih
      simp only [handler, List.modify_succ_cons, List.findIdx?_cons, ih]

/-- The limiter of an entry meters the messages that the entry is the first one to match, as if
there were no others. -/
theorem entry_meters_own (messages : List PacketIn) {i : Nat} {entry : FilterTableEntry}
    (there : table[i]? = some entry) :
    ((run host aligned table messages).filter
        (handler host aligned table ·.1 = some i)).map (fun r => (r.1.time, r.2)) =
      (outcomes entry.escalate ((messages.filter (handler host aligned table · = some i)).map
        PacketIn.time)).map fun o => (o.1, some o.2) := by
  induction messages generalizing table entry with
  | nil => rfl
  | cons m messages ih =>
    cases found : handler host aligned table m with
    | none => simp [run, apply, found, ih there]
    | some j =>
      have next {e : FilterTableEntry} (kept : (table.modify j (·.meter m))[i]? = some e) := ih kept
      simp only [handler_modify] at next
      by_cases mine : j = i
      · subst mine
        have after := next (e := entry.meter m) (by simp [there])
        simp [run, apply, found, there, outcomes, after]
        rfl
      · have after := next (e := entry) (by simp [mine, there])
        simp [run, apply, found, mine, after]

/-- Every second ARP message is escalated, whatever echo requests come in between. -/
theorem entry_meters_own_half :
    let table : List FilterTableEntry :=
      [⟨fun frame => etherType frame == DATALINK_IPV4, true, ofBool false⟩,
        ⟨fun frame => etherType frame == DATALINK_ARP, false, ofCycle 1 2⟩]
    let arp : PacketIn := ⟨[2, 0, 0, 0, 0, 2, 2, 0, 0, 0, 0, 1, 8, 6], ⟨zeroTime, by decide⟩⟩
    let echo : PacketIn := ⟨ping, arp.time⟩
    handler .little true table echo = some 0 ∧
      ((run .little true table [arp, echo, arp, echo, arp]).filter
        (handler .little true table ·.1 = some 1)).map (fun r => (r.1.time, r.2)) =
      [(arp.time, some true), (arp.time, some false), (arp.time, some true)] := by
  intro table arp echo
  exact ⟨by decide +kernel, (entry_meters_own _ rfl).trans (by decide +kernel)⟩

end

end Libofp.Rpc.FilterTable
