/- GID: Libofp/Packet/FrameRecovery
   digest: Decoding a frame that the packet builder has made gives back the members of the
     builder, layer by layer. -/

import Mathlib.Data.Nat.Bitwise
import Libofp.Packet.BuilderMembers
import Libofp.Packet.PacketList

set_option autoImplicit false

namespace Libofp.Packet.FrameRecovery

open Octets.ByteRange Octets.ByteList Octets.BigEndian Octets.Fixed
open Oxm.Range Oxm.FieldTable Decoder PacketList
open FrameBuilder FrameBuilder.MatchPacketBuilder
open BuilderMembers WellFormed
open Oxm.Field (Host)

theorem gains_decodeICMPv4 (type code : Nat) {rest : Bytes} (long : 2 ≤ rest.length) :
    Gains [fieldItem .icmpv4Type (bigBytes 1 type), fieldItem .icmpv4Code (bigBytes 1 code)]
      (decodeICMPv4 (bigBytes 1 type ++ (bigBytes 1 code ++ rest))) := by
  intro s item there
  have enough : ¬ (bigBytes 1 type ++ (bigBytes 1 code ++ rest)).length < 4 := by
    simp only [List.length_append, length_bigBytes]
    omega
  rw [decodeICMPv4, if_neg enough]
  simp at there ⊢
  tauto

theorem gains_decodeTCP (src dst : Nat) {rest : Bytes} (long : 16 ≤ rest.length) :
    Gains [fieldItem .tcpSrc (bigBytes 2 src), fieldItem .tcpDst (bigBytes 2 dst)]
      (decodeTCP (bigBytes 2 src ++ (bigBytes 2 dst ++ rest))) := by
  intro s item there
  rw [decodeTCP, if_neg (by simp; omega)]
  simp [window_skip, window_here] at there ⊢
  tauto

theorem gains_icmpv6Header (type code : Bytes) :
    Gains [fieldItem .icmpv6Type type, fieldItem .icmpv6Code code] fun s =>
      s |>.addUnchecked .icmpv6Type type |>.addUnchecked .icmpv6Code code |>.advance 4 := by
  intro s item there
  simp at there ⊢
  tauto

theorem gains_decodeICMPv6 (type code : Nat) {rest : Bytes} (long : 2 ≤ rest.length) :
    Gains [fieldItem .icmpv6Type (bigBytes 1 type), fieldItem .icmpv6Code (bigBytes 1 code)]
      (decodeICMPv6 (bigBytes 1 type ++ (bigBytes 1 code ++ rest))) := by
  intro s item there
  have header := gains_icmpv6Header (bigBytes 1 type) (bigBytes 1 code) s item there
  rw [decodeICMPv6, if_neg (by simp; omega)]
  dsimp only
  rw [window_here _ (length_bigBytes ..), window_part _ (length_bigBytes ..) (length_bigBytes ..)]
  split
  · exact mem_decodeICMPv6ND _ _ header
  · exact header

private theorem findLLOption_first {option : Nat} (small : option < 256) {ll : Bytes}
    (six : ll.length = 6) (rest : Bytes) :
    findLLOption (bigBytes 1 option ++ (bigBytes 1 1 ++ (ll ++ rest))) option = some ll := by
  have type : big8 (bigBytes 1 option ++ (bigBytes 1 1 ++ (ll ++ rest))) 0 = option := by
    rw [big8_here, Nat.mod_eq_of_lt small]
  have units : big8 (bigBytes 1 option ++ (bigBytes 1 1 ++ (ll ++ rest))) 1 = 1 :=
    big8_within _ (length_bigBytes ..)
  have address : window (bigBytes 1 option ++ (bigBytes 1 1 ++ (ll ++ rest))) 2 6 = ll := by
    exact window_part _ (by simp) six
  have long : 8 ≤ (bigBytes 1 option ++ (bigBytes 1 1 ++ (ll ++ rest))).length := by
    simp only [List.length_append, length_bigBytes]
    omega
  rw [findLLOption, if_neg (by omega), units, if_neg (by omega), type, if_pos ⟨rfl, rfl⟩, address]

private theorem gains_decodeICMPv6ND {type option : Nat} {id : InternalId}
    {reserved target ll : Bytes} (four : reserved.length = 4) (sixteen : target.length = 16)
    (six : ll.length = 6)
    (kind : type = ICMPV6_TYPE_NEIGHBOR_SOLICIT ∧ option = ICMPV6_OPTION_SLL ∧ id = .ipv6NdSll ∨
      type = ICMPV6_TYPE_NEIGHBOR_ADVERTISE ∧ option = ICMPV6_OPTION_TLL ∧ id = .ipv6NdTll)
    (rest : Bytes) :
    Gains ([fieldItem .ipv6NdTarget target, fieldItem id ll] ++
        if type = ICMPV6_TYPE_NEIGHBOR_ADVERTISE then [fieldItem .xIpv6NdRes reserved] else [])
      (decodeICMPv6ND (reserved ++ (target ++ (bigBytes 1 option ++ (bigBytes 1 1 ++
        (ll ++ rest))))) type) := by
  intro s item there
  have small : option < 256 := by
    rcases kind with ⟨-, rfl, -⟩ | ⟨-, rfl, -⟩ <;> decide
  have found := findLLOption_first small six rest
  generalize behind : bigBytes 1 option ++ (bigBytes 1 1 ++ (ll ++ rest)) = options at found
  have more : options.length ≠ 0 := by simp [← behind]
  rw [decodeICMPv6ND, if_neg (by simp; omega)]
  have tail : (reserved ++ (target ++ options)).drop 20 = options := by
    simp [List.drop_append, List.drop_of_length_le, four, sixteen]
  simp only [window_here _ four, window_part _ four sixteen, tail, if_neg more]
  rcases kind with ⟨rfl, rfl, rfl⟩ | ⟨rfl, rfl, rfl⟩
  · rw [if_pos rfl, decodeLLOption, found]
    simp at there ⊢
    tauto
  · rw [if_neg (by decide), if_pos rfl, decodeLLOption, found]
    simp at there ⊢
    tauto

theorem gains_decodeICMPv6_nd {type option : Nat} {id : InternalId}
    {cksum reserved target ll : Bytes} (two : cksum.length = 2) (four : reserved.length = 4)
    (sixteen : target.length = 16) (six : ll.length = 6)
    (kind : type = ICMPV6_TYPE_NEIGHBOR_SOLICIT ∧ option = ICMPV6_OPTION_SLL ∧ id = .ipv6NdSll ∨
      type = ICMPV6_TYPE_NEIGHBOR_ADVERTISE ∧ option = ICMPV6_OPTION_TLL ∧ id = .ipv6NdTll)
    (rest : Bytes) :
    Gains ([fieldItem .icmpv6Type (bigBytes 1 type), fieldItem .icmpv6Code (bigBytes 1 0)] ++
        ([fieldItem .ipv6NdTarget target, fieldItem id ll] ++
          if type = ICMPV6_TYPE_NEIGHBOR_ADVERTISE then [fieldItem .xIpv6NdRes reserved] else []))
      (decodeICMPv6 (bigBytes 1 type ++ (bigBytes 1 0 ++ (cksum ++ (reserved ++ (target ++
        (bigBytes 1 option ++ (bigBytes 1 1 ++ (ll ++ rest))))))))) := by
  intro s item there
  have message := gains_decodeICMPv6ND four sixteen six kind rest
  generalize reserved ++ (target ++ (bigBytes 1 option ++ (bigBytes 1 1 ++ (ll ++ rest)))) = nd
    at message ⊢
  have either : type = ICMPV6_TYPE_NEIGHBOR_SOLICIT ∨ type = ICMPV6_TYPE_NEIGHBOR_ADVERTISE := by
    tauto
  have small : type < 256 := by
    rcases either with rfl | rfl <;> decide
  generalize whole : bigBytes 1 type ++ (bigBytes 1 0 ++ (cksum ++ nd)) = pkt
  have fields : window pkt 0 1 = bigBytes 1 type ∧ window pkt 1 1 = bigBytes 1 0 ∧
      big8 pkt 0 = type ∧ big8 pkt 1 = 0 ∧ pkt.drop 4 = nd := by
    rw [← whole]
    refine ⟨?_, ?_, ?_, ?_, ?_⟩ <;> simp [window_skip, window_here, big8_skip, big8_here,
      List.drop_append, List.drop_of_length_le, Nat.mod_eq_of_lt small, two]
  obtain ⟨first, second, number, code, tail⟩ := fields
  rw [decodeICMPv6, if_neg (by simp [← whole]; omega)]
  simp only [first, second, number, code, tail]
  rw [if_pos ⟨trivial, either⟩]
  exact (gains_icmpv6Header _ _).comp message s item there

section

variable {new : List Item}

theorem gains_decodeARP {op sha spa tha tpa : Bytes} (two : op.length = 2) (six : sha.length = 6)
    (four : spa.length = 4) (six' : tha.length = 6) (four' : tpa.length = 4) (rest : Bytes) :
    Gains [fieldItem .arpOp op, fieldItem .arpSpa spa, fieldItem .arpTpa tpa, fieldItem .arpSha sha,
        fieldItem .arpTha tha]
      (decodeARP (arpPrefix ++ (op ++ (sha ++ (spa ++ (tha ++ (tpa ++ rest))))))) := by
  intro s item there
  generalize whole : arpPrefix ++ (op ++ (sha ++ (spa ++ (tha ++ (tpa ++ rest))))) = pkt
  have front : arpPrefix.length = 6 := rfl
  have fields : window pkt 0 6 = arpPrefix ∧ window pkt 6 2 = op ∧ window pkt 14 4 = spa ∧
      window pkt 24 4 = tpa ∧ window pkt 8 6 = sha ∧ window pkt 18 6 = tha := by
    rw [← whole]
    refine ⟨?_, ?_, ?_, ?_, ?_, ?_⟩ <;>
      simp [window_skip, window_here, front, two, six, four, six', four']
  obtain ⟨start, op_eq, spa_eq, tpa_eq, sha_eq, tha_eq⟩ := fields
  rw [decodeARP, if_neg (by simp [← whole]; omega)]
  simp only [start, op_eq, spa_eq, tpa_eq, sha_eq, tha_eq, ne_eq, not_true_eq_false, if_false]
  simp only [List.mem_cons, List.not_mem_nil, or_false] at there
  split
  all_goals
    simp only [mem_addUnchecked, list_advance]
    tauto

private theorem packet_walkHeaders_icmpv6 {w : HeaderWalk} (next : w.nextHdr = PROTOCOL_ICMPV6) :
    (walkHeaders w).packet = decodeICMPv6 w.pkt w.addProtocol := by
  rw [walkHeaders, next, if_neg (by decide), if_neg (by decide), if_neg (by decide), if_pos rfl]

theorem gains_decodeIPv6 (b : MatchPacketBuilder) (length : Nat) {payload : Bytes}
    (proto : b.ipProto.toNat = PROTOCOL_ICMPV6) (message : Gains new (decodeICMPv6 payload)) :
    Gains ([fieldItem .nxIpTtl (bigBytes 1 b.ttl.toNat), fieldItem .ipv6Src b.ipv6Src.bytes,
        fieldItem .ipv6Dst b.ipv6Dst.bytes, fieldItem .ipProto (bigBytes 1 PROTOCOL_ICMPV6)] ++ new)
      (decodeIPv6 (b.addIPv6 length ++ payload)) := by
  intro s item there
  generalize whole : b.addIPv6 length ++ payload = pkt
  rw [addIPv6, proto] at whole
  simp only [List.append_assoc] at whole
  have src := b.ipv6Src.length_bytes
  have dst := b.ipv6Dst.length_bytes
  have words : big32 pkt 0 = 0x60000000 ∧ big8 pkt 6 = PROTOCOL_ICMPV6 := by
    rw [← whole, big32_here]
    simp [big8_skip, big8_here, PROTOCOL_ICMPV6]
  have fields : window pkt 7 1 = bigBytes 1 b.ttl.toNat ∧ window pkt 8 16 = b.ipv6Src.bytes ∧
      window pkt 24 16 = b.ipv6Dst.bytes ∧ pkt.drop 40 = payload := by
    rw [← whole]
    refine ⟨?_, ?_, ?_, ?_⟩ <;>
      simp [window_skip, window_here, List.drop_append, List.drop_of_length_le, src, dst]
  obtain ⟨label, next⟩ := words
  obtain ⟨ttl, source, destination, tail⟩ := fields
  have version : ¬ (0x60000000 >>> 28 ≠ 6) := by decide
  rw [decodeIPv6, if_neg (by simp [← whole]; omega)]
  simp only [label, if_neg version, next, ttl, source, destination, tail, decodeIPv6NextHdr]
  apply mem_reportFlags
  rw [startWalk, if_neg (by decide), packet_walkHeaders_icmpv6 rfl]
  apply message
  simp only [HeaderWalk.addProtocol, mem_addOrderedUnchecked, mem_addUnchecked, mem_addNonzero,
    list_advance]
  simp only [List.mem_append, List.mem_cons, List.not_mem_nil, or_false] at there
  tauto

private theorem gains_addIPv4Fields (pkt : Bytes) (frag : Nat) :
    Gains [fieldItem .ipProto (window pkt 9 1), fieldItem .ipv4Src (window pkt 12 4),
        fieldItem .ipv4Dst (window pkt 16 4), fieldItem .nxIpTtl (window pkt 8 1)]
      (addIPv4Fields pkt frag) := by
  intro s item there
  simp only [List.mem_cons, List.not_mem_nil, or_false] at there
  rw [addIPv4Fields]
  split
  all_goals
    simp only [mem_addUnchecked, mem_addNonzero]
    tauto

theorem gains_decodeIPv4 (host : Host) (b : MatchPacketBuilder) {payload : Bytes}
    (fits : 20 + payload.length ≤ 65535)
    (message : Gains new (decodeIPv4NextHdr payload b.ipProto.toNat)) (rest : Bytes) :
    Gains ([fieldItem .ipProto (bigBytes 1 b.ipProto.toNat), fieldItem .ipv4Src b.ipv4Src.bytes,
        fieldItem .ipv4Dst b.ipv4Dst.bytes, fieldItem .nxIpTtl (bigBytes 1 b.ttl.toNat)] ++ new)
      (decodeIPv4 (b.addIPv4 host payload.length ++ (payload ++ rest))) := by
  intro s item there
  rw [addIPv4]
  generalize (checksum host [⟨b.ipv4Hdr payload.length [0, 0], true⟩]) = cksum
  generalize whole : b.ipv4Hdr payload.length cksum.bytes ++ (payload ++ rest) = pkt
  rw [ipv4Hdr] at whole
  simp only [List.append_assoc] at whole
  have two := cksum.length_bytes
  have src := b.ipv4Src.length_bytes
  have dst := b.ipv4Dst.length_bytes
  have size : pkt.length = 20 + payload.length + rest.length := by
    rw [← whole]
    simp only [List.length_append, length_bigBytes]
    omega
  have words : big8 pkt 0 = 0x45 ∧ big16 pkt 2 = 20 + payload.length ∧ big16 pkt 6 = 0 ∧
      big8 pkt 9 = b.ipProto.toNat := by
    rw [← whole]
    refine ⟨?_, ?_, ?_, ?_⟩ <;> simp [big8_skip, big8_here, big16_skip, big16_here]
    omega
  have fields : window pkt 9 1 = bigBytes 1 b.ipProto.toNat ∧ window pkt 12 4 = b.ipv4Src.bytes ∧
      window pkt 16 4 = b.ipv4Dst.bytes ∧ window pkt 8 1 = bigBytes 1 b.ttl.toNat ∧
      pkt.drop 20 = payload ++ rest := by
    rw [← whole]
    refine ⟨?_, ?_, ?_, ?_, ?_⟩ <;>
      simp [window_skip, window_here, List.drop_append, List.drop_of_length_le, src, dst, two]
  obtain ⟨first, total, fragment, next⟩ := words
  obtain ⟨protocol, source, destination, ttl, tail⟩ := fields
  have cut : (if 20 + payload.length < pkt.length then pkt.take (20 + payload.length) else pkt).drop
      20 = payload := by
    split
    · rw [List.drop_take, tail]
      exact List.take_left' (by omega)
    · have none : rest = [] := List.length_eq_zero_iff.mp (by omega)
      rw [tail, none, List.append_nil]
  have header := gains_addIPv4Fields pkt 0
  rw [protocol, source, destination, ttl] at header
  have words : (0x45 &&& 0x0F) * 4 = 20 := rfl
  have enough : ¬ pkt.length < 20 := by
    omega
  simp only [decodeIPv4, if_neg enough, first, words, total, fragment, Nat.zero_and, next, cut]
  rw [if_neg (by decide), if_neg (by omega), if_neg (by omega),
    if_neg (by decide)]
  exact (header.advance 20).comp message s item there

end

section

variable {type : Nat} {data : Bytes}

private theorem lldpTlv_eq (kind : type < 128) (length : Nat) :
    lldpTlv type length = bigBytes 1 (2 * type) ++ bigBytes 1 (length % 256) := by
  have low : length &&& 0x00FF = length % 256 := Nat.and_two_pow_sub_one_eq_mod _ 8
  have ninth : length &&& 0x0100 = (length.testBit 8).toNat * 256 := Nat.and_two_pow _ 8
  have lost (n : Nat) : bigBytes 1 (n + 256) = bigBytes 1 n := by
    simp [bigBytes]
  rw [lldpTlv, low, ninth, Nat.shiftLeft_eq, Nat.pow_one, Nat.mul_comm type]
  cases length.testBit 8 with
  | false => rw [Bool.toNat_false, Nat.zero_mul, Nat.or_zero]
  | true =>
    have disjoint : 2 * type ||| 1 * 256 = 2 * type + 256 := by
      rw [Nat.or_comm, Nat.add_comm]
      have below : 2 * type < 2 ^ 8 := by omega
      exact (Nat.two_pow_add_eq_or_of_lt below 1).symm
    rw [Bool.toNat_true, disjoint, lost]

theorem tlv_parts (kind : type < 128) (data rest : Bytes) :
    LLDPTlv.type (tlv type data ++ rest) = type ∧
      LLDPTlv.length (tlv type data ++ rest) = data.length % 256 ∧
      LLDPTlv.value (tlv type data ++ rest) = data.take (data.length % 256) := by
  rw [tlv, lldpTlv_eq kind]
  simp only [List.append_assoc]
  generalize size : data.length % 256 = n
  have first : big8 (bigBytes 1 (2 * type) ++ (bigBytes 1 n ++ (data ++ rest))) 0 = 2 * type := by
    rw [big8_here]
    omega
  have second : big8 (bigBytes 1 (2 * type) ++ (bigBytes 1 n ++ (data ++ rest))) 1 = n := by
    rw [big8_within _ (length_bigBytes ..)]
    omega
  have even : (2 * type) &&& 0x01 = 0 := by
    rw [Nat.and_one_is_mod]
    omega
  have length : LLDPTlv.length (bigBytes 1 (2 * type) ++ (bigBytes 1 n ++ (data ++ rest))) = n := by
    rw [LLDPTlv.length, first, second, even, Nat.zero_shiftLeft, Nat.zero_or]
  refine ⟨?_, length, ?_⟩
  · rw [LLDPTlv.type, first, Nat.shiftRight_eq_div_pow]
    omega
  · have front : (bigBytes 1 (2 * type) ++ bigBytes 1 n).length = 2 := by simp
    rw [LLDPTlv.value, length, ← List.append_assoc, window, List.drop_left' front,
      List.take_append_of_le_length (by omega)]

/-- How the loop of `decodeLLDP` stops. -/
inductive Stop where
  | exhausted
  | missingEnd
  | malformed
  | atEnd (pkt : Bytes)
  deriving DecidableEq

/-- The loop of `decodeLLDP`: the type and the value of each TLV that it visits, and where it
stops. -/
def walkLLDP (pkt : Bytes) : List (Nat × Bytes) × Stop :=
  if pkt.length = 0 then ([], .exhausted)
  else if pkt.length < 2 then ([], .missingEnd)
  else
    let jumpSize := LLDPTlv.length pkt + 2
    if jumpSize > pkt.length then ([], .malformed)
    else if LLDPTlv.type pkt = LLDPTlv.END then ([], .atEnd pkt)
    else
      let (visited, stop) := walkLLDP (pkt.drop jumpSize)
      ((LLDPTlv.type pkt, LLDPTlv.value pkt) :: visited, stop)
termination_by pkt.length
decreasing_by
  rw [List.length_drop]
  omega

def tlvItems (type : Nat) (data : Bytes) : List Item :=
  match type with
  | LLDPTlv.CHASSIS_ID => [fieldItem .xLldpChassisId (lldpValue data)]
  | LLDPTlv.PORT_ID => [fieldItem .xLldpPortId (lldpValue data)]
  | LLDPTlv.TTL => [fieldItem .xLldpTtl (lastTwo data)]
  | LLDPTlv.SYS_NAME => [fieldItem .xLldpSysName (lldpValue data)]
  | LLDPTlv.PORT_DESCR => [fieldItem .xLldpPortDescr (lldpValue data)]
  | LLDPTlv.ORG_SPECIFIC => [fieldItem .xLldpOrgSpecific (lldpValue data)]
  | _ => []

private theorem list_addTlv (pkt : Bytes) (s : MatchPacket) :
    (addTlv pkt s).list = s.list ++ tlvItems (LLDPTlv.type pkt) (LLDPTlv.value pkt) := by
  rw [addTlv.eq_def]
  generalize LLDPTlv.type pkt = type
  rw [tlvItems.eq_def]
  split <;> simp [MatchPacket.addUnchecked]

private theorem list_decodeLLDP (pkt : Bytes) (s : MatchPacket) :
    (decodeLLDP pkt s).list =
      s.list ++ (walkLLDP pkt).1.flatMap fun p => tlvItems p.1 p.2 := by
  fun_induction decodeLLDP pkt s with
  | case1 pkt s empty =>
    rw [walkLLDP, if_pos empty]
    simp
  | case2 pkt s some short =>
    rw [walkLLDP, if_neg some, if_pos short]
    simp
  | case3 pkt s some enough jumpSize beyond =>
    rw [walkLLDP, if_neg some, if_neg enough, if_pos beyond]
    simp
  | case4 pkt s some enough jumpSize within last =>
    rw [walkLLDP, if_neg some, if_neg enough, if_neg within, if_pos last]
    simp
  | case5 pkt s some enough jumpSize within more ih =>
    conv_rhs => rw [walkLLDP, if_neg some, if_neg enough, if_neg within, if_neg more]
    rw [ih, List.flatMap_cons, ← List.append_assoc, ← list_addTlv]
    rfl

theorem walkLLDP_tlv (kind : type < 128) (more : type ≠ LLDPTlv.END) (data rest : Bytes) :
    walkLLDP (tlv type data ++ rest) =
      let (visited, stop) := walkLLDP (data.drop (data.length % 256) ++ rest)
      ((type, data.take (data.length % 256)) :: visited, stop) := by
  obtain ⟨number, length, value⟩ := tlv_parts kind data rest
  have header : (lldpTlv type data.length).length = 2 := by simp [lldpTlv]
  have size : (tlv type data ++ rest).length = 2 + data.length + rest.length := by
    rw [tlv, List.length_append, List.length_append, header]
  have tail : (tlv type data ++ rest).drop (data.length % 256 + 2) =
      data.drop (data.length % 256) ++ rest := by
    rw [tlv, List.append_assoc, Nat.add_comm, ← List.drop_drop, List.drop_left' header,
      List.drop_append_of_le_length (Nat.mod_le ..)]
  rw [walkLLDP, if_neg (by omega), if_neg (by omega)]
  simp only [number, length, value, tail]
  rw [if_neg (by omega), if_neg more]

private theorem walkLLDP_end (rest : Bytes) :
    walkLLDP (tlv LLDPTlv.END [] ++ rest) = ([], .atEnd (tlv LLDPTlv.END [] ++ rest)) := by
  obtain ⟨number, length, -⟩ := @tlv_parts LLDPTlv.END (by decide) [] rest
  have size : (tlv LLDPTlv.END [] ++ rest).length = 2 + rest.length := by
    simp only [tlv, lldpTlv, List.length_append, length_bigBytes, List.length_nil]
  rw [walkLLDP, if_neg (by omega), if_neg (by omega)]
  simp only [number, length, List.length_nil]
  rw [if_neg (by omega), if_pos trivial]

def written (tlvs : List (Nat × Bytes)) (rest : Bytes) : Bytes :=
  (tlvs.flatMap fun p => tlv p.1 p.2) ++ (tlv LLDPTlv.END [] ++ rest)

/-- A list of TLVs is recovered if no length needs its ninth bit; a longer value is cut, and what
follows is read out of the middle of it. -/
theorem walkLLDP_written_iff {tlvs : List (Nat × Bytes)}
    (types : ∀ p ∈ tlvs, p.1 < 128 ∧ p.1 ≠ LLDPTlv.END) (rest : Bytes) :
    walkLLDP (written tlvs rest) = (tlvs, .atEnd (tlv LLDPTlv.END [] ++ rest)) ↔
      ∀ p ∈ tlvs, p.2.length < 256 := by
  induction tlvs with
  | nil => exact ⟨fun _ => List.forall_mem_nil _, fun _ => walkLLDP_end rest⟩
  | cons p tlvs ih =>
    obtain ⟨type, data⟩ := p
    obtain ⟨⟨kind, more⟩, later⟩ := List.forall_mem_cons.mp types
    have front : written ((type, data) :: tlvs) rest = tlv type data ++ written tlvs rest := by
      simp [written]
    rw [front, walkLLDP_tlv kind more, List.forall_mem_cons, ← ih later]
    by_cases short : data.length < 256
    · rw [Nat.mod_eq_of_lt short, List.take_length, List.drop_length, List.nil_append]
      simp [Prod.ext_iff, short]
    · have less : data.length % 256 < data.length := by
        omega
      constructor
      · intro same
        have value := (Prod.mk.inj (List.cons.inj (congrArg Prod.fst same)).1).2
        have size := congrArg List.length value
        rw [List.length_take, Nat.min_eq_left (Nat.le_of_lt less)] at size
        omega
      · rintro ⟨fits, _⟩
        exact absurd fits short

/-- Lists of TLVs are written and read back exactly when no value is longer than 255 bytes. -/
theorem tlvs_recovered_iff {tlvs : List (Nat × Bytes)} (types : ∀ p ∈ tlvs, 1 ≤ p.1 ∧ p.1 ≤ 127) :
    walkLLDP ((tlvs.flatMap fun p => tlv p.1 p.2) ++ tlv LLDPTlv.END []) =
        (tlvs, .atEnd (tlv LLDPTlv.END [])) ↔
      ∀ p ∈ tlvs, p.2.length ≤ 255 := by
  have proper : ∀ p ∈ tlvs, p.1 < 128 ∧ p.1 ≠ LLDPTlv.END := by
    intro p member
    obtain ⟨least, most⟩ := types p member
    exact ⟨Nat.lt_succ_of_le most, Nat.ne_of_gt least⟩
  have recovered := walkLLDP_written_iff proper []
  rw [written, List.append_nil] at recovered
  rw [recovered]
  exact forall₂_congr fun p _ => Nat.lt_succ_iff

/-- A chassis, a port, a longest system name and a type that the decoder does not know. -/
theorem tlvs_recovered_iff_name :
    let tlvs : List (Nat × Bytes) := [(LLDPTlv.CHASSIS_ID, [4, 2, 0, 0, 0, 0, 1]),
      (LLDPTlv.PORT_ID, [7, 0x31]), (LLDPTlv.SYS_NAME, List.replicate 255 0x61), (127, [])]
    walkLLDP ((tlvs.flatMap fun p => tlv p.1 p.2) ++ tlv LLDPTlv.END []) =
      (tlvs, .atEnd (tlv LLDPTlv.END [])) :=
  (tlvs_recovered_iff (by decide)).mpr (by decide +kernel)

/-- The length 256 is written as 0: the value is lost, and its first bytes are read as the end. -/
theorem tlv_length_lost :
    walkLLDP (tlv LLDPTlv.CHASSIS_ID (List.replicate 256 0) ++ tlv LLDPTlv.END []) =
      ([(LLDPTlv.CHASSIS_ID, [])],
        .atEnd (List.replicate 256 0 ++ tlv LLDPTlv.END [])) := by
  have length : (List.replicate 256 (0 : UInt8)).length % 256 = 0 := by
    rw [List.length_replicate]
  have size : (List.replicate 256 0 ++ tlv LLDPTlv.END []).length = 258 := by
    rw [List.length_append, List.length_replicate]
    rfl
  rw [walkLLDP_tlv (by decide) (by decide), length, List.take_zero, List.drop_zero, walkLLDP,
    if_neg (by omega), if_neg (by omega)]
  have zero : LLDPTlv.length (List.replicate 256 0 ++ tlv LLDPTlv.END []) = 0 := by decide
  have last : LLDPTlv.type (List.replicate 256 0 ++ tlv LLDPTlv.END []) = LLDPTlv.END := by decide
  simp only [zero, last]
  rw [if_neg (by omega), if_pos trivial]

/-- A TLV whose type and length can be written, and that does not end the list. -/
structure Writable (p : Nat × Bytes) : Prop where
  kind : p.1 < 128
  more : p.1 ≠ LLDPTlv.END
  short : p.2.length < 256

theorem gains_decodeLLDP {tlvs : List (Nat × Bytes)} (writable : ∀ p ∈ tlvs, Writable p)
    (rest : Bytes) :
    Gains (tlvs.flatMap fun p => tlvItems p.1 p.2) (decodeLLDP (written tlvs rest)) := by
  intro s item there
  have types : ∀ p ∈ tlvs, p.1 < 128 ∧ p.1 ≠ LLDPTlv.END := fun p member =>
    ⟨(writable p member).kind, (writable p member).more⟩
  have visited := (walkLLDP_written_iff types rest).mpr fun p member => (writable p member).short
  rw [list_decodeLLDP, visited]
  exact List.mem_append.mpr there

def optionalPart (type : Nat) (value : ByteBlock 64) : List (Nat × Bytes) :=
  if big8 value.bytes 0 = 0 then [] else [(type, lldpData value)]

private theorem optionalTlv_eq (type : Nat) (value : ByteBlock 64) :
    optionalTlv type value = (optionalPart type value).flatMap fun p => tlv p.1 p.2 := by
  rw [optionalTlv, optionalPart]
  split
  · rfl
  · exact (List.append_nil _).symm

/-- The TLVs that `buildLldp` writes before the end of the list. -/
def lldpParts (b : MatchPacketBuilder) : List (Nat × Bytes) :=
  [(LLDPTlv.CHASSIS_ID, lldpData b.lldpChassisId), (LLDPTlv.PORT_ID, lldpData b.lldpPortId),
    (LLDPTlv.TTL, bigBytes 2 b.lldpTtl.toNat)] ++
    (optionalPart LLDPTlv.SYS_NAME b.lldpSysName ++
      (optionalPart LLDPTlv.PORT_DESCR b.lldpPortDescr ++
        b.lldpCustom.map fun value => (LLDPTlv.ORG_SPECIFIC, lldpData value)))

theorem buildLldp_eq (b : MatchPacketBuilder) : b.buildLldp =
    b.addEthernet ++ (((lldpParts b).flatMap fun p => tlv p.1 p.2) ++ tlv LLDPTlv.END []) := by
  simp only [buildLldp, lldpParts, optionalTlv_eq, List.flatMap_append, List.flatMap_cons,
    List.flatMap_nil, List.flatMap_map, List.append_assoc, List.nil_append]

theorem length_lldpData (value : ByteBlock 64) : (lldpData value).length < 256 := by
  have bound := @length_window_le value.bytes 1 (min (big8 value.bytes 0) 63)
  rw [lldpData]
  omega

theorem writable_optionalPart (kind : type < 128) (more : type ≠ LLDPTlv.END)
    (value : ByteBlock 64) : ∀ p ∈ optionalPart type value, Writable p := by
  intro p part
  rw [optionalPart] at part
  split at part
  · cases part
  · obtain rfl := List.mem_singleton.mp part
    exact ⟨kind, more, length_lldpData value⟩

theorem writable_lldpParts (b : MatchPacketBuilder) : ∀ p ∈ lldpParts b, Writable p := by
  have one {type : Nat} {data : Bytes} (kind : type < 128) (more : type ≠ LLDPTlv.END)
      (short : data.length < 256) : Writable (type, data) := ⟨kind, more, short⟩
  intro p part
  simp only [lldpParts, List.mem_append, List.mem_cons, List.not_mem_nil, or_false,
    List.mem_map] at part
  rcases part with (rfl | rfl | rfl) | name | description | ⟨value, -, rfl⟩
  · exact one (by decide) (by decide) (length_lldpData _)
  · exact one (by decide) (by decide) (length_lldpData _)
  · exact one (by decide) (by decide) (by simp)
  · exact writable_optionalPart (by decide) (by decide) _ p name
  · exact writable_optionalPart (by decide) (by decide) _ p description
  · exact one (by decide) (by decide) (length_lldpData _)

theorem lldpData_eq {value : ByteBlock 64} (is : value.bytes = lldpValue data)
    (fits : data.length ≤ 63) : big8 value.bytes 0 = data.length ∧ lldpData value = data := by
  have least : min data.length 63 = data.length := min_eq_left fits
  have first : big8 value.bytes 0 = data.length := by
    rw [is, lldpValue, least]
    simp [big8]
    omega
  refine ⟨first, ?_⟩
  rw [lldpData, first, is, lldpValue, least, List.take_length]
  exact window_part (x := [UInt8.ofNat data.length]) _ rfl rfl

theorem lastTwo_bigBytes (n : Nat) : lastTwo (bigBytes 2 n) = bigBytes 2 n := by
  rfl

end

section

variable {new : List Item} {payload : Bytes}

def vlanItems (b : MatchPacketBuilder) : List Item :=
  if b.vlanVid = 0 then []
  else
    fieldItem .vlanVid (bigBytes 2 (4096 + b.vlanVid.toNat % 4096)) ::
      if b.vlanPcp.toNat = 0 then [] else [fieldItem .vlanPcp (bigBytes 1 b.vlanPcp.toNat)]

private theorem tci_parts {pcp : Nat} (small : pcp < 8) (vid : Nat) :
    let tci := (pcp <<< 13 ||| (vid &&& 0x0fff)) % 65536
    tci % 4096 = vid % 4096 ∧ tci >>> 13 = pcp := by
  have masked : vid &&& 0x0fff = vid % 4096 := Nat.and_two_pow_sub_one_eq_mod vid 12
  have sum : pcp <<< 13 ||| vid % 4096 = pcp * 8192 + vid % 4096 := by
    rw [← Nat.shiftLeft_add_eq_or_of_lt (by omega), Nat.shiftLeft_eq]
  simp only [masked, sum, Nat.shiftRight_eq_div_pow]
  omega

private theorem gains_tag (b : MatchPacketBuilder) :
    Gains (vlanItems b) fun s =>
      s |>.addUnchecked .vlanVid (bigBytes 2 (4096 + b.vlanVid.toNat % 4096))
        |>.addNonzero .vlanPcp b.vlanPcp.toNat |>.advance 4 := by
  intro s item there
  simp only [list_advance, mem_addNonzero, mem_addUnchecked]
  rw [vlanItems] at there
  split at there
  · simp only [List.not_mem_nil, or_false] at there
    exact .inl (.inl there)
  · split at there
    · simp only [List.mem_cons, List.not_mem_nil, or_false] at there
      exact .inl there
    · next priority =>
      simp only [List.mem_cons, List.not_mem_nil, or_false] at there
      rcases there with before | vid | pcp
      · exact .inl (.inl before)
      · exact .inl (.inr vid)
      · exact .inr ⟨priority, pcp⟩

private theorem gains_decodeVlan (b : MatchPacketBuilder) (small : b.vlanPcp.toNat < 8)
    (message : Gains new (decodeEthType b.ethType.toNat payload)) :
    Gains (vlanItems b ++ new)
      (decodeVlan (bigBytes 2 (b.vlanPcp.toNat <<< 13 ||| (b.vlanVid.toNat &&& 0x0fff)) ++
        (bigBytes 2 b.ethType.toNat ++ payload))) := by
  intro s item there
  obtain ⟨vid, pcp⟩ := tci_parts small b.vlanVid.toNat
  generalize b.vlanPcp.toNat <<< 13 ||| (b.vlanVid.toNat &&& 0x0fff) = tci at vid pcp ⊢
  have type : big16 (bigBytes 2 tci ++ (bigBytes 2 b.ethType.toNat ++ payload)) 2 =
      b.ethType.toNat := by
    rw [big16_within _ (length_bigBytes ..), Nat.mod_eq_of_lt b.ethType.toNat_lt]
  have tail : (bigBytes 2 tci ++ (bigBytes 2 b.ethType.toNat ++ payload)).drop 4 = payload := by
    simp [List.drop_append, List.drop_of_length_le]
  rw [decodeVlan, if_neg (by simp; omega)]
  simp only [big16_here, present_eq, vid, pcp, type, tail]
  exact (gains_tag b).comp message s item there

private theorem gains_addresses (dst src : Bytes) :
    Gains [fieldItem .ethDst dst, fieldItem .ethSrc src] fun s =>
      s |>.addUnchecked .ethDst dst |>.addUnchecked .ethSrc src |>.advance 14 := by
  intro s item there
  simp at there ⊢
  tauto

theorem gains_decodeEthernet_type {dst src : Bytes} (six : dst.length = 6) (six' : src.length = 6)
    {type : Nat} (small : type < 65536) {rest : Bytes}
    (next : Gains new fun s =>
      if type = DATALINK_8021Q then decodeVlan rest s else decodeEthType type rest s) :
    Gains ([fieldItem .ethDst dst, fieldItem .ethSrc src] ++ new)
      (decodeEthernet (dst ++ (src ++ (bigBytes 2 type ++ rest)))) := by
  intro s item there
  have number : big16 (dst ++ (src ++ (bigBytes 2 type ++ rest))) 12 = type := by
    simp [big16_skip, big16_here, six, six', Nat.mod_eq_of_lt small]
  have tail : (dst ++ (src ++ (bigBytes 2 type ++ rest))).drop 14 = rest := by
    simp [List.drop_append, List.drop_of_length_le, six, six']
  rw [decodeEthernet, if_neg (by simp; omega)]
  simp only [window_here _ six, window_part _ six six', number, tail]
  exact (gains_addresses dst src).comp next s item there

theorem gains_decodeEthernet (b : MatchPacketBuilder) (plain : b.ethType.toNat ≠ DATALINK_8021Q)
    (small : b.vlanPcp.toNat < 8) (message : Gains new (decodeEthType b.ethType.toNat payload)) :
    Gains ([fieldItem .ethDst b.ethDst.bytes, fieldItem .ethSrc b.ethSrc.bytes] ++
        (vlanItems b ++ new))
      (decodeEthernet (b.addEthernet ++ payload)) := by
  have dst := b.ethDst.length_bytes
  have src := b.ethSrc.length_bytes
  rw [addEthernet]
  split
  · next untagged =>
    have none : vlanItems b = [] := if_pos untagged
    rw [none, List.nil_append, List.append_assoc, List.append_assoc]
    refine gains_decodeEthernet_type dst src b.ethType.toNat_lt ?_
    simpa only [if_neg plain] using message
  · simp only [List.append_assoc]
    refine gains_decodeEthernet_type dst src (by decide) ?_
    simpa only [if_true] using gains_decodeVlan b small message

theorem mem_decode {pkt : Bytes} {item : Item}
    (found : item ∈ (decodeEthernet pkt ⟨[], 0⟩).list) : item ∈ (decode pkt).list := by
  rw [decode]
  split
  · exact mem_addUnchecked.mpr (.inl found)
  · exact found

end

end Libofp.Packet.FrameRecovery
