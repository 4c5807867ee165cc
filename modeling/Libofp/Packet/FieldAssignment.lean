/- GID: Libofp/Packet/FieldAssignment
   digest: The fields of a packet of one kind: the frame that is built of them is decoded to a
     list that has each of them again. -/

import Libofp.Packet.FrameRecovery

set_option autoImplicit false

namespace Libofp.Packet.FieldAssignment

open Octets.ByteRange Octets.BigEndian Octets.Fixed
open Oxm.Range Oxm.FieldTable Decoder PacketList
open FrameBuilder FrameBuilder.MatchPacketBuilder
open BuilderMembers WellFormed FrameRecovery
open Match.Builder (toRange)
open Oxm.Field (Host)

inductive Kind where
  | arp | lldp | icmpv4 | tcpv4 | icmpv6 | solicit | advertise
  deriving DecidableEq, Repr

namespace Kind

def selectors : Kind → List (InternalId × Bytes)
  | .arp => [(.ethType, bigBytes 2 DATALINK_ARP)]
  | .lldp => [(.ethType, bigBytes 2 DATALINK_LLDP)]
  | .icmpv4 => [(.ethType, bigBytes 2 DATALINK_IPV4), (.ipProto, bigBytes 1 PROTOCOL_ICMP)]
  | .tcpv4 => [(.ethType, bigBytes 2 DATALINK_IPV4), (.ipProto, bigBytes 1 PROTOCOL_TCP)]
  | .icmpv6 => [(.ethType, bigBytes 2 DATALINK_IPV6), (.ipProto, bigBytes 1 PROTOCOL_ICMPV6)]
  | .solicit => [(.ethType, bigBytes 2 DATALINK_IPV6), (.ipProto, bigBytes 1 PROTOCOL_ICMPV6),
      (.icmpv6Type, bigBytes 1 ICMPV6_TYPE_NEIGHBOR_SOLICIT)]
  | .advertise => [(.ethType, bigBytes 2 DATALINK_IPV6), (.ipProto, bigBytes 1 PROTOCOL_ICMPV6),
      (.icmpv6Type, bigBytes 1 ICMPV6_TYPE_NEIGHBOR_ADVERTISE)]

def upper : Kind → List InternalId
  | .arp => [.ethType, .arpOp, .arpSpa, .arpTpa, .arpSha, .arpTha]
  | .lldp => [.ethType, .xLldpChassisId, .xLldpPortId, .xLldpTtl, .xLldpSysName, .xLldpPortDescr,
      .xLldpOrgSpecific]
  | .icmpv4 => [.ethType, .ipProto, .ipv4Src, .ipv4Dst, .nxIpTtl, .icmpv4Type, .icmpv4Code]
  | .tcpv4 => [.ethType, .ipProto, .ipv4Src, .ipv4Dst, .nxIpTtl, .tcpSrc, .tcpDst]
  | .icmpv6 => [.ethType, .nxIpTtl, .ipv6Src, .ipv6Dst, .ipProto, .icmpv6Type, .icmpv6Code]
  | .solicit => [.ethType, .nxIpTtl, .ipv6Src, .ipv6Dst, .ipProto, .icmpv6Type, .icmpv6Code,
      .ipv6NdTarget, .ipv6NdSll]
  | .advertise => [.ethType, .nxIpTtl, .ipv6Src, .ipv6Dst, .ipProto, .icmpv6Type, .icmpv6Code,
      .ipv6NdTarget, .ipv6NdTll, .xIpv6NdRes]

def ids (kind : Kind) : List InternalId := [.ethDst, .ethSrc, .vlanVid, .vlanPcp] ++ kind.upper

/-- The length that the IP header states for a payload of `n` bytes. -/
def ipLength (kind : Kind) (n : Nat) : Nat :=
  match kind with
  | .arp | .lldp => 0
  | .icmpv4 => 20 + (4 + n)
  | .tcpv4 => 20 + (20 + n)
  | .icmpv6 => 4 + n
  | .solicit | .advertise => 32

theorem known_of_mem (kind : Kind) : ∀ id ∈ kind.ids, id ∈ known := by
  cases kind <;> decide

theorem member_injective (kind : Kind) :
    ∀ id ∈ kind.ids, ∀ id' ∈ kind.ids, member id = member id' → id = id' := by
  cases kind <;> decide

end Kind

def Valid (kind : Kind) (id : InternalId) (value : Bytes) : Prop :=
  match id with
  | .vlanVid => 0x1000 ≤ bigNat value ∧ bigNat value < 0x2000
  | .vlanPcp => 1 ≤ bigNat value ∧ bigNat value ≤ 7
  | .nxIpTtl => bigNat value ≠ 0
  | .icmpv6Type => kind = .icmpv6 → bigNat value ≠ ICMPV6_TYPE_NEIGHBOR_SOLICIT ∧
      bigNat value ≠ ICMPV6_TYPE_NEIGHBOR_ADVERTISE
  | .icmpv6Code => kind ≠ .icmpv6 → bigNat value = 0
  | .xLldpChassisId | .xLldpPortId | .xLldpOrgSpecific =>
    ∃ data : Bytes, data.length ≤ 63 ∧ value = lldpValue data
  | .xLldpSysName | .xLldpPortDescr =>
    ∃ data : Bytes, data ≠ [] ∧ data.length ≤ 63 ∧ value = lldpValue data
  | _ => True

/-- A field assignment: each field at most once, except for the one that is a list. -/
structure Assignment where
  kind : Kind
  fields : List (InternalId × Bytes)
  selected : ∀ p ∈ kind.selectors, p ∈ fields
  belongs : ∀ p ∈ fields, p.1 ∈ kind.ids
  once : fields.Pairwise fun p q => p.1 = q.1 → p.1 = .xLldpOrgSpecific
  sized : ∀ p ∈ fields, p.2.length = valueSize p.1
  valid : ∀ p ∈ fields, Valid kind p.1 p.2
  tagged : ∀ p ∈ fields, p.1 = .vlanPcp → ∃ q ∈ fields, q.1 = .vlanVid

namespace Assignment

variable (a : Assignment)

def builder : MatchPacketBuilder := ofRange (toRange (itemsFor a.fields))

theorem builder_eq : a.builder = assignAll {} a.fields :=
  ofRange_itemsFor (fun p given => a.kind.known_of_mem p.1 (a.belongs p given)) a.sized

variable {a} {id : InternalId} {value : Bytes}

theorem separate : Separate a.fields := by
  refine List.Pairwise.imp_of_mem ?_ a.once
  intro p q first second once same
  exact once (a.kind.member_injective p.1 (a.belongs p first) q.1 (a.belongs q second) same)

theorem stored_given (given : (id, value) ∈ a.fields) (one : id ≠ .xLldpOrgSpecific) :
    stored a.builder id = value := by
  have kept : id ∈ single :=
    (List.mem_cons.mp (a.kind.known_of_mem id (a.belongs _ given))).resolve_left one
  rw [builder_eq]
  exact stored_assignAll a.separate given kept (a.sized _ given)

private theorem stored_absent (inside : id ∈ a.kind.ids) (absent : ∀ p ∈ a.fields, p.1 ≠ id) :
    stored a.builder id = stored {} id := by
  rw [builder_eq]
  refine stored_assignAll_of_ne fun p given same => ?_
  exact absent p given (a.kind.member_injective id inside p.1 (a.belongs p given) same).symm

theorem stored_property {P : Bytes → Prop} (inside : id ∈ a.kind.ids)
    (one : id ≠ .xLldpOrgSpecific) (empty : P (stored {} id))
    (given : ∀ value, (id, value) ∈ a.fields → P value) : P (stored a.builder id) := by
  by_cases absent : ∀ p ∈ a.fields, p.1 ≠ id
  · rwa [stored_absent inside absent]
  · push Not at absent
    obtain ⟨⟨_, value⟩, listed, rfl⟩ := absent
    rw [stored_given listed one]
    exact given value listed

end Assignment

section

variable {host : Host} {b : MatchPacketBuilder} {data : Part} {items new : List Item}

def carried (b : MatchPacketBuilder) (id : InternalId) : Bytes :=
  if id = .nxIpTtl then bigBytes 1 b.ttl.toNat else stored b id

def carriedItems (b : MatchPacketBuilder) (ids : List InternalId) : List Item :=
  ids.map fun id => fieldItem id (carried b id)

def Delivers (b : MatchPacketBuilder) (frame : Bytes) (items : List Item) : Prop :=
  ∃ payload, frame = b.addEthernet ++ payload ∧
    Gains items (decodeEthType b.ethType.toNat payload)

theorem delivers_padded {msg body : Bytes} (built : msg = b.addEthernet ++ body)
    (gains : ∀ pad, Gains items (decodeEthType b.ethType.toNat (body ++ pad))) (pad : Bytes) :
    Delivers b (msg ++ pad) items := by
  refine ⟨body ++ pad, ?_, gains pad⟩
  rw [built, List.append_assoc]

theorem gains_decodeEthType {type : Nat} {pkt : Bytes} {next : MatchPacket → MatchPacket}
    (step : ∀ s, decodeEthType type pkt s = next (s.addUnchecked .ethType (bigBytes 2 type)))
    (gains : Gains new next) :
    Gains (fieldItem .ethType (bigBytes 2 type) :: new) (decodeEthType type pkt) := by
  intro s item there
  rw [step]
  apply gains
  simp only [mem_addUnchecked]
  rw [List.mem_cons] at there
  tauto

private theorem delivers_arp (type : b.ethType.toNat = DATALINK_ARP) :
    Delivers b (b.build host data) (carriedItems b Kind.arp.upper) := by
  simp only [MatchPacketBuilder.build, type]
  refine delivers_padded rfl (fun pad => ?_) _
  simp only [List.append_assoc]
  have message := gains_decodeARP (length_bigBytes 2 b.arpOp.toNat) b.arpSha.length_bytes
    b.arpSpa.length_bytes b.arpTha.length_bytes b.arpTpa.length_bytes pad
  exact gains_decodeEthType (fun s => by simp only [decodeEthType, type]) message

section

variable (type : b.ethType.toNat = DATALINK_IPV4)

include type

theorem delivers_ipv4 {payload : Bytes} (fits : 20 + payload.length ≤ 65535)
    (message : Gains new (decodeIPv4NextHdr payload b.ipProto.toNat)) (pad : Bytes) :
    Delivers b ((b.addEthernet ++ (b.addIPv4 host payload.length ++ payload)) ++ pad)
      (carriedItems b [.ethType, .ipProto, .ipv4Src, .ipv4Dst, .nxIpTtl] ++ new) := by
  refine delivers_padded rfl (fun pad => ?_) _
  rw [List.append_assoc]
  have packet := gains_decodeIPv4 host b fits message pad
  exact gains_decodeEthType (fun s => by simp only [decodeEthType, type]) packet

theorem delivers_icmpv4 (proto : b.ipProto.toNat = PROTOCOL_ICMP)
    (fits : Kind.icmpv4.ipLength data.data.length ≤ 65535) :
    Delivers b (b.build host data) (carriedItems b Kind.icmpv4.upper) := by
  simp only [MatchPacketBuilder.build, type, buildIPv4, proto, buildICMPv4]
  generalize checksum host [⟨b.icmpHdr [0, 0], true⟩, data] = cksum
  have two := cksum.length_bytes
  have size : (b.icmpHdr cksum.bytes ++ data.data).length = 4 + data.data.length := by
    simp only [icmpHdr, List.length_append, length_bigBytes]
    omega
  have message : Gains [fieldItem .icmpv4Type (bigBytes 1 b.icmpType.toNat),
      fieldItem .icmpv4Code (bigBytes 1 b.icmpCode.toNat)]
      (decodeIPv4NextHdr (b.icmpHdr cksum.bytes ++ data.data) b.ipProto.toNat) := by
    simp only [proto, icmpHdr, List.append_assoc]
    exact gains_decodeICMPv4 _ _ (by simp only [List.length_append]; omega)
  rw [← size]
  exact delivers_ipv4 type (by rw [size]; exact fits) message _

private theorem delivers_tcpv4 (proto : b.ipProto.toNat = PROTOCOL_TCP)
    (fits : Kind.tcpv4.ipLength data.data.length ≤ 65535) :
    Delivers b (b.build host data) (carriedItems b Kind.tcpv4.upper) := by
  simp only [MatchPacketBuilder.build, type, buildIPv4, proto, buildTCPv4]
  generalize checksum host [⟨b.tcpHdr [0, 0], true⟩, data] = cksum
  have two := cksum.length_bytes
  have size : (b.tcpHdr cksum.bytes ++ data.data).length = 20 + data.data.length := by
    simp only [tcpHdr, List.length_append, length_bigBytes, List.length_replicate]
    omega
  have message : Gains [fieldItem .tcpSrc (bigBytes 2 b.srcPort.toNat),
      fieldItem .tcpDst (bigBytes 2 b.dstPort.toNat)]
      (decodeIPv4NextHdr (b.tcpHdr cksum.bytes ++ data.data) b.ipProto.toNat) := by
    simp only [proto, tcpHdr, List.append_assoc]
    refine gains_decodeTCP _ _ ?_
    simp only [List.length_append, List.length_replicate]
    omega
  rw [← size]
  exact delivers_ipv4 type (by rw [size]; exact fits) message _

end

theorem delivers_ipv6 {length : Nat} {payload : Bytes} (type : b.ethType.toNat = DATALINK_IPV6)
    (proto : b.ipProto.toNat = PROTOCOL_ICMPV6)
    (message : ∀ pad, Gains new (decodeICMPv6 (payload ++ pad))) (pad : Bytes) :
    Delivers b ((b.addEthernet ++ (b.addIPv6 length ++ payload)) ++ pad)
      (carriedItems b [.ethType, .nxIpTtl, .ipv6Src, .ipv6Dst, .ipProto] ++ new) := by
  refine delivers_padded rfl (fun pad => ?_) _
  rw [List.append_assoc]
  have packet := gains_decodeIPv6 b length proto (message pad)
  rw [← proto] at packet
  exact gains_decodeEthType (fun s => by simp only [decodeEthType, type]) packet

private theorem delivers_icmpv6 (type : b.ethType.toNat = DATALINK_IPV6)
    (proto : b.ipProto.toNat = PROTOCOL_ICMPV6)
    (other : ¬ (b.icmpType.toNat = ICMPV6_TYPE_NEIGHBOR_SOLICIT ∨
      b.icmpType.toNat = ICMPV6_TYPE_NEIGHBOR_ADVERTISE)) :
    Delivers b (b.build host data) (carriedItems b Kind.icmpv6.upper) := by
  simp only [MatchPacketBuilder.build, type, buildIPv6, proto, if_neg other, buildICMPv6]
  generalize checksum host _ = cksum
  have two := cksum.length_bytes
  refine delivers_ipv6 type proto (fun pad => ?_) _
  simp only [icmpHdr, List.append_assoc]
  exact gains_decodeICMPv6 _ _ (by simp only [List.length_append]; omega)

theorem delivers_nd {id : InternalId} (type : b.ethType.toNat = DATALINK_IPV6)
    (proto : b.ipProto.toNat = PROTOCOL_ICMPV6) (code : b.icmpCode.toNat = 0)
    (kind : b.icmpType.toNat = ICMPV6_TYPE_NEIGHBOR_SOLICIT ∧ id = .ipv6NdSll ∨
      b.icmpType.toNat = ICMPV6_TYPE_NEIGHBOR_ADVERTISE ∧ id = .ipv6NdTll) :
    Delivers b (b.build host data)
      (carriedItems b [.ethType, .nxIpTtl, .ipv6Src, .ipv6Dst, .ipProto] ++
        ([fieldItem .icmpv6Type (bigBytes 1 b.icmpType.toNat),
            fieldItem .icmpv6Code (bigBytes 1 b.icmpCode.toNat)] ++
          ([fieldItem .ipv6NdTarget b.ndTarget.bytes, fieldItem id b.ndLl.bytes] ++
            if b.icmpType.toNat = ICMPV6_TYPE_NEIGHBOR_ADVERTISE then
              [fieldItem .xIpv6NdRes (bigBytes 4 b.ndRes.toNat)] else []))) := by
  have discovery : b.icmpType.toNat = ICMPV6_TYPE_NEIGHBOR_SOLICIT ∨
      b.icmpType.toNat = ICMPV6_TYPE_NEIGHBOR_ADVERTISE := by
    tauto
  simp only [MatchPacketBuilder.build, type, buildIPv6, proto, if_pos discovery, buildICMPv6ND,
    buildICMPv6]
  generalize checksum host _ = cksum
  have two := cksum.length_bytes
  refine delivers_ipv6 type proto (fun pad => ?_) _
  simp only [icmpHdr, ndData, List.append_assoc, code]
  rcases kind with ⟨solicit, rfl⟩ | ⟨advertise, rfl⟩
  · have other : ¬ b.icmpType.toNat = ICMPV6_TYPE_NEIGHBOR_ADVERTISE := by
      rw [solicit]
      decide
    rw [if_pos solicit, if_neg other, if_neg other]
    have message := gains_decodeICMPv6_nd two (length_bigBytes 4 0) b.ndTarget.length_bytes
      b.ndLl.length_bytes (.inl ⟨solicit, rfl, rfl⟩) pad
    rwa [if_neg other] at message
  · have other : ¬ b.icmpType.toNat = ICMPV6_TYPE_NEIGHBOR_SOLICIT := by
      rw [advertise]
      decide
    rw [if_neg other, if_pos advertise, if_pos advertise]
    have message := gains_decodeICMPv6_nd two (length_bigBytes 4 b.ndRes.toNat)
      b.ndTarget.length_bytes b.ndLl.length_bytes (.inr ⟨advertise, rfl, rfl⟩) pad
    rwa [if_pos advertise] at message

private theorem delivers_solicit (type : b.ethType.toNat = DATALINK_IPV6)
    (proto : b.ipProto.toNat = PROTOCOL_ICMPV6) (code : b.icmpCode.toNat = 0)
    (kind : b.icmpType.toNat = ICMPV6_TYPE_NEIGHBOR_SOLICIT) :
    Delivers b (b.build host data) (carriedItems b Kind.solicit.upper) := by
  have message := @delivers_nd host b data _ type proto code (.inl ⟨kind, rfl⟩)
  rwa [if_neg (by rw [kind]; decide)] at message

private theorem delivers_advertise (type : b.ethType.toNat = DATALINK_IPV6)
    (proto : b.ipProto.toNat = PROTOCOL_ICMPV6) (code : b.icmpCode.toNat = 0)
    (kind : b.icmpType.toNat = ICMPV6_TYPE_NEIGHBOR_ADVERTISE) :
    Delivers b (b.build host data) (carriedItems b Kind.advertise.upper) := by
  have message := @delivers_nd host b data _ type proto code (.inr ⟨kind, rfl⟩)
  rwa [if_pos kind] at message

def lldpItems (b : MatchPacketBuilder) : List Item :=
  fieldItem .ethType (bigBytes 2 b.ethType.toNat) ::
    (lldpParts b).flatMap fun p => tlvItems p.1 p.2

private theorem delivers_lldp (type : b.ethType.toNat = DATALINK_LLDP) :
    Delivers b (b.build host data) (lldpItems b) := by
  simp only [MatchPacketBuilder.build, type]
  refine delivers_padded (buildLldp_eq b) (fun pad => ?_) _
  rw [List.append_assoc]
  have message := gains_decodeLLDP (writable_lldpParts b) pad
  exact gains_decodeEthType (fun s => by simp only [decodeEthType, type, written]) message

theorem mem_decode_build (delivers : Delivers b (b.build host data) items)
    (plain : b.ethType.toNat ≠ DATALINK_8021Q) (small : b.vlanPcp.toNat < 8) {item : Item}
    (listed : item ∈ [fieldItem .ethDst b.ethDst.bytes, fieldItem .ethSrc b.ethSrc.bytes] ++
      (vlanItems b ++ items)) : item ∈ (decode (b.build host data)).list := by
  obtain ⟨payload, built, message⟩ := delivers
  rw [built]
  exact mem_decode (gains_decodeEthernet b plain small message _ item (.inr listed))

end

namespace Assignment

variable {a : Assignment} {p : InternalId × Bytes}

section

variable {n : Nat} {value : Bytes}

theorem bigNat_byte (x : UInt8) : bigNat (bigBytes 1 x.toNat) = x.toNat := by
  rw [bigNat_bigBytes]
  exact Nat.mod_eq_of_lt x.toNat_lt

private theorem bigNat_word (x : UInt16) : bigNat (bigBytes 2 x.toNat) = x.toNat := by
  rw [bigNat_bigBytes]
  exact Nat.mod_eq_of_lt x.toNat_lt

theorem ethType_eq (small : n < 65536) (given : (.ethType, bigBytes 2 n) ∈ a.fields) :
    a.builder.ethType.toNat = n :=
  bigBytes_inj a.builder.ethType.toNat_lt small (stored_given given (by decide))

theorem ipProto_eq (small : n < 256) (given : (.ipProto, bigBytes 1 n) ∈ a.fields) :
    a.builder.ipProto.toNat = n :=
  bigBytes_inj a.builder.ipProto.toNat_lt small (stored_given given (by decide))

theorem icmpType_eq (small : n < 256) (given : (.icmpv6Type, bigBytes 1 n) ∈ a.fields) :
    a.builder.icmpType.toNat = n :=
  bigBytes_inj a.builder.icmpType.toNat_lt small (stored_given given (by decide))

end

private theorem vlanPcp_lt : a.builder.vlanPcp.toNat < 8 := by
  have bound : bigNat (stored a.builder .vlanPcp) < 8 := by
    refine stored_property (P := fun value => bigNat value < 8) ?_ (by decide) (by decide) ?_
    · exact List.mem_append_left _ (by decide)
    · intro value given
      have range : 1 ≤ bigNat value ∧ bigNat value ≤ 7 := a.valid _ given
      show bigNat value < 8
      omega
  rwa [stored, bigNat_byte] at bound

theorem vlanVid_range (given : p ∈ a.fields) (is : p.1 = .vlanVid) :
    0x1000 ≤ a.builder.vlanVid.toNat ∧ a.builder.vlanVid.toNat < 0x2000 := by
  obtain ⟨id, value⟩ := p
  obtain rfl : id = .vlanVid := is
  have same : bigBytes 2 a.builder.vlanVid.toNat = value := stored_given given (by decide)
  have range : 0x1000 ≤ bigNat value ∧ bigNat value < 0x2000 := a.valid _ given
  rwa [← same, bigNat_word] at range

theorem vlanVid_ne_zero (given : p ∈ a.fields) (is : p.1 = .vlanVid) : a.builder.vlanVid ≠ 0 := by
  intro zero
  have range := vlanVid_range given is
  rw [zero] at range
  exact absurd range.1 (by decide)

private theorem mem_header (given : p ∈ a.fields)
    (header : p.1 ∈ [InternalId.ethDst, .ethSrc, .vlanVid, .vlanPcp]) :
    fieldItem p.1 p.2 ∈ [fieldItem .ethDst a.builder.ethDst.bytes,
      fieldItem .ethSrc a.builder.ethSrc.bytes] ++ vlanItems a.builder := by
  obtain ⟨id, value⟩ := p
  simp only [List.mem_cons, List.not_mem_nil, or_false] at header
  rcases header with rfl | rfl | rfl | rfl
  · have same : a.builder.ethDst.bytes = value := stored_given given (by decide)
    rw [same]
    exact List.mem_cons_self
  · have same : a.builder.ethSrc.bytes = value := stored_given given (by decide)
    rw [same]
    exact List.mem_cons_of_mem _ List.mem_cons_self
  · have same : bigBytes 2 a.builder.vlanVid.toNat = value := stored_given given (by decide)
    have range := vlanVid_range given rfl
    have whole : 4096 + a.builder.vlanVid.toNat % 4096 = a.builder.vlanVid.toNat := by
      omega
    rw [vlanItems, if_neg (vlanVid_ne_zero given rfl), whole, same]
    exact List.mem_append_right _ List.mem_cons_self
  · have same : bigBytes 1 a.builder.vlanPcp.toNat = value := stored_given given (by decide)
    obtain ⟨q, tag, is⟩ := a.tagged _ given rfl
    have range : 1 ≤ bigNat value ∧ bigNat value ≤ 7 := a.valid _ given
    rw [← same, bigNat_byte] at range
    rw [vlanItems, if_neg (vlanVid_ne_zero tag is), if_neg (by omega), same]
    exact List.mem_append_right _ (List.mem_cons_of_mem _ List.mem_cons_self)

private theorem carried_given {id : InternalId} {value : Bytes} (given : (id, value) ∈ a.fields)
    (one : id ≠ .xLldpOrgSpecific) : carried a.builder id = value := by
  have same := stored_given given one
  rw [carried]
  split
  · next ttl =>
    subst ttl
    have number : bigBytes 1 a.builder.ipTtl.toNat = value := same
    have positive : bigNat value ≠ 0 := a.valid _ given
    have nonzero : a.builder.ipTtl ≠ 0 := by
      intro zero
      rw [← number, zero] at positive
      exact positive rfl
    rw [ttl, if_pos nonzero, number]
  · exact same

private theorem mem_carriedItems (given : p ∈ a.fields) (one : p.1 ≠ .xLldpOrgSpecific)
    {ids : List InternalId} (upper : p.1 ∈ ids) :
    fieldItem p.1 p.2 ∈ carriedItems a.builder ids := by
  refine List.mem_map.mpr ⟨p.1, upper, ?_⟩
  rw [carried_given given one]

section

variable {type : Nat} {id : InternalId} {value data : Bytes}

theorem mem_lldpItems {b : MatchPacketBuilder} {item : Item} (part : (type, data) ∈ lldpParts b)
    (is : tlvItems type data = [item]) : item ∈ lldpItems b := by
  refine List.mem_cons_of_mem _ (List.mem_flatMap.mpr ⟨(type, data), part, ?_⟩)
  rw [is]
  exact List.mem_cons_self

theorem mem_optionalPart {block : ByteBlock 64} (is : block.bytes = lldpValue data)
    (some : data ≠ []) (fits : data.length ≤ 63) : (type, data) ∈ optionalPart type block := by
  obtain ⟨size, content⟩ := lldpData_eq is fits
  have positive : ¬ big8 block.bytes 0 = 0 := by
    rw [size]
    exact fun none => some (List.length_eq_zero_iff.mp none)
  rw [optionalPart, if_neg positive, content]
  exact List.mem_cons_self

private theorem mem_lldpCustom (given : (.xLldpOrgSpecific, value) ∈ a.fields) :
    ByteBlock.copy 64 value ∈ a.builder.lldpCustom := by
  rw [builder_eq, lldpCustom_assignAll]
  refine List.mem_append_right _ (List.mem_map.mpr ⟨_, List.mem_filter.mpr ⟨given, ?_⟩, rfl⟩)
  exact decide_eq_true rfl

private theorem mem_lldp (given : p ∈ a.fields) (upper : p.1 ∈ Kind.lldp.upper) :
    fieldItem p.1 p.2 ∈ lldpItems a.builder := by
  obtain ⟨id, value⟩ := p
  simp only [Kind.upper, List.mem_cons, List.not_mem_nil, or_false] at upper
  rcases upper with rfl | rfl | rfl | rfl | rfl | rfl | rfl
  · have same : bigBytes 2 a.builder.ethType.toNat = value := stored_given given (by decide)
    rw [lldpItems, same]
    exact List.mem_cons_self
  · have same : a.builder.lldpChassisId.bytes = value := stored_given given (by decide)
    obtain ⟨data, fits, rfl⟩ : ∃ data : Bytes, data.length ≤ 63 ∧ value = lldpValue data :=
      a.valid _ given
    have part : (LLDPTlv.CHASSIS_ID, data) ∈ lldpParts a.builder := by
      simp [lldpParts, (lldpData_eq same fits).2]
    exact mem_lldpItems part rfl
  · have same : a.builder.lldpPortId.bytes = value := stored_given given (by decide)
    obtain ⟨data, fits, rfl⟩ : ∃ data : Bytes, data.length ≤ 63 ∧ value = lldpValue data :=
      a.valid _ given
    have part : (LLDPTlv.PORT_ID, data) ∈ lldpParts a.builder := by
      simp [lldpParts, (lldpData_eq same fits).2]
    exact mem_lldpItems part rfl
  · have same : bigBytes 2 a.builder.lldpTtl.toNat = value := stored_given given (by decide)
    have part : (LLDPTlv.TTL, value) ∈ lldpParts a.builder := by
      simp [lldpParts, same]
    refine mem_lldpItems part ?_
    rw [tlvItems, ← same, lastTwo_bigBytes]
  · have same : a.builder.lldpSysName.bytes = value := stored_given given (by decide)
    obtain ⟨data, some, fits, rfl⟩ :
      ∃ data : Bytes, data ≠ [] ∧ data.length ≤ 63 ∧ value = lldpValue data := a.valid _ given
    have part : (LLDPTlv.SYS_NAME, data) ∈ lldpParts a.builder :=
      List.mem_append_right _ (List.mem_append_left _ (mem_optionalPart same some fits))
    exact mem_lldpItems part rfl
  · have same : a.builder.lldpPortDescr.bytes = value := stored_given given (by decide)
    obtain ⟨data, some, fits, rfl⟩ :
      ∃ data : Bytes, data ≠ [] ∧ data.length ≤ 63 ∧ value = lldpValue data := a.valid _ given
    have part : (LLDPTlv.PORT_DESCR, data) ∈ lldpParts a.builder :=
      List.mem_append_right _ (List.mem_append_right _ (List.mem_append_left _
        (mem_optionalPart same some fits)))
    exact mem_lldpItems part rfl
  · obtain ⟨data, fits, rfl⟩ : ∃ data : Bytes, data.length ≤ 63 ∧ value = lldpValue data :=
      a.valid _ given
    have content := (lldpData_eq (ByteBlock.bytes_copy (length_lldpValue data)) fits).2
    have part : (LLDPTlv.ORG_SPECIFIC, data) ∈ lldpParts a.builder := by
      refine List.mem_append_right _ (List.mem_append_right _ (List.mem_append_right _ ?_))
      exact List.mem_map.mpr ⟨_, mem_lldpCustom given, by rw [content]⟩
    exact mem_lldpItems part rfl

end

theorem icmpCode_eq (discovery : a.kind = .solicit ∨ a.kind = .advertise) :
    a.builder.icmpCode.toNat = 0 := by
  have inside : .icmpv6Code ∈ a.kind.ids := by
    rcases discovery with is | is <;> (rw [is]; decide)
  have other : a.kind ≠ .icmpv6 := by
    rcases discovery with is | is <;> (rw [is]; decide)
  have number : bigNat (stored a.builder .icmpv6Code) = 0 :=
    stored_property (P := fun value => bigNat value = 0) inside (by decide) (by decide)
      fun value given => a.valid (.icmpv6Code, value) given other
  rwa [stored, bigNat_byte] at number

private theorem icmpType_other (kind : a.kind = .icmpv6) :
    ¬ (a.builder.icmpType.toNat = ICMPV6_TYPE_NEIGHBOR_SOLICIT ∨
      a.builder.icmpType.toNat = ICMPV6_TYPE_NEIGHBOR_ADVERTISE) := by
  have inside : .icmpv6Type ∈ a.kind.ids := by
    rw [kind]
    decide
  have number : bigNat (stored a.builder .icmpv6Type) ≠ ICMPV6_TYPE_NEIGHBOR_SOLICIT ∧
      bigNat (stored a.builder .icmpv6Type) ≠ ICMPV6_TYPE_NEIGHBOR_ADVERTISE :=
    stored_property (P := fun value => bigNat value ≠ ICMPV6_TYPE_NEIGHBOR_SOLICIT ∧
      bigNat value ≠ ICMPV6_TYPE_NEIGHBOR_ADVERTISE) inside (by decide) (by decide)
      fun value given => a.valid (.icmpv6Type, value) given kind
  rw [stored, bigNat_byte] at number
  tauto

private theorem delivers_carried (host : Host) (data : Part) (other : a.kind ≠ .lldp)
    (fits : a.kind.ipLength data.data.length ≤ 65535) :
    Delivers a.builder (a.builder.build host data) (carriedItems a.builder a.kind.upper) := by
  have selected := a.selected
  cases is : a.kind with
  | lldp => exact absurd is other
  | arp =>
    simp only [is, Kind.selectors, List.forall_mem_cons] at selected
    exact delivers_arp (ethType_eq (by decide) selected.1)
  | icmpv4 =>
    simp only [is, Kind.selectors, List.forall_mem_cons] at selected fits
    exact delivers_icmpv4 (ethType_eq (by decide) selected.1)
      (ipProto_eq (by decide) selected.2.1) fits
  | tcpv4 =>
    simp only [is, Kind.selectors, List.forall_mem_cons] at selected fits
    exact delivers_tcpv4 (ethType_eq (by decide) selected.1)
      (ipProto_eq (by decide) selected.2.1) fits
  | icmpv6 =>
    simp only [is, Kind.selectors, List.forall_mem_cons] at selected
    exact delivers_icmpv6 (ethType_eq (by decide) selected.1)
      (ipProto_eq (by decide) selected.2.1) (icmpType_other is)
  | solicit =>
    simp only [is, Kind.selectors, List.forall_mem_cons] at selected
    exact delivers_solicit (ethType_eq (by decide) selected.1)
      (ipProto_eq (by decide) selected.2.1) (icmpCode_eq (.inl is))
      (icmpType_eq (by decide) selected.2.2.1)
  | advertise =>
    simp only [is, Kind.selectors, List.forall_mem_cons] at selected
    exact delivers_advertise (ethType_eq (by decide) selected.1)
      (ipProto_eq (by decide) selected.2.1) (icmpCode_eq (.inr is))
      (icmpType_eq (by decide) selected.2.2.1)

private theorem ethType_plain : a.builder.ethType.toNat ≠ DATALINK_8021Q := by
  obtain ⟨n, small, given, plain⟩ : ∃ n < 65536, (.ethType, bigBytes 2 n) ∈ a.kind.selectors ∧
      n ≠ DATALINK_8021Q := by
    cases a.kind
    case arp => exact ⟨DATALINK_ARP, by decide, List.mem_cons_self, by decide⟩
    case lldp => exact ⟨DATALINK_LLDP, by decide, List.mem_cons_self, by decide⟩
    case icmpv4 | tcpv4 => exact ⟨DATALINK_IPV4, by decide, List.mem_cons_self, by decide⟩
    all_goals exact ⟨DATALINK_IPV6, by decide, List.mem_cons_self, by decide⟩
  rwa [ethType_eq small (a.selected _ given)]

private theorem mem_upper (host : Host) (data : Part)
    (fits : a.kind.ipLength data.data.length ≤ 65535) :
    ∃ items, Delivers a.builder (a.builder.build host data) items ∧
      ∀ p ∈ a.fields, p.1 ∈ a.kind.upper → fieldItem p.1 p.2 ∈ items := by
  by_cases lldp : a.kind = .lldp
  · have type : (.ethType, bigBytes 2 DATALINK_LLDP) ∈ a.kind.selectors := by
      rw [lldp]
      exact List.mem_cons_self
    refine ⟨_, delivers_lldp (ethType_eq (by decide) (a.selected _ type)), ?_⟩
    intro p given upper
    rw [lldp] at upper
    exact mem_lldp given upper
  · refine ⟨_, delivers_carried host data lldp fits, ?_⟩
    intro p given upper
    refine mem_carriedItems given ?_ upper
    intro custom
    rw [custom] at upper
    cases is : a.kind with
    | lldp => exact lldp is
    | _ =>
      rw [is] at upper
      exact absurd upper (by decide)

/-- A frame that is built of fields is decoded to a list that has each of them, with its
value. -/
theorem fields_recovered (a : Assignment) (host : Host) (data : Part)
    (fits : a.kind.ipLength data.data.length ≤ 65535) :
    ∀ p ∈ a.fields, fieldItem p.1 p.2 ∈
      (decode ((ofRange (toRange (itemsFor a.fields))).build host data)).list := by
  intro p given
  obtain ⟨items, delivers, listed⟩ := mem_upper host data fits
  refine mem_decode_build delivers ethType_plain vlanPcp_lt ?_
  rcases List.mem_append.mp (a.belongs p given) with header | upper
  · rw [← List.append_assoc]
    exact List.mem_append_left _ (mem_header given header)
  · exact List.mem_append_right _ (List.mem_append_right _ (listed p given upper))

def taggedTcp : Assignment where
  kind := .tcpv4
  fields := [(.ethDst, [2, 0, 0, 0, 0, 1]), (.vlanVid, [0x10, 0x64]), (.vlanPcp, [5]),
    (.ethType, [0x08, 0x00]), (.ipv4Src, [10, 0, 0, 1]), (.nxIpTtl, [3]), (.ipProto, [6]),
    (.tcpSrc, [0x1f, 0x90]), (.tcpDst, [0, 80])]
  selected := by decide
  belongs := by decide
  once := by decide
  sized := by decide
  valid := by
    simp [Valid, bigNat]
  tagged := by decide

theorem fields_recovered_tcp : taggedTcp.kind.ipLength 3 ≤ 65535 ∧
    ∀ p ∈ taggedTcp.fields, fieldItem p.1 p.2 ∈
      (decode ((ofRange (toRange (itemsFor taggedTcp.fields))).build .little
        ⟨[1, 2, 3], true⟩)).list :=
  ⟨by decide, fields_recovered taggedTcp .little ⟨[1, 2, 3], true⟩ (by decide)⟩

end Assignment

end Libofp.Packet.FieldAssignment
