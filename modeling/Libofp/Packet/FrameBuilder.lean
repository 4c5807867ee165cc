/- GID: Libofp/Packet/FrameBuilder
   digest: The packet builder: a list of OXM fields is read into the members of the builder,
     and an Ethernet frame is made of them. -/

import Libofp.Octets.Fixed
import Libofp.Oxm.Field
import Libofp.Packet.Decoder

set_option autoImplicit false

namespace Libofp.Packet.FrameBuilder

open Octets.ByteRange Octets.ByteList Octets.BigEndian Octets.Fixed
open Oxm.Range Oxm.FieldTable Decoder
open Oxm.Field (Host)

section

variable (host : Host)

def fold (n : UInt32) : UInt16 :=
  let n : UInt32 := (n &&& (0xffff : UInt32)) + (n >>> (16 : UInt32))
  let n : UInt32 := n + (n >>> (16 : UInt32))
  n.toUInt16

/-- The number that the host reads from two bytes of memory. -/
def native16 (first second : UInt8) : UInt16 :=
  match host with
  | .little => second.toUInt16 * 256 + first.toUInt16
  | .big => first.toUInt16 * 256 + second.toUInt16

/-- `to16`: a byte in the place that an offset gives, and zero in the other. -/
def to16 (b : UInt8) (offset : Nat) : UInt16 :=
  if offset = 0 then native16 host b 0 else native16 host 0 b

/-- `while (size > 1)`, and the last byte behind it. -/
def sumWords (sum : UInt32) : Bytes → UInt32
  | first :: second :: rest => sumWords (sum + (native16 host first second).toUInt32) rest
  | [last] => sum + (to16 host last 0).toUInt32
  | [] => sum

def swapByteOrder (n : UInt16) : UInt16 := n <<< (8 : UInt16) ||| n >>> (8 : UInt16)

/-- `sum1c` of data that starts at an even address or not. -/
def sum1c (accum : UInt16) (data : Bytes) (aligned odd : Bool) : UInt16 :=
  let (sum, rest, odd) : UInt32 × Bytes × Bool :=
    match data, aligned with
    | first :: rest, false => ((to16 host first 1).toUInt32, rest, !odd)
    | data, _ => (0, data, odd)
  let result := fold (sumWords host sum rest)
  let result := if odd then swapByteOrder result else result
  if accum = 0 then result else fold (accum.toUInt32 + result.toUInt32)

/-- A part of the data of a checksum: where it starts matters to the way it is summed. -/
structure Part where
  data : Bytes
  aligned : Bool := true

/-- `pkt::Checksum` of up to three parts, as it is stored: without a change of byte order. -/
def checksum (parts : List Part) : ByteBlock 2 :=
  let start : UInt16 × Nat := (0, 0)
  let (sum, _) := parts.foldl (fun (sum, size) part =>
    (sum1c host sum part.data part.aligned (size % 2 ≠ 0), size + part.data.length)) start
  let stored := ~~~ sum
  match host with
  | .little => ⟨[stored.toUInt8, (stored >>> (8 : UInt16)).toUInt8], rfl⟩
  | .big => ⟨[(stored >>> (8 : UInt16)).toUInt8, stored.toUInt8], rfl⟩

end

/-- The members of `MatchPacketBuilder`. An `LLDPValue` is kept as a size and 63 bytes. -/
structure MatchPacketBuilder where
  ethDst : ByteBlock 6 := .zero 6
  ethSrc : ByteBlock 6 := .zero 6
  ethType : UInt16 := 0
  vlanVid : UInt16 := 0
  vlanPcp : UInt8 := 0
  arpOp : UInt16 := 0
  arpSpa : ByteBlock 4 := .zero 4
  arpTpa : ByteBlock 4 := .zero 4
  arpSha : ByteBlock 6 := .zero 6
  arpTha : ByteBlock 6 := .zero 6
  icmpType : UInt8 := 0
  icmpCode : UInt8 := 0
  ipv4Src : ByteBlock 4 := .zero 4
  ipv4Dst : ByteBlock 4 := .zero 4
  ipv6Src : ByteBlock 16 := .zero 16
  ipv6Dst : ByteBlock 16 := .zero 16
  srcPort : UInt16 := 0
  dstPort : UInt16 := 0
  ipProto : UInt8 := 0
  ipTtl : UInt8 := 0
  ndTarget : ByteBlock 16 := .zero 16
  ndLl : ByteBlock 6 := .zero 6
  ndRes : UInt32 := 0
  lldpChassisId : ByteBlock 64 := .zero 64
  lldpPortId : ByteBlock 64 := .zero 64
  lldpTtl : UInt16 := 0
  lldpSysName : ByteBlock 64 := .zero 64
  lldpPortDescr : ByteBlock 64 := .zero 64
  lldpCustom : List (ByteBlock 64) := []

/-- `item.value<Type>()`, for a type of 8, 16 or 32 bits in native order. -/
def value8 (data : Bytes) : UInt8 := UInt8.ofNat (ByteBlock.copy 1 data).toNat

def value16 (data : Bytes) : UInt16 := UInt16.ofNat (ByteBlock.copy 2 data).toNat

def value32 (data : Bytes) : UInt32 := UInt32.ofNat (ByteBlock.copy 4 data).toNat

def idOfType (type : Nat) : Option InternalId := InternalId.all.find? (·.type == type)

namespace MatchPacketBuilder

/-- What a `case` of the constructor does with the value of an item. -/
def assign (b : MatchPacketBuilder) (id : InternalId) (data : Bytes) : MatchPacketBuilder :=
  match id with
  | .ethDst => { b with ethDst := .copy 6 data }
  | .ethSrc => { b with ethSrc := .copy 6 data }
  | .ethType => { b with ethType := value16 data }
  | .vlanVid => { b with vlanVid := value16 data }
  | .vlanPcp => { b with vlanPcp := value8 data }
  | .arpOp => { b with arpOp := value16 data }
  | .arpSha => { b with arpSha := .copy 6 data }
  | .arpSpa => { b with arpSpa := .copy 4 data }
  | .arpTha => { b with arpTha := .copy 6 data }
  | .arpTpa => { b with arpTpa := .copy 4 data }
  | .ipv4Src => { b with ipv4Src := .copy 4 data }
  | .ipv4Dst => { b with ipv4Dst := .copy 4 data }
  | .ipv6Src => { b with ipv6Src := .copy 16 data }
  | .ipv6Dst => { b with ipv6Dst := .copy 16 data }
  | .ipProto => { b with ipProto := value8 data }
  | .nxIpTtl => { b with ipTtl := value8 data }
  | .tcpSrc => { b with srcPort := value16 data }
  | .tcpDst => { b with dstPort := value16 data }
  | .icmpv4Code | .icmpv6Code => { b with icmpCode := value8 data }
  | .icmpv4Type | .icmpv6Type => { b with icmpType := value8 data }
  | .ipv6NdTarget => { b with ndTarget := .copy 16 data }
  | .ipv6NdSll | .ipv6NdTll => { b with ndLl := .copy 6 data }
  | .xLldpChassisId => { b with lldpChassisId := .copy 64 data }
  | .xLldpPortId => { b with lldpPortId := .copy 64 data }
  | .xLldpTtl => { b with lldpTtl := value16 data }
  | .xLldpSysName => { b with lldpSysName := .copy 64 data }
  | .xLldpPortDescr => { b with lldpPortDescr := .copy 64 data }
  | .xLldpOrgSpecific => { b with lldpCustom := b.lldpCustom ++ [.copy 64 data] }
  | .xIpv6NdRes => { b with ndRes := value32 data }
  -- An unknown field is only logged.
  | _ => b

/-- `switch (type)`. The value of a field of an experimenter starts behind its number. -/
def setField (b : MatchPacketBuilder) (item : Item) : MatchPacketBuilder :=
  match idOfType item.type with
  | some id => b.assign id (if id.isExperimenter then item.payload.drop 4 else item.payload)
  | none => b

/-- The constructor of `MatchPacketBuilder`. -/
def ofRange (range : Bytes) : MatchPacketBuilder := (items range).foldl setField {}

section

variable (host : Host) (b : MatchPacketBuilder)

def addEthernet : Bytes :=
  b.ethDst.bytes ++ (b.ethSrc.bytes ++
    if b.vlanVid = 0 then bigBytes 2 b.ethType.toNat
    else
      let tci := b.vlanPcp.toNat <<< 13 ||| (b.vlanVid.toNat &&& 0x0fff)
      bigBytes 2 DATALINK_8021Q ++ (bigBytes 2 tci ++ bigBytes 2 b.ethType.toNat))

def ttl : UInt8 := if b.ipTtl ≠ 0 then b.ipTtl else 64

def ipv4Hdr (length : Nat) (cksum : Bytes) : Bytes :=
  bigBytes 1 0x45 ++ (bigBytes 1 0 ++ (bigBytes 2 (20 + length) ++ (bigBytes 2 0 ++ (bigBytes 2 0 ++
    (bigBytes 1 b.ttl.toNat ++ (bigBytes 1 b.ipProto.toNat ++ (cksum ++
      (b.ipv4Src.bytes ++ b.ipv4Dst.bytes))))))))

def addIPv4 (length : Nat) : Bytes :=
  b.ipv4Hdr length (checksum host [⟨b.ipv4Hdr length [0, 0], true⟩]).bytes

def addIPv6 (length : Nat) : Bytes :=
  bigBytes 4 0x60000000 ++ (bigBytes 2 length ++ (bigBytes 1 b.ipProto.toNat ++
    (bigBytes 1 b.ttl.toNat ++ (b.ipv6Src.bytes ++ b.ipv6Dst.bytes))))

def buildEthernet (data : Bytes) : Bytes := b.addEthernet ++ data

def buildArp : Bytes :=
  b.addEthernet ++ (arpPrefix ++ (bigBytes 2 b.arpOp.toNat ++ (b.arpSha.bytes ++ (b.arpSpa.bytes ++
    (b.arpTha.bytes ++ b.arpTpa.bytes)))))

/-- `LLDPTlv{type, length}`: the ninth bit of the length is lost in the narrowing cast. -/
def lldpTlv (type length : Nat) : Bytes :=
  bigBytes 1 (type <<< 1 ||| (length &&& 0x0100)) ++ bigBytes 1 (length &&& 0x00FF)

def tlv (type : Nat) (data : Bytes) : Bytes := lldpTlv type data.length ++ data

/-- The `size()` bytes at `data()` of an `LLDPValue`. -/
def lldpData (value : ByteBlock 64) : Bytes :=
  window value.bytes 1 (min (big8 value.bytes 0) 63)

def optionalTlv (type : Nat) (value : ByteBlock 64) : Bytes :=
  if big8 value.bytes 0 = 0 then [] else tlv type (lldpData value)

def buildLldp : Bytes :=
  b.addEthernet ++ (tlv LLDPTlv.CHASSIS_ID (lldpData b.lldpChassisId) ++
    (tlv LLDPTlv.PORT_ID (lldpData b.lldpPortId) ++
      (tlv LLDPTlv.TTL (bigBytes 2 b.lldpTtl.toNat) ++
        (optionalTlv LLDPTlv.SYS_NAME b.lldpSysName ++
          (optionalTlv LLDPTlv.PORT_DESCR b.lldpPortDescr ++
            (b.lldpCustom.flatMap (fun value => tlv LLDPTlv.ORG_SPECIFIC (lldpData value)) ++
              tlv LLDPTlv.END []))))))

def buildIPv4Other (data : Bytes) : Bytes :=
  b.addEthernet ++ (b.addIPv4 host data.length ++ data)

def icmpHdr (cksum : Bytes) : Bytes :=
  bigBytes 1 b.icmpType.toNat ++ (bigBytes 1 b.icmpCode.toNat ++ cksum)

def buildICMPv4 (data : Part) : Bytes :=
  b.addEthernet ++ (b.addIPv4 host (4 + data.data.length) ++
    (b.icmpHdr (checksum host [⟨b.icmpHdr [0, 0], true⟩, data]).bytes ++ data.data))

def tcpHdr (cksum : Bytes) : Bytes :=
  bigBytes 2 b.srcPort.toNat ++ (bigBytes 2 b.dstPort.toNat ++ (List.replicate 12 0 ++
    (cksum ++ List.replicate 2 0)))

def buildTCPv4 (data : Part) : Bytes :=
  b.addEthernet ++ (b.addIPv4 host (20 + data.data.length) ++
    (b.tcpHdr (checksum host [⟨b.tcpHdr [0, 0], true⟩, data]).bytes ++ data.data))

def buildIPv4 (data : Part) : Bytes :=
  match b.ipProto.toNat with
  | PROTOCOL_ICMP => b.buildICMPv4 host data
  | PROTOCOL_TCP => b.buildTCPv4 host data
  | _ => b.buildIPv4Other host data.data

def buildIPv6Other (data : Bytes) : Bytes :=
  b.addEthernet ++ (b.addIPv6 data.length ++ data)

/-- `IPv6PseudoHdr`. -/
def pseudoHdr (length : Nat) : Bytes :=
  b.ipv6Src.bytes ++ (b.ipv6Dst.bytes ++ (bigBytes 4 length ++ (List.replicate 3 0 ++
    bigBytes 1 b.ipProto.toNat)))

def buildICMPv6 (data : Part) : Bytes :=
  let len := 4 + data.data.length
  b.addEthernet ++ (b.addIPv6 len ++
    (b.icmpHdr (checksum host [⟨b.pseudoHdr len, true⟩, ⟨b.icmpHdr [0, 0], true⟩, data]).bytes ++
      data.data))

def ndData : Bytes :=
  let solicit := b.icmpType.toNat = ICMPV6_TYPE_NEIGHBOR_SOLICIT
  let option := if solicit then ICMPV6_OPTION_SLL else ICMPV6_OPTION_TLL
  let ndRes := if b.icmpType.toNat = ICMPV6_TYPE_NEIGHBOR_ADVERTISE then b.ndRes.toNat else 0
  bigBytes 4 ndRes ++ (b.ndTarget.bytes ++ (bigBytes 1 option ++ (bigBytes 1 1 ++ b.ndLl.bytes)))

def buildICMPv6ND : Bytes := b.buildICMPv6 host ⟨b.ndData, true⟩

def buildIPv6 (data : Part) : Bytes :=
  match b.ipProto.toNat with
  | PROTOCOL_ICMPV6 =>
    if b.icmpType.toNat = ICMPV6_TYPE_NEIGHBOR_SOLICIT ∨
        b.icmpType.toNat = ICMPV6_TYPE_NEIGHBOR_ADVERTISE then b.buildICMPv6ND host
    else b.buildICMPv6 host data
  | _ => b.buildIPv6Other data.data

/-- `MatchPacketBuilder::build`: a frame has at least 60 bytes. -/
def build (data : Part) : Bytes :=
  let msg :=
    match b.ethType.toNat with
    | DATALINK_ARP => b.buildArp
    | DATALINK_LLDP => b.buildLldp
    | DATALINK_IPV4 => b.buildIPv4 host data
    | DATALINK_IPV6 => b.buildIPv6 host data
    | _ => b.buildEthernet data.data
  msg ++ List.replicate (60 - msg.length) 0

end

end MatchPacketBuilder

end Libofp.Packet.FrameBuilder
