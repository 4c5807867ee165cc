/- GID: Libofp/Oxm/FieldTable
   digest: The table of all OXM fields, with the prerequisites that each row names and the
     compiled ones. -/

import Libofp.Oxm.Range

set_option autoImplicit false

namespace Libofp.Oxm.FieldTable

open Octets.BigEndian Oxm.Range

/-- `OXMInternalID`: the rows of the field table. -/
inductive InternalId where
  | inPort
  | inPhyPort
  | metadata
  | ethDst
  | ethSrc
  | ethType
  | vlanVid
  | vlanPcp
  | ipDscp
  | ipEcn
  | ipProto
  | ipv4Src
  | ipv4Dst
  | tcpSrc
  | tcpDst
  | udpSrc
  | udpDst
  | sctpSrc
  | sctpDst
  | icmpv4Type
  | icmpv4Code
  | arpOp
  | arpSpa
  | arpTpa
  | arpSha
  | arpTha
  | ipv6Src
  | ipv6Dst
  | ipv6Flabel
  | icmpv6Type
  | icmpv6Code
  | ipv6NdTarget
  | ipv6NdSll
  | ipv6NdTll
  | mplsLabel
  | mplsTc
  | mplsBos
  | pbbIsid
  | tunnelId
  | ipv6Exthdr
  | pbbUca
  | tcpFlags
  | actsetOutput
  | packetType
  | pktReg0
  | pktReg1
  | pktReg2
  | pktReg3
  | pktReg4
  | pktReg5
  | pktReg6
  | pktReg7
  | nxEthDst
  | nxEthSrc
  | nxArpSpa
  | nxArpTpa
  | nxArpSha
  | nxArpTha
  | nxReg0
  | nxReg1
  | nxReg2
  | nxReg3
  | nxReg4
  | nxReg5
  | nxReg6
  | nxReg7
  | nxIpFrag
  | nxIpTtl
  | nxTcpFlags
  | nxTunIp4Src
  | nxTunIp4Dst
  | nxTunGbpId
  | nxTunGbpFlags
  | xLldpChassisId
  | xLldpPortId
  | xLldpTtl
  | xPktPos
  | xIpv6NdRes
  | xLldpSysName
  | xLldpPortDescr
  | xLldpOrgSpecific
  | xExperimenter01
  | oxsDuration
  | oxsIdleTime
  | oxsFlowCount
  | oxsPacketCount
  | oxsByteCount
  deriving DecidableEq, Repr

namespace InternalId

/-- The `Class` column. -/
def oxmClass : InternalId → Nat
  | pktReg0 | pktReg1 | pktReg2 | pktReg3 | pktReg4 | pktReg5 | pktReg6 | pktReg7 => 0x8001
  | nxEthDst | nxEthSrc | nxArpSpa | nxArpTpa => 0x0000
  | nxArpSha | nxArpTha | nxReg0 | nxReg1 | nxReg2 | nxReg3 | nxReg4 | nxReg5 | nxReg6 | nxReg7
  | nxIpFrag | nxIpTtl | nxTcpFlags | nxTunIp4Src | nxTunIp4Dst | nxTunGbpId | nxTunGbpFlags =>
    0x0001
  | xLldpChassisId | xLldpPortId | xLldpTtl | xPktPos | xIpv6NdRes | xLldpSysName
  | xLldpPortDescr | xLldpOrgSpecific | xExperimenter01 => 0xFFFF
  | oxsDuration | oxsIdleTime | oxsFlowCount | oxsPacketCount | oxsByteCount => 0x8002
  | _ => 0x8000

/-- The `Field` column. -/
def oxmField : InternalId → Nat
  | inPort => 0
  | inPhyPort => 1
  | metadata => 2
  | ethDst => 3
  | ethSrc => 4
  | ethType => 5
  | vlanVid => 6
  | vlanPcp => 7
  | ipDscp => 8
  | ipEcn => 9
  | ipProto => 10
  | ipv4Src => 11
  | ipv4Dst => 12
  | tcpSrc => 13
  | tcpDst => 14
  | udpSrc => 15
  | udpDst => 16
  | sctpSrc => 17
  | sctpDst => 18
  | icmpv4Type => 19
  | icmpv4Code => 20
  | arpOp => 21
  | arpSpa => 22
  | arpTpa => 23
  | arpSha => 24
  | arpTha => 25
  | ipv6Src => 26
  | ipv6Dst => 27
  | ipv6Flabel => 28
  | icmpv6Type => 29
  | icmpv6Code => 30
  | ipv6NdTarget => 31
  | ipv6NdSll => 32
  | ipv6NdTll => 33
  | mplsLabel => 34
  | mplsTc => 35
  | mplsBos => 36
  | pbbIsid => 37
  | tunnelId => 38
  | ipv6Exthdr => 39
  | pbbUca => 41
  | tcpFlags => 42
  | actsetOutput => 43
  | packetType => 44
  | pktReg0 => 0
  | pktReg1 => 1
  | pktReg2 => 2
  | pktReg3 => 3
  | pktReg4 => 4
  | pktReg5 => 5
  | pktReg6 => 6
  | pktReg7 => 7
  | nxEthDst => 1
  | nxEthSrc => 2
  | nxArpSpa => 16
  | nxArpTpa => 17
  | nxArpSha => 17
  | nxArpTha => 18
  | nxReg0 => 0
  | nxReg1 => 1
  | nxReg2 => 2
  | nxReg3 => 3
  | nxReg4 => 4
  | nxReg5 => 5
  | nxReg6 => 6
  | nxReg7 => 7
  | nxIpFrag => 26
  | nxIpTtl => 29
  | nxTcpFlags => 34
  | nxTunIp4Src => 31
  | nxTunIp4Dst => 32
  | nxTunGbpId => 38
  | nxTunGbpFlags => 39
  | xLldpChassisId => 1
  | xLldpPortId => 2
  | xLldpTtl => 3
  | xPktPos => 4
  | xIpv6NdRes => 5
  | xLldpSysName => 6
  | xLldpPortDescr => 7
  | xLldpOrgSpecific => 8
  | xExperimenter01 => 3
  | oxsDuration => 0
  | oxsIdleTime => 1
  | oxsFlowCount => 3
  | oxsPacketCount => 4
  | oxsByteCount => 5

/-- The `Size` column, in bytes. The fields of an experimenter count its number. -/
def size : InternalId → Nat
  | vlanPcp | ipDscp | ipEcn | ipProto | icmpv4Type | icmpv4Code | icmpv6Type | icmpv6Code
  | mplsTc | mplsBos | pbbUca | nxIpFrag | nxIpTtl | nxTunGbpFlags => 1
  | ethType | vlanVid | tcpSrc | tcpDst | udpSrc | udpDst | sctpSrc | sctpDst | arpOp
  | ipv6Exthdr | tcpFlags | nxTcpFlags | nxTunGbpId => 2
  | pbbIsid => 3
  | ethDst | ethSrc | arpSha | arpTha | ipv6NdSll | ipv6NdTll | nxEthDst | nxEthSrc | nxArpSha
  | nxArpTha | xLldpTtl | xPktPos | xExperimenter01 => 6
  | metadata | tunnelId | pktReg0 | pktReg1 | pktReg2 | pktReg3 | pktReg4 | pktReg5 | pktReg6
  | pktReg7 | xIpv6NdRes | oxsDuration | oxsIdleTime | oxsPacketCount | oxsByteCount => 8
  | ipv6Src | ipv6Dst | ipv6NdTarget => 16
  | xLldpChassisId | xLldpPortId | xLldpSysName | xLldpPortDescr | xLldpOrgSpecific => 68
  | _ => 4

/-- The `name` of a row, which is the `Name` column without the prefixes `OFB_`, `OXS_` and
`NXM_`. -/
def name : InternalId → String
  | inPort => "IN_PORT"
  | inPhyPort => "IN_PHY_PORT"
  | metadata => "METADATA"
  | ethDst => "ETH_DST"
  | ethSrc => "ETH_SRC"
  | ethType => "ETH_TYPE"
  | vlanVid => "VLAN_VID"
  | vlanPcp => "VLAN_PCP"
  | ipDscp => "IP_DSCP"
  | ipEcn => "IP_ECN"
  | ipProto => "IP_PROTO"
  | ipv4Src => "IPV4_SRC"
  | ipv4Dst => "IPV4_DST"
  | tcpSrc => "TCP_SRC"
  | tcpDst => "TCP_DST"
  | udpSrc => "UDP_SRC"
  | udpDst => "UDP_DST"
  | sctpSrc => "SCTP_SRC"
  | sctpDst => "SCTP_DST"
  | icmpv4Type => "ICMPV4_TYPE"
  | icmpv4Code => "ICMPV4_CODE"
  | arpOp => "ARP_OP"
  | arpSpa => "ARP_SPA"
  | arpTpa => "ARP_TPA"
  | arpSha => "ARP_SHA"
  | arpTha => "ARP_THA"
  | ipv6Src => "IPV6_SRC"
  | ipv6Dst => "IPV6_DST"
  | ipv6Flabel => "IPV6_FLABEL"
  | icmpv6Type => "ICMPV6_TYPE"
  | icmpv6Code => "ICMPV6_CODE"
  | ipv6NdTarget => "IPV6_ND_TARGET"
  | ipv6NdSll => "IPV6_ND_SLL"
  | ipv6NdTll => "IPV6_ND_TLL"
  | mplsLabel => "MPLS_LABEL"
  | mplsTc => "MPLS_TC"
  | mplsBos => "MPLS_BOS"
  | pbbIsid => "PBB_ISID"
  | tunnelId => "TUNNEL_ID"
  | ipv6Exthdr => "IPV6_EXTHDR"
  | pbbUca => "PBB_UCA"
  | tcpFlags => "TCP_FLAGS"
  | actsetOutput => "ACTSET_OUTPUT"
  | packetType => "PACKET_TYPE"
  | pktReg0 => "PKT_REG0"
  | pktReg1 => "PKT_REG1"
  | pktReg2 => "PKT_REG2"
  | pktReg3 => "PKT_REG3"
  | pktReg4 => "PKT_REG4"
  | pktReg5 => "PKT_REG5"
  | pktReg6 => "PKT_REG6"
  | pktReg7 => "PKT_REG7"
  | nxEthDst => "NX_ETH_DST"
  | nxEthSrc => "NX_ETH_SRC"
  | nxArpSpa => "NX_ARP_SPA"
  | nxArpTpa => "NX_ARP_TPA"
  | nxArpSha => "NX_ARP_SHA"
  | nxArpTha => "NX_ARP_THA"
  | nxReg0 => "NX_REG0"
  | nxReg1 => "NX_REG1"
  | nxReg2 => "NX_REG2"
  | nxReg3 => "NX_REG3"
  | nxReg4 => "NX_REG4"
  | nxReg5 => "NX_REG5"
  | nxReg6 => "NX_REG6"
  | nxReg7 => "NX_REG7"
  | nxIpFrag => "NX_IP_FRAG"
  | nxIpTtl => "NX_IP_TTL"
  | nxTcpFlags => "NX_TCP_FLAGS"
  | nxTunIp4Src => "NX_TUN_IP4_SRC"
  | nxTunIp4Dst => "NX_TUN_IP4_DST"
  | nxTunGbpId => "NX_TUN_GBP_ID"
  | nxTunGbpFlags => "NX_TUN_GBP_FLAGS"
  | xLldpChassisId => "X_LLDP_CHASSIS_ID"
  | xLldpPortId => "X_LLDP_PORT_ID"
  | xLldpTtl => "X_LLDP_TTL"
  | xPktPos => "X_PKT_POS"
  | xIpv6NdRes => "X_IPV6_ND_RES"
  | xLldpSysName => "X_LLDP_SYS_NAME"
  | xLldpPortDescr => "X_LLDP_PORT_DESCR"
  | xLldpOrgSpecific => "X_LLDP_ORG_SPECIFIC"
  | xExperimenter01 => "X_EXPERIMENTER_01"
  | oxsDuration => "DURATION"
  | oxsIdleTime => "IDLE_TIME"
  | oxsFlowCount => "FLOW_COUNT"
  | oxsPacketCount => "PACKET_COUNT"
  | oxsByteCount => "BYTE_COUNT"

def all : List InternalId :=
  [inPort, inPhyPort, metadata, ethDst, ethSrc, ethType, vlanVid, vlanPcp, ipDscp, ipEcn, ipProto,
    ipv4Src, ipv4Dst, tcpSrc, tcpDst, udpSrc, udpDst, sctpSrc, sctpDst, icmpv4Type, icmpv4Code,
    arpOp, arpSpa, arpTpa, arpSha, arpTha, ipv6Src, ipv6Dst, ipv6Flabel, icmpv6Type, icmpv6Code,
    ipv6NdTarget, ipv6NdSll, ipv6NdTll, mplsLabel, mplsTc, mplsBos, pbbIsid, tunnelId, ipv6Exthdr,
    pbbUca, tcpFlags, actsetOutput, packetType, pktReg0, pktReg1, pktReg2, pktReg3, pktReg4,
    pktReg5, pktReg6, pktReg7, nxEthDst, nxEthSrc, nxArpSpa, nxArpTpa, nxArpSha, nxArpTha,
    nxReg0, nxReg1, nxReg2, nxReg3, nxReg4, nxReg5, nxReg6, nxReg7, nxIpFrag, nxIpTtl,
    nxTcpFlags, nxTunIp4Src, nxTunIp4Dst, nxTunGbpId, nxTunGbpFlags, xLldpChassisId, xLldpPortId,
    xLldpTtl, xPktPos, xIpv6NdRes, xLldpSysName, xLldpPortDescr, xLldpOrgSpecific,
    xExperimenter01, oxsDuration, oxsIdleTime, oxsFlowCount, oxsPacketCount, oxsByteCount]

/-- `OXMType(oxmClass, oxmField, oxmSize)`, in the byte order of the host. -/
def type (id : InternalId) : Nat := id.oxmClass * 65536 + id.oxmField * 512 + id.size

/-- `ValueType::type().withMask()`, for a field that is not an experimenter's: the prerequisites and
the fields with a mask have no others. -/
def typeWithMask (id : InternalId) : Nat :=
  id.oxmClass * 65536 + id.oxmField * 512 + 256 + 2 * id.size

def isExperimenter (id : InternalId) : Bool := id.oxmClass == 0xFFFF

end InternalId

/-- One item of the `Prerequisite` column: `FIELD{value}` or `FIELD{value} & FIELD{mask}`. -/
structure Preq where
  field : InternalId
  value : Nat
  mask : Option Nat
  deriving DecidableEq, Repr

/-- The item that `list.add(preq)` writes. -/
def Preq.item (p : Preq) : Item :=
  match p.mask with
  | none => ⟨p.field.type, bigBytes p.field.size p.value⟩
  | some mask =>
    ⟨p.field.typeWithMask,
      bigBytes p.field.size (p.value &&& mask) ++ bigBytes p.field.size mask⟩

namespace InternalId

/-- The `Prerequisite` column, without the item `/`. -/
def prereqs : InternalId → List Preq
  | inPhyPort => [⟨inPort, 0, some 0⟩]
  | vlanPcp => [⟨vlanVid, 0x1000, some 0x1000⟩]
  | ipDscp | ipEcn | ipProto | nxIpFrag | nxIpTtl =>
    [⟨ethType, 0x0800, none⟩, ⟨ethType, 0x86dd, none⟩]
  | ipv4Src | ipv4Dst => [⟨ethType, 0x0800, none⟩]
  | tcpSrc | tcpDst | tcpFlags | nxTcpFlags => [⟨ipProto, 6, none⟩]
  | udpSrc | udpDst => [⟨ipProto, 17, none⟩]
  | sctpSrc | sctpDst => [⟨ipProto, 132, none⟩]
  | icmpv4Type | icmpv4Code => [⟨ethType, 0x0800, none⟩, ⟨ipProto, 1, none⟩]
  | arpOp | arpSpa | arpTpa | arpSha | arpTha => [⟨ethType, 0x0806, none⟩]
  | ipv6Src | ipv6Dst | ipv6Flabel | ipv6Exthdr => [⟨ethType, 0x86dd, none⟩]
  | icmpv6Type | icmpv6Code => [⟨ethType, 0x86dd, none⟩, ⟨ipProto, 58, none⟩]
  | ipv6NdTarget => [⟨icmpv6Type, 135, none⟩, ⟨icmpv6Type, 136, none⟩]
  | ipv6NdSll => [⟨icmpv6Type, 135, none⟩]
  | ipv6NdTll => [⟨icmpv6Type, 136, none⟩]
  | mplsLabel | mplsTc | mplsBos => [⟨ethType, 0x8847, none⟩, ⟨ethType, 0x8848, none⟩]
  | pbbIsid | pbbUca => [⟨ethType, 0x88E7, none⟩]
  | _ => []

/-- The rows whose list starts with `/`: it is complete as it stands. -/
def complete : InternalId → Bool
  | icmpv4Type | icmpv4Code | icmpv6Type | icmpv6Code => true
  | _ => false

end InternalId

/-- One turn of `for (auto &field : fields)`: the strings of the named fields go before the
row's own. -/
def compileRow (prereqStr : InternalId → List Preq) (field : InternalId) : InternalId → List Preq :=
  fun id =>
    if id = field ∧ ¬ field.complete then
      (field.prereqs.map Preq.field).eraseDups.foldl (fun str preq => prereqStr preq ++ str)
        (prereqStr field)
    else prereqStr id

def compilePrereqs : InternalId → List Preq :=
  InternalId.all.foldl compileRow InternalId.prereqs

/-- `OXMPrereq_<name>`, as the items of its range. -/
def InternalId.prerequisites (id : InternalId) : List Item := (compilePrereqs id).map Preq.item

end Libofp.Oxm.FieldTable
