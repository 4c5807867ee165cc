/- GID: Libofp/Packet/Decoder
   digest: The packet decoder: an Ethernet frame is read layer by layer into a list of OXM
     fields. -/

import Libofp.Octets.ByteList
import Libofp.Oxm.FieldTable

/-! A call `decodeX(pkt, length)` gets the bytes that are left. `pkt += n` and
`length -= n` drop the first `n` of them. A header is read where the source casts the pointer to
its layout, at the offsets of the fields in it. -/

set_option autoImplicit false

namespace Libofp.Packet.Decoder

open Octets.ByteRange Octets.ByteList Octets.BigEndian Oxm.Range Oxm.FieldTable

@[match_pattern] abbrev DATALINK_ARP : Nat := 0x0806
@[match_pattern] abbrev DATALINK_IPV4 : Nat := 0x0800
@[match_pattern] abbrev DATALINK_IPV6 : Nat := 0x86dd
@[match_pattern] abbrev DATALINK_LLDP : Nat := 0x88cc
@[match_pattern] abbrev DATALINK_BDDP : Nat := 0x8942
@[match_pattern] abbrev DATALINK_8021Q : Nat := 0x8100

@[match_pattern] abbrev PROTOCOL_ICMP : Nat := 1
@[match_pattern] abbrev PROTOCOL_TCP : Nat := 6
@[match_pattern] abbrev PROTOCOL_UDP : Nat := 17
@[match_pattern] abbrev PROTOCOL_ICMPV6 : Nat := 58

abbrev OFPVID_PRESENT : Nat := 0x1000

abbrev ICMPV6_TYPE_NEIGHBOR_SOLICIT : Nat := 135
abbrev ICMPV6_TYPE_NEIGHBOR_ADVERTISE : Nat := 136
abbrev ICMPV6_OPTION_SLL : Nat := 1
abbrev ICMPV6_OPTION_TLL : Nat := 2

abbrev NXM_FRAG_TYPE_NONE : Nat := 0
abbrev NXM_FRAG_TYPE_ANY : Nat := 1
abbrev NXM_FRAG_TYPE_LATER : Nat := 2

abbrev OFPIEH_NONEXT : BitVec 32 := 1
abbrev OFPIEH_ESP : BitVec 32 := 2
abbrev OFPIEH_AUTH : BitVec 32 := 4
abbrev OFPIEH_DEST : BitVec 32 := 8
abbrev OFPIEH_FRAG : BitVec 32 := 16
abbrev OFPIEH_ROUTER : BitVec 32 := 32
abbrev OFPIEH_HOP : BitVec 32 := 64
abbrev OFPIEH_UNREP : BitVec 32 := 128
abbrev OFPIEH_UNSEQ : BitVec 32 := 256

/-- Stands for `OFPIEH_DEST` when that header comes just before a router header. -/
abbrev OFPIEH_DEST_ROUTER : BitVec 32 := 0x80000000

namespace IPv6Ext

@[match_pattern] abbrev hop : Nat := 0
@[match_pattern] abbrev router : Nat := 43
@[match_pattern] abbrev fragment : Nat := 44
@[match_pattern] abbrev esp : Nat := 50
@[match_pattern] abbrev auth : Nat := 51
@[match_pattern] abbrev noNextHeader : Nat := 59
@[match_pattern] abbrev dest : Nat := 60
@[match_pattern] abbrev mobility : Nat := 135
@[match_pattern] abbrev hostIdentity : Nat := 139
@[match_pattern] abbrev shim6 : Nat := 140
@[match_pattern] abbrev experimental253 : Nat := 253
@[match_pattern] abbrev experimental254 : Nat := 254

end IPv6Ext

/-- `OFP_ARP_PREFIX_STR`. -/
def arpPrefix : Bytes := [0x00, 0x01, 0x08, 0x00, 0x06, 0x04]

/-- The number of the experimenter that the `X_` fields belong to. -/
def experimenter : Nat := 0x00FFFFFF

/-- A `ValueType` as an item: the fields of an experimenter start with its number. -/
def fieldItem (id : InternalId) (value : Bytes) : Item :=
  ⟨id.type, if id.isExperimenter then bigBytes 4 experimenter ++ value else value⟩

/-- `MatchPacket`: the list of `match_`, and `offset_`. -/
structure MatchPacket where
  list : List Item
  offset : Nat
  deriving DecidableEq, Repr

namespace MatchPacket

/-- `match_.addUnchecked(value)`. -/
def addUnchecked (s : MatchPacket) (id : InternalId) (value : Bytes) : MatchPacket :=
  { s with list := s.list ++ [fieldItem id value] }

/-- `if (value) match_.addUnchecked(value)`, for a field of an integer type. -/
def addNonzero (s : MatchPacket) (id : InternalId) (value : Nat) : MatchPacket :=
  if value ≠ 0 then s.addUnchecked id (bigBytes id.size value) else s

/-- `match_.addOrderedUnchecked(value)`: the item goes before the first one of a greater
type. -/
def addOrderedUnchecked (s : MatchPacket) (id : InternalId) (value : Bytes) : MatchPacket :=
  { s with list := s.list.takeWhile (·.type ≤ id.type) ++
      fieldItem id value :: s.list.dropWhile (·.type ≤ id.type) }

/-- `offset_ += n`. -/
def advance (s : MatchPacket) (n : Nat) : MatchPacket := { s with offset := s.offset + n }

end MatchPacket

def decodeTCP (pkt : Bytes) (s : MatchPacket) : MatchPacket :=
  if pkt.length < 20 then s
  else
    let flags := big16 pkt 12 &&& 0x0FFF
    s |>.addUnchecked .tcpSrc (window pkt 0 2)
      |>.addUnchecked .tcpDst (window pkt 2 2)
      |>.addUnchecked .nxTcpFlags (bigBytes 2 flags)
      |>.advance 20

def decodeUDP (pkt : Bytes) (s : MatchPacket) : MatchPacket :=
  if pkt.length < 8 then s
  else
    s |>.addUnchecked .udpSrc (window pkt 0 2)
      |>.addUnchecked .udpDst (window pkt 2 2)
      |>.advance 8

def decodeICMPv4 (pkt : Bytes) (s : MatchPacket) : MatchPacket :=
  if pkt.length < 4 then s
  else
    s |>.addUnchecked .icmpv4Type (window pkt 0 1)
      |>.addUnchecked .icmpv4Code (window pkt 1 1)
      |>.advance 4

def findLLOption (ptr : Bytes) (option : Nat) : Option Bytes :=
  if ptr.length < 8 then none
  else
    let optionLen := big8 ptr 1 * 8
    if optionLen = 0 ∨ optionLen > ptr.length then none
    else if big8 ptr 0 = option ∧ optionLen = 8 then some (window ptr 2 6)
    else findLLOption (ptr.drop optionLen) option
termination_by ptr.length
decreasing_by
  rw [List.length_drop]
  omega

/-- The branch of `decodeICMPv6_ND` for one type: the link layer address, when an option has
it. -/
def decodeLLOption (pkt : Bytes) (option : Nat) (id : InternalId) (s : MatchPacket) :
    MatchPacket :=
  match findLLOption pkt option with
  | some mac => (s.addUnchecked id mac).advance pkt.length
  | none => s

/-- `MatchPacket::decodeICMPv6_ND`. -/
def decodeICMPv6ND (pkt : Bytes) (icmpv6Type : Nat) (s : MatchPacket) : MatchPacket :=
  if pkt.length < 20 then s
  else
    let s :=
      if icmpv6Type = ICMPV6_TYPE_NEIGHBOR_ADVERTISE then
        s.addUnchecked .xIpv6NdRes (window pkt 0 4)
      else s
    let s := s.addUnchecked .ipv6NdTarget (window pkt 4 16) |>.advance 20
    let pkt := pkt.drop 20
    if pkt.length = 0 then s
    else if icmpv6Type = ICMPV6_TYPE_NEIGHBOR_SOLICIT then
      decodeLLOption pkt ICMPV6_OPTION_SLL .ipv6NdSll s
    else if icmpv6Type = ICMPV6_TYPE_NEIGHBOR_ADVERTISE then
      decodeLLOption pkt ICMPV6_OPTION_TLL .ipv6NdTll s
    else s

def decodeICMPv6 (pkt : Bytes) (s : MatchPacket) : MatchPacket :=
  if pkt.length < 4 then s
  else
    let type := big8 pkt 0
    let code := big8 pkt 1
    let s := s |>.addUnchecked .icmpv6Type (window pkt 0 1)
      |>.addUnchecked .icmpv6Code (window pkt 1 1)
      |>.advance 4
    if code = 0 ∧
        (type = ICMPV6_TYPE_NEIGHBOR_SOLICIT ∨ type = ICMPV6_TYPE_NEIGHBOR_ADVERTISE) then
      decodeICMPv6ND (pkt.drop 4) type s
    else s

def ipv6NextHeaderIsExtension (nextHeader : Nat) : Bool :=
  [IPv6Ext.hop, IPv6Ext.router, IPv6Ext.fragment, IPv6Ext.esp, IPv6Ext.auth, IPv6Ext.dest,
    IPv6Ext.mobility, IPv6Ext.hostIdentity, IPv6Ext.shim6, IPv6Ext.experimental253,
    IPv6Ext.experimental254].contains nextHeader

def countIPv6ExtHdr (flags hdr precedingHdrs : BitVec 32) : BitVec 32 :=
  let flags := if flags &&& ~~~(hdr ||| precedingHdrs) ≠ 0 then flags ||| OFPIEH_UNSEQ else flags
  let flags := if flags &&& hdr ≠ 0 then flags ||| OFPIEH_UNREP else flags
  flags ||| hdr

abbrev kPreHopMask : BitVec 32 := 0
abbrev kPreDestRouterMask : BitVec 32 := kPreHopMask ||| OFPIEH_HOP
abbrev kPreRouterMask : BitVec 32 := kPreDestRouterMask ||| OFPIEH_DEST_ROUTER
abbrev kPreFragmentMask : BitVec 32 := kPreRouterMask ||| OFPIEH_ROUTER
abbrev kPreAuthMask : BitVec 32 := kPreFragmentMask ||| OFPIEH_FRAG
abbrev kPreESPMask : BitVec 32 := kPreAuthMask ||| OFPIEH_AUTH
abbrev kPreDestMask : BitVec 32 := kPreESPMask ||| OFPIEH_ESP

/-- The `switch (currHdr)` of `nextIPv6ExtHdr`; `none` is its `default`. -/
def noteIPv6ExtHdr (currHdr nextHdr : Nat) (flags : BitVec 32) : Option (BitVec 32) :=
  match currHdr with
  | IPv6Ext.hop => some (countIPv6ExtHdr flags OFPIEH_HOP kPreHopMask)
  | IPv6Ext.dest =>
    if nextHdr = IPv6Ext.router then
      some (countIPv6ExtHdr flags OFPIEH_DEST_ROUTER kPreDestRouterMask)
    else if ¬ ipv6NextHeaderIsExtension nextHdr then
      some (countIPv6ExtHdr flags OFPIEH_DEST kPreDestMask)
    else
      let flags := if flags &&& OFPIEH_DEST ≠ 0 then flags ||| OFPIEH_UNREP else flags
      some (flags ||| (OFPIEH_DEST ||| OFPIEH_UNSEQ))
  | IPv6Ext.router => some (countIPv6ExtHdr flags OFPIEH_ROUTER kPreRouterMask)
  | IPv6Ext.fragment => some (countIPv6ExtHdr flags OFPIEH_FRAG kPreFragmentMask)
  | IPv6Ext.auth => some (countIPv6ExtHdr flags OFPIEH_AUTH kPreAuthMask)
  | IPv6Ext.esp => some (countIPv6ExtHdr flags OFPIEH_ESP kPreESPMask)
  | IPv6Ext.mobility | IPv6Ext.hostIdentity | IPv6Ext.shim6 | IPv6Ext.experimental253
  | IPv6Ext.experimental254 => some flags
  | _ => none

structure HeaderWalk where
  nextHdr : Nat
  pkt : Bytes
  flags : BitVec 32
  packet : MatchPacket

namespace HeaderWalk

/-- `match_.addOrderedUnchecked(OFB_IP_PROTO{nextHdr})`. -/
def addProtocol (w : HeaderWalk) : MatchPacket :=
  w.packet.addOrderedUnchecked .ipProto (bigBytes 1 w.nextHdr)

end HeaderWalk

/-- `extHdrLen`: a fragment header has no length of its own. -/
def extHdrLen (currHdr : Nat) (pkt : Bytes) : Nat :=
  if currHdr ≠ IPv6Ext.fragment then (big8 pkt 1 + 1) * 8 else 8

theorem extHdrLen_pos (currHdr : Nat) (pkt : Bytes) : 0 < extHdrLen currHdr pkt := by
  rw [extHdrLen]
  split <;> omega

/-- `MatchPacket::nextIPv6ExtHdr`, where `currHdr` is the walk's `nextHdr`. -/
def nextIPv6ExtHdr (w : HeaderWalk) : HeaderWalk :=
  if w.pkt.length < 8 then { w with nextHdr := IPv6Ext.noNextHeader, packet := w.addProtocol }
  else
    let nextHdr := big8 w.pkt 0
    match noteIPv6ExtHdr w.nextHdr nextHdr w.flags with
    | none => { w with nextHdr := IPv6Ext.noNextHeader }
    | some flags =>
      let length := extHdrLen w.nextHdr w.pkt
      if length > w.pkt.length then
        { w with nextHdr := IPv6Ext.noNextHeader, flags := flags }
      else
        let w : HeaderWalk := ⟨nextHdr, w.pkt.drop length, flags, w.packet.advance length⟩
        if nextHdr = IPv6Ext.noNextHeader then
          { w with flags := flags ||| OFPIEH_NONEXT, packet := w.addProtocol }
        else w

/-- `while (nextHdr != pkt::IPv6Ext_NoNextHeader)`. An extension header that takes nothing off
the packet is the last one (`nextIPv6ExtHdr_stuck`), so the walk ends with it. -/
def walkHeaders (w : HeaderWalk) : HeaderWalk :=
  if w.nextHdr = IPv6Ext.noNextHeader then w
  else if w.nextHdr = PROTOCOL_TCP then
    { w with nextHdr := IPv6Ext.noNextHeader, packet := decodeTCP w.pkt w.addProtocol }
  else if w.nextHdr = PROTOCOL_UDP then
    { w with nextHdr := IPv6Ext.noNextHeader, packet := decodeUDP w.pkt w.addProtocol }
  else if w.nextHdr = PROTOCOL_ICMPV6 then
    { w with nextHdr := IPv6Ext.noNextHeader, packet := decodeICMPv6 w.pkt w.addProtocol }
  else if ipv6NextHeaderIsExtension w.nextHdr then
    if (nextIPv6ExtHdr w).pkt.length < w.pkt.length then walkHeaders (nextIPv6ExtHdr w)
    else nextIPv6ExtHdr w
  else { w with nextHdr := IPv6Ext.noNextHeader, packet := w.addProtocol }
termination_by w.pkt.length

theorem nextIPv6ExtHdr_stuck (w : HeaderWalk) :
    (nextIPv6ExtHdr w).nextHdr = IPv6Ext.noNextHeader ∨
      (nextIPv6ExtHdr w).pkt.length < w.pkt.length := by
  rw [nextIPv6ExtHdr]
  split
  · exact .inl rfl
  · dsimp only
    split
    · exact .inl rfl
    · have positive := extHdrLen_pos w.nextHdr w.pkt
      split
      · exact .inl rfl
      · right
        split <;> (simp only [List.length_drop]; omega)

theorem walkHeaders_extension {w : HeaderWalk}
    (extension : ipv6NextHeaderIsExtension w.nextHdr = true) :
    walkHeaders w = walkHeaders (nextIPv6ExtHdr w) := by
  have other : w.nextHdr ≠ IPv6Ext.noNextHeader ∧ w.nextHdr ≠ PROTOCOL_TCP ∧
      w.nextHdr ≠ PROTOCOL_UDP ∧ w.nextHdr ≠ PROTOCOL_ICMPV6 := by
    refine ⟨?_, ?_, ?_, ?_⟩ <;> (intro is; rw [is] at extension; exact absurd extension (by decide))
  rw [walkHeaders, if_neg other.1, if_neg other.2.1, if_neg other.2.2.1, if_neg other.2.2.2,
    if_pos extension]
  split
  · rfl
  · next stuck =>
    have last := (nextIPv6ExtHdr_stuck w).resolve_right stuck
    rw [walkHeaders, if_pos last]

/-- The part of `decodeIPv6_NextHdr` before the loop. -/
def startWalk (pkt : Bytes) (nextHdr : Nat) (s : MatchPacket) : HeaderWalk :=
  let w : HeaderWalk := ⟨nextHdr, pkt, 0, s⟩
  if nextHdr = IPv6Ext.noNextHeader then
    { w with flags := OFPIEH_NONEXT, packet := w.addProtocol }
  else w

/-- The part of `decodeIPv6_NextHdr` behind the loop. -/
def reportFlags (hdrFlags : BitVec 32) (s : MatchPacket) : MatchPacket :=
  let hdrFlags :=
    if hdrFlags &&& OFPIEH_DEST_ROUTER ≠ 0 then hdrFlags &&& 0x0ffff ||| OFPIEH_DEST
    else hdrFlags
  if hdrFlags ≠ 0 then s.addUnchecked .ipv6Exthdr (bigBytes 2 hdrFlags.toNat) else s

/-- `MatchPacket::decodeIPv6_NextHdr`. -/
def decodeIPv6NextHdr (pkt : Bytes) (nextHdr : Nat) (s : MatchPacket) : MatchPacket :=
  let w := walkHeaders (startWalk pkt nextHdr s)
  reportFlags w.flags w.packet

def decodeIPv6 (pkt : Bytes) (s : MatchPacket) : MatchPacket :=
  if pkt.length < 40 then s
  else
    let verClassLabel := big32 pkt 0
    let vers := verClassLabel >>> 28
    if vers ≠ 6 then s
    else
      let trafCls := (verClassLabel >>> 20) &&& 0x0FF
      let flowLabel := verClassLabel &&& 0x000FFFFF
      let dscp := trafCls >>> 2
      let ecn := trafCls &&& 0x03
      s |>.addNonzero .ipDscp dscp
        |>.addNonzero .ipEcn ecn
        |>.addUnchecked .nxIpTtl (window pkt 7 1)
        |>.addUnchecked .ipv6Src (window pkt 8 16)
        |>.addUnchecked .ipv6Dst (window pkt 24 16)
        |>.addNonzero .ipv6Flabel flowLabel
        |>.advance 40
        |> decodeIPv6NextHdr (pkt.drop 40) (big8 pkt 6)

def nxmFragmentType (frag : Nat) : Nat :=
  let flags := frag &&& (0x2000 ||| 0x1FFF)
  if flags = 0x2000 then NXM_FRAG_TYPE_ANY
  else if flags ≠ 0 then NXM_FRAG_TYPE_ANY ||| NXM_FRAG_TYPE_LATER
  else NXM_FRAG_TYPE_NONE

/-- `MatchPacket::decodeIPv4_NextHdr`. -/
def decodeIPv4NextHdr (pkt : Bytes) (nextHdr : Nat) (s : MatchPacket) : MatchPacket :=
  match nextHdr with
  | PROTOCOL_ICMP => decodeICMPv4 pkt s
  | PROTOCOL_TCP => decodeTCP pkt s
  | PROTOCOL_UDP => decodeUDP pkt s
  | _ => s

/-- `nxFragType` in `decodeIPv4`. -/
def nxFragType (frag : Nat) : Nat :=
  if frag ≠ 0 then nxmFragmentType frag else NXM_FRAG_TYPE_NONE

def addIPv4Fields (pkt : Bytes) (frag : Nat) (s : MatchPacket) : MatchPacket :=
  let dscp := big8 pkt 1 >>> 2
  let ecn := big8 pkt 1 &&& 0x03
  let s := s |>.addNonzero .ipDscp dscp
    |>.addNonzero .ipEcn ecn
    |>.addUnchecked .ipProto (window pkt 9 1)
    |>.addUnchecked .ipv4Src (window pkt 12 4)
    |>.addUnchecked .ipv4Dst (window pkt 16 4)
  let s := if frag ≠ 0 then s.addUnchecked .nxIpFrag (bigBytes 1 (nxFragType frag)) else s
  s.addUnchecked .nxIpTtl (window pkt 8 1)

def decodeIPv4 (pkt : Bytes) (s : MatchPacket) : MatchPacket :=
  if pkt.length < 20 then s
  else
    let vers := big8 pkt 0 >>> 4
    let hdrLen := (big8 pkt 0 &&& 0x0F) * 4
    let totalLen := big16 pkt 2
    if vers ≠ 4 then s
    else if hdrLen < 20 then s
    else if hdrLen > pkt.length then s
    else if totalLen < hdrLen then s
    else
      let frag := big16 pkt 6 &&& 0x3fff
      let s := (addIPv4Fields pkt frag s).advance hdrLen
      let rest := if totalLen < pkt.length then pkt.take totalLen else pkt
      if nxFragType frag &&& NXM_FRAG_TYPE_LATER ≠ 0 then s
      else decodeIPv4NextHdr (rest.drop hdrLen) (big8 pkt 9) s

def decodeARP (pkt : Bytes) (s : MatchPacket) : MatchPacket :=
  if pkt.length < 28 then s
  else if window pkt 0 6 ≠ arpPrefix then s
  else
    let s := s |>.addUnchecked .arpOp (window pkt 6 2)
      |>.addUnchecked .arpSpa (window pkt 14 4)
      |>.addUnchecked .arpTpa (window pkt 24 4)
      |>.addUnchecked .arpSha (window pkt 8 6)
      |>.addUnchecked .arpTha (window pkt 18 6)
      |>.advance 28
    let pkt := pkt.drop 28
    if pkt.all (· == 0) then s.advance pkt.length else s

namespace LLDPTlv

@[match_pattern] abbrev END : Nat := 0
@[match_pattern] abbrev CHASSIS_ID : Nat := 1
@[match_pattern] abbrev PORT_ID : Nat := 2
@[match_pattern] abbrev TTL : Nat := 3
@[match_pattern] abbrev PORT_DESCR : Nat := 4
@[match_pattern] abbrev SYS_NAME : Nat := 5
@[match_pattern] abbrev ORG_SPECIFIC : Nat := 127

def type (pkt : Bytes) : Nat := big8 pkt 0 >>> 1

def length (pkt : Bytes) : Nat := ((big8 pkt 0 &&& 0x01) <<< 8) ||| big8 pkt 1

def value (pkt : Bytes) : Bytes := window pkt 2 (length pkt)

end LLDPTlv

/-- `LLDPValue`: the size, and the data with zeros behind it. -/
def lldpValue (data : Bytes) : Bytes :=
  let len := min data.length 63
  UInt8.ofNat len :: (data.take len ++ List.replicate (63 - len) 0)

/-- `Big16::fromBytes(data, size)`: the last two bytes, with zeros before them when there are
less. -/
def lastTwo (data : Bytes) : Bytes := ([0, 0] ++ data).drop data.length

/-- The `switch (lldp->type())` without the end of the list. -/
def addTlv (pkt : Bytes) (s : MatchPacket) : MatchPacket :=
  match LLDPTlv.type pkt with
  | LLDPTlv.CHASSIS_ID => s.addUnchecked .xLldpChassisId (lldpValue (LLDPTlv.value pkt))
  | LLDPTlv.PORT_ID => s.addUnchecked .xLldpPortId (lldpValue (LLDPTlv.value pkt))
  | LLDPTlv.TTL => s.addUnchecked .xLldpTtl (lastTwo (LLDPTlv.value pkt))
  | LLDPTlv.SYS_NAME => s.addUnchecked .xLldpSysName (lldpValue (LLDPTlv.value pkt))
  | LLDPTlv.PORT_DESCR => s.addUnchecked .xLldpPortDescr (lldpValue (LLDPTlv.value pkt))
  | LLDPTlv.ORG_SPECIFIC => s.addUnchecked .xLldpOrgSpecific (lldpValue (LLDPTlv.value pkt))
  | _ => s

def decodeLLDP (pkt : Bytes) (s : MatchPacket) : MatchPacket :=
  if pkt.length = 0 then s
  else if pkt.length < 2 then s
  else
    let jumpSize := LLDPTlv.length pkt + 2
    if jumpSize > pkt.length then s
    else if LLDPTlv.type pkt = LLDPTlv.END then s.advance pkt.length
    else decodeLLDP (pkt.drop jumpSize) ((addTlv pkt s).advance jumpSize)
termination_by pkt.length
decreasing_by
  rw [List.length_drop]
  omega

/-- The last part of `decodeEthernet`: the type, and what it says that comes next. -/
def decodeEthType (ethType : Nat) (pkt : Bytes) (s : MatchPacket) : MatchPacket :=
  let s := s.addUnchecked .ethType (bigBytes 2 ethType)
  match ethType with
  | DATALINK_ARP => decodeARP pkt s
  | DATALINK_IPV4 => decodeIPv4 pkt s
  | DATALINK_IPV6 => decodeIPv6 pkt s
  | DATALINK_LLDP | DATALINK_BDDP => decodeLLDP pkt s
  | _ => s

/-- The 802.1Q tag in `decodeEthernet`. -/
def decodeVlan (pkt : Bytes) (s : MatchPacket) : MatchPacket :=
  if pkt.length < 4 then s.addUnchecked .ethType (bigBytes 2 DATALINK_8021Q)
  else
    let vlanVid := (big16 pkt 0 &&& 0x0FFF) ||| OFPVID_PRESENT
    let vlanPcp := big16 pkt 0 >>> 13
    s |>.addUnchecked .vlanVid (bigBytes 2 vlanVid)
      |>.addNonzero .vlanPcp vlanPcp
      |>.advance 4
      |> decodeEthType (big16 pkt 2) (pkt.drop 4)

def decodeEthernet (pkt : Bytes) (s : MatchPacket) : MatchPacket :=
  if pkt.length < 14 then s
  else
    let s := s |>.addUnchecked .ethDst (window pkt 0 6)
      |>.addUnchecked .ethSrc (window pkt 6 6)
      |>.advance 14
    let ethType := big16 pkt 12
    if ethType = DATALINK_8021Q then decodeVlan (pkt.drop 14) s
    else decodeEthType ethType (pkt.drop 14) s

def decode (pkt : Bytes) : MatchPacket :=
  let s := decodeEthernet pkt ⟨[], 0⟩
  if s.offset < pkt.length then s.addUnchecked .xPktPos (bigBytes 2 s.offset) else s

end Libofp.Packet.Decoder
