/- GID: Libofp/Match/Standard
   digest: The match structure of OpenFlow 1.1, the one of 1.0 turned into it, and its
     conversions from and to an OXM list. -/

import Libofp.Match.Original
import Libofp.Oxm.FieldList

set_option autoImplicit false

namespace Libofp.Match.Standard

open Octets.ByteRange Octets.BigEndian Oxm.Field Oxm.Range Oxm.FieldList
open Match.Original (OriginalMatch OFPVID.none OFPVID.present OFPVID.noneV1
  OFPVID.presentV1)

namespace Wildcards

def inPort : BitVec 32 := 1 <<< 0
def dlVlan : BitVec 32 := 1 <<< 1
def dlVlanPcp : BitVec 32 := 1 <<< 2
def dlType : BitVec 32 := 1 <<< 3
def nwTos : BitVec 32 := 1 <<< 4
def nwProto : BitVec 32 := 1 <<< 5
def tpSrc : BitVec 32 := 1 <<< 6
def tpDst : BitVec 32 := 1 <<< 7
def mplsLabel : BitVec 32 := 1 <<< 8
def mplsTc : BitVec 32 := 1 <<< 9
def all : BitVec 32 := (1 <<< 10) - 1

end Wildcards

structure StandardMatch where
  inPort : BitVec 32 := 0
  wildcards : BitVec 32 := Wildcards.all
  dlSrc : BitVec 48 := 0
  dlSrcMask : BitVec 48 := 0
  dlDst : BitVec 48 := 0
  dlDstMask : BitVec 48 := 0
  dlVlan : BitVec 16 := 0
  dlVlanPcp : BitVec 8 := 0
  dlType : BitVec 16 := 0
  nwTos : BitVec 8 := 0
  nwProto : BitVec 8 := 0
  nwSrc : BitVec 32 := 0
  nwSrcMask : BitVec 32 := 0
  nwDst : BitVec 32 := 0
  nwDstMask : BitVec 32 := 0
  tpSrc : BitVec 16 := 0
  tpDst : BitVec 16 := 0
  mplsLabel : BitVec 32 := 0
  mplsTc : BitVec 8 := 0
  metadata : BitVec 64 := 0
  metadataMask : BitVec 64 := 0
  deriving DecidableEq, Repr

/-- `WildcardMap`: the bits of the two wildcard words that mean the same field. -/
def wildcardMap : List (BitVec 32 × BitVec 32) :=
  [(Original.Wildcards.inPort, Wildcards.inPort),
   (Original.Wildcards.dlVlan, Wildcards.dlVlan),
   (Original.Wildcards.dlType, Wildcards.dlType),
   (Original.Wildcards.nwProto, Wildcards.nwProto),
   (Original.Wildcards.tpSrc, Wildcards.tpSrc),
   (Original.Wildcards.tpDst, Wildcards.tpDst),
   (Original.Wildcards.dlVlanPcp, Wildcards.dlVlanPcp),
   (Original.Wildcards.nwTos, Wildcards.nwTos)]

def standardWildcards (m : OriginalMatch) : BitVec 32 :=
  wildcardMap.foldl
      (fun result entry =>
        if m.wildcards &&& entry.1 ≠ 0 then result ||| entry.2 else result) 0
    ||| (Wildcards.mplsTc ||| Wildcards.mplsLabel)

/-- `StandardMatch::StandardMatch(const OriginalMatch &)`. -/
def StandardMatch.ofOriginal (m : OriginalMatch) : StandardMatch where
  -- The 16-bit port number is widened with zeros.
  inPort := m.inPort.setWidth 32
  wildcards := standardWildcards m
  dlSrc := m.dlSrc
  dlSrcMask := if m.wildcards &&& Original.Wildcards.dlSrc = 0 then BitVec.allOnes 48 else 0
  dlDst := m.dlDst
  dlDstMask := if m.wildcards &&& Original.Wildcards.dlDst = 0 then BitVec.allOnes 48 else 0
  dlVlan := m.dlVlan
  dlVlanPcp := m.dlVlanPcp
  dlType := m.dlType
  nwTos := m.nwTos
  nwProto := m.nwProto
  nwSrc := m.nwSrc
  nwSrcMask := m.nwSrcMask
  nwDst := m.nwDst
  nwDstMask := m.nwDstMask
  tpSrc := m.tpSrc
  tpDst := m.tpDst
  mplsLabel := 0
  mplsTc := 0
  metadata := 0
  metadataMask := 0

def StandardMatch.heed (m : StandardMatch) (bit : BitVec 32) : StandardMatch :=
  { m with wildcards := m.wildcards &&& ~~~bit }

def StandardMatch.addValue (m : StandardMatch) (f : OxmField) (item : Item) : StandardMatch :=
  match f with
  | .inPort => { m.heed Wildcards.inPort with inPort := item.value 32 }
  | .ethSrc => { m with dlSrc := item.value 48, dlSrcMask := BitVec.allOnes 48 }
  | .ethDst => { m with dlDst := item.value 48, dlDstMask := BitVec.allOnes 48 }
  | .vlanVid =>
    let vlan := item.value 16
    { m.heed Wildcards.dlVlan with
      dlVlan := if vlan = OFPVID.none then OFPVID.noneV1 else vlan &&& ~~~OFPVID.present }
  | .vlanPcp => { m.heed Wildcards.dlVlanPcp with dlVlanPcp := item.value 8 }
  | .ethType => { m.heed Wildcards.dlType with dlType := item.value 16 }
  | .ipDscp => { m.heed Wildcards.nwTos with nwTos := item.value 8 }
  | .ipProto => { m.heed Wildcards.nwProto with nwProto := item.value 8 }
  | .ipv4Src | .arpSpa => { m with nwSrc := item.value 32, nwSrcMask := BitVec.allOnes 32 }
  | .ipv4Dst | .arpTpa => { m with nwDst := item.value 32, nwDstMask := BitVec.allOnes 32 }
  | .tcpSrc | .udpSrc => { m.heed Wildcards.tpSrc with tpSrc := item.value 16 }
  | .tcpDst | .udpDst => { m.heed Wildcards.tpDst with tpDst := item.value 16 }
  | .icmpv4Type => { m.heed Wildcards.tpSrc with tpSrc := (item.value 8).setWidth 16 }
  | .icmpv4Code => { m.heed Wildcards.tpDst with tpDst := (item.value 8).setWidth 16 }
  | .mplsLabel => { m.heed Wildcards.mplsLabel with mplsLabel := item.value 32 }
  | .mplsTc => { m.heed Wildcards.mplsTc with mplsTc := item.value 8 }
  | .metadata => { m with metadata := item.value 64, metadataMask := BitVec.allOnes 64 }
  | .arpOp => { m.heed Wildcards.nwProto with nwProto := (item.value 16).setWidth 8 }
  -- `Unexpected oxm type`: the ports of SCTP are among these.
  | .ipEcn | .sctpSrc | .sctpDst => m

def StandardMatch.addMasked (m : StandardMatch) (f : OxmField) (item : Item) : StandardMatch :=
  match f with
  | .ethSrc => { m with dlSrc := item.value 48, dlSrcMask := item.mask 48 }
  | .ethDst => { m with dlDst := item.value 48, dlDstMask := item.mask 48 }
  | .vlanVid =>
    let vlan := item.value 16
    { m.heed Wildcards.dlVlan with
      dlVlan := if vlan = OFPVID.present ∧ item.mask 16 = OFPVID.present then OFPVID.presentV1
        else vlan &&& ~~~OFPVID.present }
  | .ipv4Src | .arpSpa => { m with nwSrc := item.value 32, nwSrcMask := item.mask 32 }
  | .ipv4Dst | .arpTpa => { m with nwDst := item.value 32, nwDstMask := item.mask 32 }
  | .metadata => { m with metadata := item.value 64, metadataMask := item.mask 64 }
  | _ => m

def StandardMatch.add (m : StandardMatch) (item : Item) : StandardMatch :=
  match OxmField.ofType item.type, OxmField.ofTypeWithMask item.type with
  | some f, _ => m.addValue f item
  | none, some f => m.addMasked f item
  | none, none => m

/-- `StandardMatch::StandardMatch(const OXMRange &)`. -/
def StandardMatch.ofOxmRange (range : Bytes) : StandardMatch :=
  (items range).foldl StandardMatch.add {}

def DATALINK.arp : BitVec 16 := 0x0806

namespace PROTOCOL

def icmp : BitVec 8 := 1
def tcp : BitVec 8 := 6
def udp : BitVec 8 := 17
def sctp : BitVec 8 := 132

end PROTOCOL

def addUnderMask (f : OxmField) (value mask : BitVec (8 * f.size)) : List Entry :=
  if mask = 0 then []
  else if mask = BitVec.allOnes _ then [plain f value] else [masked f value mask]

/-- The field that carries `tp_src`: the warnings fall back to TCP. -/
def tpSrcEntry (protocol : Option (BitVec 8)) (port : BitVec 16) : Entry :=
  if protocol = some PROTOCOL.udp then plain .udpSrc port
  else if protocol = some PROTOCOL.icmp then plain .icmpv4Type (port.setWidth 8)
  else if protocol = some PROTOCOL.sctp then plain .sctpSrc port
  else plain .tcpSrc port

def tpDstEntry (protocol : Option (BitVec 8)) (port : BitVec 16) : Entry :=
  if protocol = some PROTOCOL.udp then plain .udpDst port
  else if protocol = some PROTOCOL.icmp then plain .icmpv4Code (port.setWidth 8)
  else if protocol = some PROTOCOL.sctp then plain .sctpDst port
  else plain .tcpDst port

def vlanEntry (vlan : BitVec 16) : Entry :=
  if vlan = OFPVID.noneV1 then plain .vlanVid OFPVID.none
  else if vlan = OFPVID.presentV1 then masked .vlanVid OFPVID.present OFPVID.present
  else plain .vlanVid (vlan ||| OFPVID.present)

namespace StandardMatch

/-- `!(wc & bit)`. -/
def Heeds (m : StandardMatch) (bit : BitVec 32) : Prop := m.wildcards &&& bit = 0

instance (m : StandardMatch) (bit : BitVec 32) : Decidable (m.Heeds bit) :=
  inferInstanceAs (Decidable (_ = _))

/-- `list.add`, behind a test of the wildcard bit. -/
def addHeeded (m : StandardMatch) (bit : BitVec 32) (e : Entry) : List Entry :=
  if m.Heeds bit then [e] else []

def convertDatalinkARP (m : StandardMatch) : List Entry :=
  m.addHeeded Wildcards.nwProto (plain .arpOp (m.nwProto.setWidth 16)) ++
    addUnderMask .arpSpa m.nwSrc m.nwSrcMask ++ addUnderMask .arpTpa m.nwDst m.nwDstMask

/-- `nw_proto` unless it is wildcarded. -/
def protocol (m : StandardMatch) : Option (BitVec 8) :=
  if m.Heeds Wildcards.nwProto then some m.nwProto else none

def toOXMList (m : StandardMatch) : List Entry :=
  let link :=
    m.addHeeded Wildcards.inPort (plain .inPort m.inPort) ++
      (if m.metadataMask ≠ 0 then [masked .metadata m.metadata m.metadataMask] else []) ++
      addUnderMask .ethSrc m.dlSrc m.dlSrcMask ++ addUnderMask .ethDst m.dlDst m.dlDstMask ++
      m.addHeeded Wildcards.dlVlan (vlanEntry m.dlVlan) ++
      m.addHeeded Wildcards.dlVlanPcp (plain .vlanPcp m.dlVlanPcp) ++
      m.addHeeded Wildcards.dlType (plain .ethType m.dlType)
  if m.Heeds Wildcards.dlType ∧ m.dlType = DATALINK.arp then link ++ m.convertDatalinkARP
  else
    link ++ m.addHeeded Wildcards.nwTos (plain .ipDscp m.nwTos) ++
      m.addHeeded Wildcards.nwProto (plain .ipProto m.nwProto) ++
      addUnderMask .ipv4Src m.nwSrc m.nwSrcMask ++ addUnderMask .ipv4Dst m.nwDst m.nwDstMask ++
      m.addHeeded Wildcards.tpSrc (tpSrcEntry m.protocol m.tpSrc) ++
      m.addHeeded Wildcards.tpDst (tpDstEntry m.protocol m.tpDst) ++
      m.addHeeded Wildcards.mplsLabel (plain .mplsLabel m.mplsLabel) ++
      m.addHeeded Wildcards.mplsTc (plain .mplsTc m.mplsTc)

end StandardMatch

/-- `OFPMT_STANDARD` and `OFPMT_STANDARD_LENGTH`. -/
def ofpmtStandard : Nat := 0

def ofpmtStandardLength : Nat := 88

def StandardMatch.toBytes (m : StandardMatch) : Bytes :=
  bigBytes 2 ofpmtStandard ++ bigBytes 2 ofpmtStandardLength ++
    bigBytes 4 m.inPort.toNat ++ bigBytes 4 m.wildcards.toNat ++
    bigBytes 6 m.dlSrc.toNat ++ bigBytes 6 m.dlSrcMask.toNat ++
    bigBytes 6 m.dlDst.toNat ++ bigBytes 6 m.dlDstMask.toNat ++
    bigBytes 2 m.dlVlan.toNat ++ bigBytes 1 m.dlVlanPcp.toNat ++ bigBytes 1 0 ++
    bigBytes 2 m.dlType.toNat ++ bigBytes 1 m.nwTos.toNat ++ bigBytes 1 m.nwProto.toNat ++
    bigBytes 4 m.nwSrc.toNat ++ bigBytes 4 m.nwSrcMask.toNat ++
    bigBytes 4 m.nwDst.toNat ++ bigBytes 4 m.nwDstMask.toNat ++
    bigBytes 2 m.tpSrc.toNat ++ bigBytes 2 m.tpDst.toNat ++
    bigBytes 4 m.mplsLabel.toNat ++ bigBytes 1 m.mplsTc.toNat ++ bigBytes 3 0 ++
    bigBytes 8 m.metadata.toNat ++ bigBytes 8 m.metadataMask.toNat

@[simp] theorem length_toBytes (m : StandardMatch) : m.toBytes.length = ofpmtStandardLength := by
  unfold StandardMatch.toBytes
  simp only [List.length_append, length_bigBytes, ofpmtStandardLength]

end Libofp.Match.Standard
