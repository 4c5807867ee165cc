/- GID: Libofp/Match/Original
   digest: The match structure of OpenFlow 1.0, its wildcard word and its layout. -/

import Libofp.Octets.ByteList
import Libofp.Oxm.Field
import Libofp.Oxm.Range

set_option autoImplicit false

namespace Libofp.Match.Original

open Octets.ByteRange Octets.ByteList Octets.BigEndian Oxm.Field Oxm.Range

/-- `IPv4Address::mask`: whole bytes of ones, one partly filled byte, then zeros. -/
def ipv4Mask (bits : Nat) : BitVec 32 :=
  let full := min 4 (bits / 8)
  let byte (i : Nat) : Nat :=
    if i < full then 0xFF else if i = full then (0xFF <<< (8 - bits % 8)) % 256 else 0
  BitVec.ofNat 32 (((byte 0 * 256 + byte 1) * 256 + byte 2) * 256 + byte 3)

/-- The leading ones of a byte: `while (v & 0x80) v = (v << 1) & 0xFF`. -/
def leadingOnes : Nat → Nat → Nat
  | 0, _ => 0
  | turns + 1, v => if v &&& 0x80 ≠ 0 then leadingOnes turns ((v <<< 1) &&& 0xFF) + 1 else 0

/-- `IPv4Address::prefix`: bytes filled with ones, and the leading ones of the first
byte that is not. -/
def ipv4Prefix (addr : BitVec 32) : Nat :=
  let rec scan : List UInt8 → Nat
    | [] => 0
    | byte :: rest => if byte ≠ 0xFF then leadingOnes 8 byte.toNat else scan rest + 8
  scan (bigBytes 4 addr.toNat)

namespace Wildcards

def inPort : BitVec 32 := 1 <<< 0
def dlVlan : BitVec 32 := 1 <<< 1
def dlSrc : BitVec 32 := 1 <<< 2
def dlDst : BitVec 32 := 1 <<< 3
def dlType : BitVec 32 := 1 <<< 4
def nwProto : BitVec 32 := 1 <<< 5
def tpSrc : BitVec 32 := 1 <<< 6
def tpDst : BitVec 32 := 1 <<< 7
def nwSrcShift : Nat := 8
def nwSrcMask : BitVec 32 := 0x3F <<< nwSrcShift
def nwDstShift : Nat := 14
def nwDstMask : BitVec 32 := 0x3F <<< nwDstShift
def dlVlanPcp : BitVec 32 := 1 <<< 20
def nwTos : BitVec 32 := 1 <<< 21
def all : BitVec 32 := 0x003820FF

end Wildcards

structure OriginalMatch where
  wildcards : BitVec 32 := Wildcards.all
  inPort : BitVec 16 := 0
  dlSrc : BitVec 48 := 0
  dlDst : BitVec 48 := 0
  dlVlan : BitVec 16 := 0
  dlVlanPcp : BitVec 8 := 0
  dlType : BitVec 16 := 0
  nwTos : BitVec 8 := 0
  nwProto : BitVec 8 := 0
  nwSrc : BitVec 32 := 0
  nwDst : BitVec 32 := 0
  tpSrc : BitVec 16 := 0
  tpDst : BitVec 16 := 0
  deriving DecidableEq, Repr

/-- `nw_src_mask` and `nw_dst_mask`, by the position of the count in the wildcard word. -/
def addressMask (wildcards field : BitVec 32) (shift : Nat) : BitVec 32 :=
  let bits := ((wildcards &&& field) >>> shift).toNat
  ipv4Mask (32 - if bits > 32 then 32 else bits)

def OriginalMatch.nwSrcMask (m : OriginalMatch) : BitVec 32 :=
  addressMask m.wildcards Wildcards.nwSrcMask Wildcards.nwSrcShift

def OriginalMatch.nwDstMask (m : OriginalMatch) : BitVec 32 :=
  addressMask m.wildcards Wildcards.nwDstMask Wildcards.nwDstShift

def sizeofOriginalMatch : Nat := 40

def OriginalMatch.ofBytes (data : Bytes) : OriginalMatch :=
  let field (w offset : Nat) : BitVec w := BitVec.ofNat w (bigNat (window data offset (w / 8)))
  { wildcards := field 32 0
    inPort := field 16 4
    dlSrc := field 48 6
    dlDst := field 48 12
    dlVlan := field 16 18
    dlVlanPcp := field 8 20
    dlType := field 16 22
    nwTos := field 8 24
    nwProto := field 8 25
    nwSrc := field 32 28
    nwDst := field 32 32
    tpSrc := field 16 36
    tpDst := field 16 38 }

def OriginalMatch.toBytes (m : OriginalMatch) : Bytes :=
  bigBytes 4 m.wildcards.toNat ++ bigBytes 2 m.inPort.toNat ++ bigBytes 6 m.dlSrc.toNat ++
    bigBytes 6 m.dlDst.toNat ++ bigBytes 2 m.dlVlan.toNat ++ bigBytes 1 m.dlVlanPcp.toNat ++
    bigBytes 1 0 ++ bigBytes 2 m.dlType.toNat ++ bigBytes 1 m.nwTos.toNat ++
    bigBytes 1 m.nwProto.toNat ++ bigBytes 2 0 ++ bigBytes 4 m.nwSrc.toNat ++
    bigBytes 4 m.nwDst.toNat ++ bigBytes 2 m.tpSrc.toNat ++ bigBytes 2 m.tpDst.toNat

theorem length_toBytes (m : OriginalMatch) : m.toBytes.length = sizeofOriginalMatch := by
  unfold OriginalMatch.toBytes
  simp [sizeofOriginalMatch]

/-! VLAN identifiers with a meaning of their own, in version 4 and in version 1. -/

namespace OFPVID

def none : BitVec 16 := 0
def present : BitVec 16 := 0x1000
def noneV1 : BitVec 16 := 0xFFFF
def presentV1 : BitVec 16 := 0xFFFE

end OFPVID

/-- `set_nw_src_mask` and `set_nw_dst_mask`: the count of the bits that are not compared
goes to its place in the wildcard word. -/
def setAddressMask (wildcards field : BitVec 32) (shift bits : Nat) : BitVec 32 :=
  (wildcards &&& ~~~field) ||| (BitVec.ofNat 32 (32 - min bits 32) <<< shift)

def setNwSrcMask (wildcards : BitVec 32) (bits : Nat) : BitVec 32 :=
  setAddressMask wildcards Wildcards.nwSrcMask Wildcards.nwSrcShift bits

def setNwDstMask (wildcards : BitVec 32) (bits : Nat) : BitVec 32 :=
  setAddressMask wildcards Wildcards.nwDstMask Wildcards.nwDstShift bits

def OriginalMatch.heed (m : OriginalMatch) (bit : BitVec 32) : OriginalMatch :=
  { m with wildcards := m.wildcards &&& ~~~bit }

def OriginalMatch.addValue (m : OriginalMatch) (f : OxmField) (item : Item) : OriginalMatch :=
  match f with
  | .inPort => { m.heed Wildcards.inPort with inPort := (item.value 32).setWidth 16 }
  | .ethSrc => { m.heed Wildcards.dlSrc with dlSrc := item.value 48 }
  | .ethDst => { m.heed Wildcards.dlDst with dlDst := item.value 48 }
  | .ethType => { m.heed Wildcards.dlType with dlType := item.value 16 }
  | .vlanVid =>
    let vlan := item.value 16
    { m.heed Wildcards.dlVlan with
      dlVlan := if vlan = OFPVID.none then OFPVID.noneV1 else vlan &&& ~~~OFPVID.present }
  | .vlanPcp => { m.heed Wildcards.dlVlanPcp with dlVlanPcp := item.value 8 }
  | .ipDscp => { m.heed Wildcards.nwTos with nwTos := item.value 8 }
  | .ipProto => { m.heed Wildcards.nwProto with nwProto := item.value 8 }
  | .ipv4Src => { m with nwSrc := item.value 32, wildcards := setNwSrcMask m.wildcards 32 }
  | .ipv4Dst => { m with nwDst := item.value 32, wildcards := setNwDstMask m.wildcards 32 }
  | .tcpSrc | .udpSrc => { m.heed Wildcards.tpSrc with tpSrc := item.value 16 }
  | .tcpDst | .udpDst => { m.heed Wildcards.tpDst with tpDst := item.value 16 }
  | .icmpv4Type => { m.heed Wildcards.tpSrc with tpSrc := (item.value 8).setWidth 16 }
  | .icmpv4Code => { m.heed Wildcards.tpDst with tpDst := (item.value 8).setWidth 16 }
  -- `Unrecognized oxm type`: the field is left out.
  | _ => m

def OriginalMatch.addMasked (m : OriginalMatch) (f : OxmField) (item : Item) : OriginalMatch :=
  match f with
  | .vlanVid =>
    let vlan := item.value 16
    { m.heed Wildcards.dlVlan with
      dlVlan := if vlan = OFPVID.present ∧ item.mask 16 = OFPVID.present then OFPVID.presentV1
        else vlan &&& ~~~OFPVID.present }
  | .ipv4Src =>
    { m with
      nwSrc := item.value 32
      wildcards := setNwSrcMask m.wildcards (ipv4Prefix (item.mask 32)) }
  | .ipv4Dst =>
    { m with
      nwDst := item.value 32
      wildcards := setNwDstMask m.wildcards (ipv4Prefix (item.mask 32)) }
  | _ => m

def OriginalMatch.add (m : OriginalMatch) (item : Item) : OriginalMatch :=
  match OxmField.ofType item.type, OxmField.ofTypeWithMask item.type with
  | some f, _ => m.addValue f item
  | none, some f => m.addMasked f item
  | none, none => m

/-- `OriginalMatch::OriginalMatch(const OXMRange &)`. -/
def OriginalMatch.ofOxmRange (range : Bytes) : OriginalMatch :=
  (items range).foldl OriginalMatch.add {}

end Libofp.Match.Original
