/- GID: Libofp/Oxm/Field
   digest: The OXM fields that older protocol versions can express, and their encoding. -/

import Libofp.Octets.BigEndian

set_option autoImplicit false

namespace Libofp.Oxm.Field

open Octets.ByteRange Octets.BigEndian

/-- Fields of class `OFB` (0x8000). -/
inductive OxmField where
  | inPort
  | metadata
  | ethDst
  | ethSrc
  | ethType
  | vlanVid
  | vlanPcp
  | ipDscp
  | ipEcn
  | ipProto
  | ipv4Src
  | ipv4Dst
  | tcpSrc
  | tcpDst
  | udpSrc
  | udpDst
  | sctpSrc
  | sctpDst
  | icmpv4Type
  | icmpv4Code
  | arpOp
  | arpSpa
  | arpTpa
  | mplsLabel
  | mplsTc
  deriving DecidableEq, Repr

/-- How a value is kept in memory: as an integer that the host reads in its own byte
order, or as a structure of bytes. -/
inductive ValueKind where
  | integer
  | structured
  deriving DecidableEq, Repr

namespace OxmField

/-- The `Field` column of the field table. -/
def code : OxmField → Nat
  | inPort => 0
  | metadata => 2
  | ethDst => 3
  | ethSrc => 4
  | ethType => 5
  | vlanVid => 6
  | vlanPcp => 7
  | ipDscp => 8
  | ipEcn => 9
  | ipProto => 10
  | ipv4Src => 11
  | ipv4Dst => 12
  | tcpSrc => 13
  | tcpDst => 14
  | udpSrc => 15
  | udpDst => 16
  | sctpSrc => 17
  | sctpDst => 18
  | icmpv4Type => 19
  | icmpv4Code => 20
  | arpOp => 21
  | arpSpa => 22
  | arpTpa => 23
  | mplsLabel => 34
  | mplsTc => 35

/-- The `Size` column, in bytes. -/
def size : OxmField → Nat
  | metadata => 8
  | ethDst | ethSrc => 6
  | inPort | ipv4Src | ipv4Dst | arpSpa | arpTpa | mplsLabel => 4
  | ethType | vlanVid | tcpSrc | tcpDst | udpSrc | udpDst | sctpSrc | sctpDst | arpOp => 2
  | vlanPcp | ipDscp | ipEcn | ipProto | icmpv4Type | icmpv4Code | mplsTc => 1

/-- The `ValueType` column: `Big8` to `Big64` have a native integer type, the address
types, `PortNumber` and `VlanNumber` have not. -/
def kind : OxmField → ValueKind
  | inPort | ethDst | ethSrc | vlanVid | ipv4Src | ipv4Dst | arpSpa | arpTpa => .structured
  | _ => .integer

/-- `OXMType`: class, field, mask bit and size in one word. -/
def type (f : OxmField) : Nat := 0x80000000 + f.code * 512 + f.size

/-- `typeWithMask`: the mask doubles the size. -/
def typeWithMask (f : OxmField) : Nat := 0x80000000 + f.code * 512 + 256 + f.size * 2

def all : List OxmField :=
  [inPort, metadata, ethDst, ethSrc, ethType, vlanVid, vlanPcp, ipDscp, ipEcn, ipProto, ipv4Src,
    ipv4Dst, tcpSrc, tcpDst, udpSrc, udpDst, sctpSrc, sctpDst, icmpv4Type, icmpv4Code, arpOp,
    arpSpa, arpTpa, mplsLabel, mplsTc]

def ofType (word : Nat) : Option OxmField := all.find? (·.type = word)

def ofTypeWithMask (word : Nat) : Option OxmField := all.find? (·.typeWithMask = word)

section

variable (f : OxmField)

theorem ofType_type : ofType f.type = some f := by
  cases f <;> rfl

theorem ofTypeWithMask_typeWithMask : ofTypeWithMask f.typeWithMask = some f := by
  cases f <;> rfl

theorem ofType_typeWithMask : ofType f.typeWithMask = none := by
  cases f <;> rfl

theorem size_pos : 0 < f.size := by
  cases f <;> simp [size]

theorem size_le : f.size ≤ 8 := by
  cases f <;> simp [size]

theorem type_lt : f.type < 2 ^ 32 := by
  cases f <;> decide

theorem typeWithMask_lt : f.typeWithMask < 2 ^ 32 := by
  cases f <;> decide

end

end OxmField

/-- `OXMList::add` of one unmasked value to an empty list. -/
def oxmEntry (f : OxmField) (value : Bytes) : Bytes := bigBytes 4 f.type ++ value

def pad8 (list : Bytes) (n : Nat) : Bytes :=
  list ++ List.replicate (padLength (n + list.length) - (n + list.length)) 0

inductive Host where
  | little
  | big
  deriving DecidableEq, Repr

/-- The memory of a value that is copied into its native type and assigned from there: an
integer passes through the byte order of the host, other values keep their bytes. -/
def throughNative (host : Host) (f : OxmField) (bytes : Bytes) : Bytes :=
  match f.kind, host with
  | .integer, .little => bytes.reverse
  | _, _ => bytes

@[simp] theorem length_throughNative (host : Host) (f : OxmField) (bytes : Bytes) :
    (throughNative host f bytes).length = bytes.length := by
  unfold throughNative
  split
  · exact List.length_reverse
  · rfl

end Libofp.Oxm.Field
