/- GID: Libofp/Actions/Writing
   digest: Action lists as they are written to a channel, and the size that is announced. -/

import Libofp.Actions.ActionRange
import Libofp.Octets.ByteList
import Libofp.Oxm.Field

set_option autoImplicit false

namespace Libofp.Actions.Writing

open Octets.ByteRange Octets.ByteList Octets.BigEndian Oxm.Field ActionRange

/-- `AT_OUTPUT_V1`: the port number loses its upper 16 bits. -/
def atOutputV1 (action : Bytes) : Bytes :=
  bigBytes 2 OFPAT.output ++ bigBytes 2 8 ++ window action 6 2 ++ window action 8 2

/-- `AT_SET_FIELD_V` and `AT_SET_FIELD_V_NPAD`: a code, a length, the value of the
set-field action and padding where the value leaves room. -/
def atSetFieldV (code : Nat) (f : OxmField) (action : Bytes) : Bytes :=
  bigBytes 2 code ++ bigBytes 2 (padLength (4 + f.size)) ++ window action 8 f.size ++
    List.replicate (padLength (4 + f.size) - (4 + f.size)) 0

def atSetVlanVidV1 : Bytes → Bytes := atSetFieldV 1 .vlanVid
def atSetVlanPcpV1 : Bytes → Bytes := atSetFieldV 2 .vlanPcp
def atSetDlSrcV1 : Bytes → Bytes := atSetFieldV 4 .ethSrc
def atSetDlDstV1 : Bytes → Bytes := atSetFieldV 5 .ethDst
def atSetNwSrcV1 : Bytes → Bytes := atSetFieldV 6 .ipv4Src
def atSetNwDstV1 : Bytes → Bytes := atSetFieldV 7 .ipv4Dst
def atSetNwTosV1 : Bytes → Bytes := atSetFieldV 8 .ipDscp

/-! Version 1 has one action for the ports of all protocols: `OFB_TP_PORT` is
`OFB_TCP_SRC` and `OFB_TP_CODE` is `OFB_ICMPV4_CODE`. -/

def atSetTpSrcV1 : Bytes → Bytes := atSetFieldV 9 .tcpSrc
def atSetTpDstV1 : Bytes → Bytes := atSetFieldV 10 .tcpSrc
def atSetTpTypeV1 : Bytes → Bytes := atSetFieldV 9 .icmpv4Code
def atSetTpCodeV1 : Bytes → Bytes := atSetFieldV 10 .icmpv4Code

/-- The field that `iter->oxmRange().begin()` of a set-field action stands at. -/
def oxmField (action : Bytes) : Option OxmField := OxmField.ofType (big32 action 4)

def writeSizeMinusSetFieldV1 (action : Bytes) : Nat :=
  match oxmField action with
  | some .ethSrc | some .ethDst => 0
  | some .vlanVid | some .vlanPcp | some .ipv4Src | some .ipv4Dst | some .ipDscp
  | some .tcpSrc | some .tcpDst | some .udpSrc | some .udpDst | some .icmpv4Type
  | some .icmpv4Code => 8
  | _ => 0

def writeSetFieldV1 (action : Bytes) : Bytes :=
  match oxmField action with
  | some .vlanVid => atSetVlanVidV1 action
  | some .vlanPcp => atSetVlanPcpV1 action
  | some .ethSrc => atSetDlSrcV1 action
  | some .ethDst => atSetDlDstV1 action
  | some .ipv4Src => atSetNwSrcV1 action
  | some .ipv4Dst => atSetNwDstV1 action
  | some .ipDscp => atSetNwTosV1 action
  | some .tcpSrc => atSetTpSrcV1 action
  | some .tcpDst => atSetTpDstV1 action
  | some .udpSrc => atSetTpSrcV1 action
  | some .udpDst => atSetTpDstV1 action
  | some .icmpv4Type => atSetTpTypeV1 action
  | some .icmpv4Code => atSetTpCodeV1 action
  -- `Unknown field type`: nothing is written.
  | _ => []

/-- `type == AT_OUTPUT::type()`, which compares the length as well. -/
def IsOutput (action : Bytes) : Prop :=
  enumType action = OFPAT.output ∧ actionLength action = 16

instance (action : Bytes) : Decidable (IsOutput action) := instDecidableAnd

/-- What one turn of the loop in `writeSize` takes off. -/
def writeSizeMinusV1 (action : Bytes) : Nat :=
  if IsOutput action then 8
  else if enumType action = OFPAT.setField then writeSizeMinusSetFieldV1 action
  else 0

def writeSize (version : Nat) (range : Bytes) : Nat :=
  if version ≠ 1 then range.length
  else (actionLayout.items range).foldl (fun newSize action => newSize - writeSizeMinusV1 action)
    range.length

/-- What one turn of the loop in `write` emits. -/
def writeV1 (action : Bytes) : Bytes :=
  if IsOutput action then atOutputV1 action
  else if enumType action = OFPAT.setField then writeSetFieldV1 action
  else action.take (actionLength action)

def write (version : Nat) (range : Bytes) : Bytes :=
  if version ≠ 1 then range else (actionLayout.items range).flatMap writeV1

end Libofp.Actions.Writing
