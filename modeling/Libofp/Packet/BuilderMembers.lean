/- GID: Libofp/Packet/BuilderMembers
   digest: The member of the packet builder that each field is kept in, and what is kept there
     when a list of fields has been read. -/

import Libofp.Packet.FrameBuilder
import Libofp.Packet.WellFormed

set_option autoImplicit false

namespace Libofp.Packet.BuilderMembers

open Octets.ByteRange Octets.BigEndian Octets.Fixed
open Oxm.Range Oxm.FieldTable Decoder WellFormed
open FrameBuilder Match.Builder Match.BlockSteps
open Match.Blocks Oxm.PrerequisiteCheck

def stored (b : MatchPacketBuilder) : InternalId → Bytes
  | .ethDst => b.ethDst.bytes
  | .ethSrc => b.ethSrc.bytes
  | .ethType => bigBytes 2 b.ethType.toNat
  | .vlanVid => bigBytes 2 b.vlanVid.toNat
  | .vlanPcp => bigBytes 1 b.vlanPcp.toNat
  | .arpOp => bigBytes 2 b.arpOp.toNat
  | .arpSha => b.arpSha.bytes
  | .arpSpa => b.arpSpa.bytes
  | .arpTha => b.arpTha.bytes
  | .arpTpa => b.arpTpa.bytes
  | .ipv4Src => b.ipv4Src.bytes
  | .ipv4Dst => b.ipv4Dst.bytes
  | .ipv6Src => b.ipv6Src.bytes
  | .ipv6Dst => b.ipv6Dst.bytes
  | .ipProto => bigBytes 1 b.ipProto.toNat
  | .nxIpTtl => bigBytes 1 b.ipTtl.toNat
  | .tcpSrc => bigBytes 2 b.srcPort.toNat
  | .tcpDst => bigBytes 2 b.dstPort.toNat
  | .icmpv4Code | .icmpv6Code => bigBytes 1 b.icmpCode.toNat
  | .icmpv4Type | .icmpv6Type => bigBytes 1 b.icmpType.toNat
  | .ipv6NdTarget => b.ndTarget.bytes
  | .ipv6NdSll | .ipv6NdTll => b.ndLl.bytes
  | .xLldpChassisId => b.lldpChassisId.bytes
  | .xLldpPortId => b.lldpPortId.bytes
  | .xLldpTtl => bigBytes 2 b.lldpTtl.toNat
  | .xLldpSysName => b.lldpSysName.bytes
  | .xLldpPortDescr => b.lldpPortDescr.bytes
  | .xIpv6NdRes => bigBytes 4 b.ndRes.toNat
  | _ => []

/-- The fields that share a member have the same one of them here. -/
def member : InternalId → InternalId
  | .icmpv6Code => .icmpv4Code
  | .icmpv6Type => .icmpv4Type
  | .ipv6NdTll => .ipv6NdSll
  | id => id

def single : List InternalId :=
  [.ethDst, .ethSrc, .ethType, .vlanVid, .vlanPcp, .arpOp, .arpSha, .arpSpa, .arpTha, .arpTpa,
    .ipv4Src, .ipv4Dst, .ipv6Src, .ipv6Dst, .ipProto, .nxIpTtl, .tcpSrc, .tcpDst, .icmpv4Code,
    .icmpv6Code, .icmpv4Type, .icmpv6Type, .ipv6NdTarget, .ipv6NdSll, .ipv6NdTll,
    .xLldpChassisId, .xLldpPortId, .xLldpTtl, .xLldpSysName, .xLldpPortDescr, .xIpv6NdRes]

section

variable {data : Bytes}

theorem bigBytes_copy {n : Nat} (size : data.length = n) :
    bigBytes n ((ByteBlock.copy n data).toNat % 256 ^ n) = data := by
  rw [bigBytes_mod, ByteBlock.toNat, ByteBlock.bytes_copy size, ← size, bigBytes_bigNat]

private theorem bigBytes_value8 (size : data.length = 1) :
    bigBytes 1 (value8 data).toNat = data := by
  exact bigBytes_copy size

private theorem bigBytes_value16 (size : data.length = 2) :
    bigBytes 2 (value16 data).toNat = data := by
  exact bigBytes_copy size

private theorem bigBytes_value32 (size : data.length = 4) :
    bigBytes 4 (value32 data).toNat = data := by
  exact bigBytes_copy size

end

section

variable {b : MatchPacketBuilder} {id id' : InternalId} {data : Bytes}

private theorem stored_assign (kept : id ∈ single) (size : data.length = valueSize id) :
    stored (b.assign id data) id = data := by
  cases id with
  | ethType | vlanVid | arpOp | tcpSrc | tcpDst | xLldpTtl => exact bigBytes_value16 size
  | vlanPcp | ipProto | nxIpTtl | icmpv4Code | icmpv6Code | icmpv4Type | icmpv6Type =>
    exact bigBytes_value8 size
  | xIpv6NdRes => exact bigBytes_value32 size
  | _ => first | exact ByteBlock.bytes_copy size | exact absurd kept (by decide)

private theorem stored_assign_of_ne (apart : member id ≠ member id') (data : Bytes) :
    stored (b.assign id' data) id = stored b id := by
  cases id' <;> first | rfl | (cases id <;> first | rfl | exact absurd rfl apart)

private theorem lldpCustom_assign (b : MatchPacketBuilder) (id : InternalId) (data : Bytes) :
    (b.assign id data).lldpCustom =
      b.lldpCustom ++ if id = .xLldpOrgSpecific then [.copy 64 data] else [] := by
  cases id with
  | xLldpOrgSpecific => rfl
  | _ => exact (List.append_nil _).symm

end

section

variable {b : MatchPacketBuilder} {id : InternalId} {fields : List (InternalId × Bytes)}

def assignAll (b : MatchPacketBuilder) (fields : List (InternalId × Bytes)) : MatchPacketBuilder :=
  fields.foldl (fun b p => b.assign p.1 p.2) b

def Separate (fields : List (InternalId × Bytes)) : Prop :=
  fields.Pairwise fun p q => member p.1 = member q.1 → p.1 = .xLldpOrgSpecific

theorem stored_assignAll_of_ne (apart : ∀ p ∈ fields, member id ≠ member p.1) :
    stored (assignAll b fields) id = stored b id := by
  induction fields generalizing b with
  | nil => rfl
  | cons p fields ih =>
    rw [List.forall_mem_cons] at apart
    rw [assignAll, List.foldl_cons, ← assignAll, ih apart.2, stored_assign_of_ne apart.1]

theorem stored_assignAll (separate : Separate fields) {p : InternalId × Bytes} (given : p ∈ fields)
    (kept : p.1 ∈ single) (size : p.2.length = valueSize p.1) :
    stored (assignAll b fields) p.1 = p.2 := by
  have other : p.1 ≠ .xLldpOrgSpecific := by
    intro same
    rw [same] at kept
    exact absurd kept (by decide)
  induction fields generalizing b with
  | nil => cases given
  | cons q fields ih =>
    obtain ⟨head, later⟩ := List.pairwise_cons.mp separate
    rw [assignAll, List.foldl_cons, ← assignAll]
    rcases List.mem_cons.mp given with rfl | behind
    · rw [stored_assignAll_of_ne fun r inside same => other (head r inside same),
        stored_assign kept size]
    · exact ih later behind

theorem lldpCustom_assignAll : (assignAll b fields).lldpCustom = b.lldpCustom ++
    (fields.filter (·.1 = .xLldpOrgSpecific)).map fun p => ByteBlock.copy 64 p.2 := by
  induction fields generalizing b with
  | nil => exact (List.append_nil _).symm
  | cons p fields ih =>
    rw [assignAll, List.foldl_cons, ← assignAll, ih, lldpCustom_assign, List.append_assoc]
    by_cases custom : p.1 = .xLldpOrgSpecific
    · simp [custom]
    · simp [custom]

def itemsFor (fields : List (InternalId × Bytes)) : List Item :=
  fields.map fun p => fieldItem p.1 p.2

def known : List InternalId := .xLldpOrgSpecific :: single

private theorem idOfType_type : ∀ id ∈ known, idOfType id.type = some id := by
  decide

private theorem setField_fieldItem (b : MatchPacketBuilder) (inside : id ∈ known) (value : Bytes) :
    b.setField (fieldItem id value) = b.assign id value := by
  have found : idOfType (fieldItem id value).type = some id := idOfType_type id inside
  have behind : (if id.isExperimenter then (fieldItem id value).payload.drop 4
      else (fieldItem id value).payload) = value := by
    rw [fieldItem]
    split
    · exact List.drop_left' (length_bigBytes ..)
    · rfl
  simp only [MatchPacketBuilder.setField, found, behind]

theorem ofRange_itemsFor (inside : ∀ p ∈ fields, p.1 ∈ known)
    (sized : ∀ p ∈ fields, p.2.length = valueSize p.1) :
    MatchPacketBuilder.ofRange (toRange (itemsFor fields)) = assignAll {} fields := by
  have bound : ∀ item ∈ itemsFor fields, item.type < 2 ^ 32 := by
    intro item listed
    obtain ⟨p, -, rfl⟩ := List.mem_map.mp listed
    exact (type_lt p.1).1
  have whole : ∀ item ∈ itemsFor fields, Sized item := by
    intro item listed
    obtain ⟨p, given, rfl⟩ := List.mem_map.mp listed
    exact sized_fieldItem (sized p given)
  rw [MatchPacketBuilder.ofRange, items_toRange bound whole, itemsFor, List.foldl_map, assignAll]
  refine List.foldl_ext _ _ _ fun b p given => ?_
  exact setField_fieldItem b (inside p given) p.2

end

end Libofp.Packet.BuilderMembers
