/- GID: Libofp/Match/OriginalRoundTrip
   digest: OXM lists that a version 1.0 match can express: which of them come back from it. -/

import Libofp.Match.OriginalPlaces

set_option autoImplicit false

namespace Libofp.Match.OriginalRoundTrip

open Base.Recording Oxm.Field Oxm.FieldList
open Match.Original Places StandardRoundTrip OriginalPlaces
open Match.Standard (StandardMatch vlanEntry DATALINK.arp PROTOCOL.tcp PROTOCOL.udp
  PROTOCOL.icmp PROTOCOL.sctp)

def Representable : Entry → Prop
  | ⟨.inPort, port, none⟩ => port.toNat ≤ 0xFF00 ∨ 0xFFFFFF01 ≤ port.toNat
  | ⟨.ethSrc, _, none⟩ => True
  | ⟨.ethDst, _, none⟩ => True
  | ⟨.ethType, _, none⟩ => True
  | ⟨.vlanVid, vlan, none⟩ => vlan = OFPVID.none ∨ vlan &&& 0xF000 = OFPVID.present
  | ⟨.vlanVid, vlan, some mask⟩ => vlan = OFPVID.present ∧ mask = OFPVID.present
  | ⟨.vlanPcp, _, none⟩ => True
  | ⟨.ipDscp, _, none⟩ => True
  | ⟨.ipProto, _, none⟩ => True
  | ⟨.ipv4Src, addr, mask⟩ => PrefixMask (ones mask) ∧ addr &&& ones mask = addr
  | ⟨.ipv4Dst, addr, mask⟩ => PrefixMask (ones mask) ∧ addr &&& ones mask = addr
  | ⟨.tcpSrc, _, none⟩ => True
  | ⟨.tcpDst, _, none⟩ => True
  | ⟨.udpSrc, _, none⟩ => True
  | ⟨.udpDst, _, none⟩ => True
  | ⟨.icmpv4Type, _, none⟩ => True
  | ⟨.icmpv4Code, _, none⟩ => True
  | ⟨.arpOp, op, none⟩ => op.toNat ≤ 255
  | ⟨.arpSpa, addr, mask⟩ => PrefixMask (ones mask) ∧ addr &&& ones mask = addr
  | ⟨.arpTpa, addr, mask⟩ => PrefixMask (ones mask) ∧ addr &&& ones mask = addr
  | _ => False

def prerequisites : OxmField → List (List Entry)
  | .vlanPcp => [[masked .vlanVid OFPVID.present OFPVID.present]]
  | .ipDscp | .ipEcn | .ipProto => [[plain .ethType 0x0800, plain .ethType 0x86dd]]
  | .ipv4Src | .ipv4Dst => [[plain .ethType 0x0800]]
  | .tcpSrc | .tcpDst => [[plain .ipProto PROTOCOL.tcp]]
  | .udpSrc | .udpDst => [[plain .ipProto PROTOCOL.udp]]
  | .sctpSrc | .sctpDst => [[plain .ipProto PROTOCOL.sctp]]
  | .icmpv4Type | .icmpv4Code => [[plain .ethType 0x0800], [plain .ipProto PROTOCOL.icmp]]
  | .arpOp | .arpSpa | .arpTpa => [[plain .ethType DATALINK.arp]]
  | .mplsLabel | .mplsTc => [[plain .ethType 0x8847, plain .ethType 0x8848]]
  | .inPort | .metadata | .ethSrc | .ethDst | .ethType | .vlanVid => []

def Satisfies (e alternative : Entry) : Prop :=
  ∃ value mask, e = ⟨alternative.field, value, mask⟩ ∧
    value &&& ones mask &&& ones alternative.mask = alternative.value

/-- An OXM list with distinct fields that version 1.0 can express and whose prerequisites
are in it. -/
structure V1List where
  entries : List Entry
  representable : ∀ e ∈ entries, Representable e
  distinct : (entries.map Entry.field).Nodup
  consistent : ∀ e ∈ entries, ∀ group ∈ prerequisites e.field,
    ∃ alternative ∈ group, ∃ e' ∈ entries, Satisfies e' alternative

/-- The fields that survive: not those of ARP, and no reserved port. -/
def Kept : Entry → Prop
  | ⟨.inPort, port, _⟩ => port.toNat ≤ 0xFF00
  | ⟨.arpOp, _, _⟩ => False
  | ⟨.arpSpa, _, _⟩ => False
  | ⟨.arpTpa, _, _⟩ => False
  | _ => True

def isArp : OxmField → Bool
  | .arpOp | .arpSpa | .arpTpa => true
  | _ => false

def noteV1 (e : Entry) : Option (Sigma Slot.Value) :=
  if isArp e.field then none else (note e).map fun x => ⟨x.1, narrowed x.1 x.2⟩

section

variable (m : OriginalMatch)

theorem addV1_plain (f : OxmField) (value : BitVec (8 * f.size)) :
    m.add (Entry.item ⟨f, value, none⟩) = m.addValue f (Entry.item ⟨f, value, none⟩) := by
  rw [OriginalMatch.add, show (Entry.item ⟨f, value, none⟩).type = f.type from rfl,
    OxmField.ofType_type]

theorem addV1_masked (f : OxmField) (value mask : BitVec (8 * f.size)) :
    m.add (Entry.item ⟨f, value, some mask⟩) =
      m.addMasked f (Entry.item ⟨f, value, some mask⟩) := by
  rw [OriginalMatch.add,
    show (Entry.item ⟨f, value, some mask⟩).type = f.typeWithMask from rfl,
    OxmField.ofType_typeWithMask, OxmField.ofTypeWithMask_typeWithMask]

private theorem addV1_arp {e : Entry} (arp : isArp e.field = true) : m.add e.item = m := by
  obtain ⟨f, value, mask⟩ := e
  cases mask with
  | none =>
    rw [addV1_plain]
    cases f <;> first | rfl | exact nomatch arp
  | some mask =>
    rw [addV1_masked]
    cases f <;> first | rfl | exact nomatch arp

private theorem addV1_item {e : Entry} (representable : Representable e)
    (other : isArp e.field = false) :
    ∃ s v, note e = some ⟨s, v⟩ ∧ Narrow s v ∧ m.add e.item = putV1 m s v := by
  obtain ⟨f, value, mask⟩ := e
  cases mask with
  | none =>
    rw [addV1_plain]
    have read := value_item value none
    generalize Entry.item ⟨f, value, none⟩ = item at read ⊢
    subst read
    have whole : ipv4Prefix (BitVec.allOnes 32) = 32 := by decide +kernel
    cases f
    case ipv4Src =>
      refine ⟨_, _, rfl, representable.1, ?_⟩
      show _ = { m with
        nwSrc := item.value 32
        wildcards := setNwSrcMask m.wildcards (ipv4Prefix (BitVec.allOnes 32)) }
      rw [whole]
      rfl
    case ipv4Dst =>
      refine ⟨_, _, rfl, representable.1, ?_⟩
      show _ = { m with
        nwDst := item.value 32
        wildcards := setNwDstMask m.wildcards (ipv4Prefix (BitVec.allOnes 32)) }
      rw [whole]
      rfl
    case arpOp => exact nomatch other
    case arpSpa => exact nomatch other
    case arpTpa => exact nomatch other
    all_goals first
      | exact representable.elim
      | exact ⟨_, _, rfl, trivial, rfl⟩
      | exact ⟨_, _, rfl, rfl, rfl⟩
  | some mask =>
    rw [addV1_masked]
    have read := value_item value (some mask)
    have readMask := mask_item value mask
    generalize Entry.item ⟨f, value, some mask⟩ = item at read readMask ⊢
    subst read readMask
    cases f
    case vlanVid => exact ⟨_, _, rfl, trivial, rfl⟩
    case ipv4Src => exact ⟨_, _, rfl, representable.1, rfl⟩
    case ipv4Dst => exact ⟨_, _, rfl, representable.1, rfl⟩
    case arpSpa => exact nomatch other
    case arpTpa => exact nomatch other
    all_goals exact representable.elim

private theorem viewV1_add {e : Entry} (representable : Representable e) :
    viewV1 (m.add e.item) = record (viewV1 m) (noteV1 e) := by
  unfold noteV1
  cases arp : isArp e.field with
  | true => rw [if_pos rfl, addV1_arp m arp, record]
  | false =>
    obtain ⟨s, v, noted, narrow, put⟩ := addV1_item m representable arp
    rw [put, viewV1_putV1 m s v narrow, noted]
    rfl

private theorem viewV1_blank (s : Slot) : viewV1 {} s = none := by
  cases s <;> rfl

end

section

def isIp : OxmField → Bool
  | .ipDscp | .ipProto | .ipv4Src | .ipv4Dst | .tcpSrc | .tcpDst | .udpSrc | .udpDst
  | .icmpv4Type | .icmpv4Code => true
  | _ => false

def transport : OxmField → Option (BitVec 8)
  | .tcpSrc | .tcpDst => some PROTOCOL.tcp
  | .udpSrc | .udpDst => some PROTOCOL.udp
  | .icmpv4Type | .icmpv4Code => some PROTOCOL.icmp
  | _ => none

variable {L : V1List} {e e' : Entry}

theorem eq_of_field_eq (member : e ∈ L.entries) (member' : e' ∈ L.entries)
    (same : e.field = e'.field) : e = e' :=
  List.inj_on_of_nodup_map L.distinct member member' same

theorem mem_of_satisfies {f : OxmField} (unmasked : f = .ethType ∨ f = .ipProto)
    {value : BitVec (8 * f.size)} (member : e ∈ L.entries) (h : Satisfies e (plain f value)) :
    plain f value ∈ L.entries := by
  obtain ⟨found, mask, rfl, demanded⟩ := h
  have representable := L.representable _ member
  cases mask with
  | none =>
    have all (x : BitVec (8 * f.size)) : x &&& BitVec.allOnes _ &&& BitVec.allOnes _ = x := by
      rw [BitVec.and_allOnes, BitVec.and_allOnes]
    have same : found = value := (all found).symm.trans demanded
    rwa [← same]
  | some mask => rcases unmasked with rfl | rfl <;> exact representable.elim

section

variable (member : e ∈ L.entries)

include member

private theorem ethType_of_arp (arp : isArp e.field = true) :
    plain .ethType DATALINK.arp ∈ L.entries := by
  have demanded : [plain .ethType DATALINK.arp] ∈ prerequisites e.field := by
    generalize e.field = f at arp
    cases f <;> first | exact List.mem_singleton.mpr rfl | exact nomatch arp
  obtain ⟨alternative, listed, e', member', satisfies⟩ := L.consistent e member _ demanded
  obtain rfl := List.mem_singleton.mp listed
  exact mem_of_satisfies (.inl rfl) member' satisfies

theorem ipProto_of_transport {proto : BitVec 8}
    (h : transport e.field = some proto) : plain .ipProto proto ∈ L.entries := by
  have demanded : [plain .ipProto proto] ∈ prerequisites e.field := by
    generalize e.field = f at h
    cases f <;> first
      | (obtain rfl := Option.some.inj h
         simp [prerequisites])
      | exact nomatch h
  obtain ⟨alternative, listed, e', member', satisfies⟩ := L.consistent e member _ demanded
  obtain rfl := List.mem_singleton.mp listed
  exact mem_of_satisfies (.inr rfl) member' satisfies

theorem ethType_of_group {group : List Entry} (demanded : group ∈ prerequisites e.field)
    (ip : ∀ a ∈ group, a = plain .ethType 0x0800 ∨ a = plain .ethType 0x86dd) :
    plain .ethType 0x0800 ∈ L.entries ∨ plain .ethType 0x86dd ∈ L.entries := by
  obtain ⟨alternative, listed, e', member', satisfies⟩ := L.consistent e member _ demanded
  rcases ip _ listed with rfl | rfl
  · exact .inl (mem_of_satisfies (.inl rfl) member' satisfies)
  · exact .inr (mem_of_satisfies (.inl rfl) member' satisfies)

private theorem ethType_of_ip (ip : isIp e.field = true) :
    plain .ethType 0x0800 ∈ L.entries ∨ plain .ethType 0x86dd ∈ L.entries := by
  cases proto : transport e.field with
  | some p =>
    -- A port needs the protocol, and the protocol needs the type.
    exact ethType_of_group (ipProto_of_transport member proto) List.mem_cons_self (by simp)
  | none =>
    have direct : ∃ group ∈ prerequisites e.field,
        ∀ a ∈ group, a = plain .ethType 0x0800 ∨ a = plain .ethType 0x86dd := by
      generalize e.field = f at ip proto
      cases f <;> first
        | exact ⟨_, List.mem_cons_self, by decide⟩
        | exact absurd ip (by decide)
        | exact absurd proto (by decide)
    obtain ⟨group, demanded, ip⟩ := direct
    exact ethType_of_group member demanded ip

theorem not_ip_of_arp (arp : plain .ethType DATALINK.arp ∈ L.entries) : isIp e.field = false := by
  by_contra ip
  rcases ethType_of_ip member (by simpa using ip) with found | found
  · exact absurd (eq_of_field_eq arp found rfl) (by decide)
  · exact absurd (eq_of_field_eq arp found rfl) (by decide)

end

end

section

variable (L : V1List)

def placeOf : OxmField → Slot
  | .inPort => .inPort
  | .metadata => .metadata
  | .ethSrc => .dlSrc
  | .ethDst => .dlDst
  | .vlanVid => .dlVlan
  | .vlanPcp => .dlVlanPcp
  | .ethType => .dlType
  | .ipDscp | .ipEcn => .nwTos
  | .ipProto | .arpOp => .nwProto
  | .ipv4Src | .arpSpa => .nwSrc
  | .ipv4Dst | .arpTpa => .nwDst
  | .tcpSrc | .udpSrc | .sctpSrc | .icmpv4Type => .tpSrc
  | .tcpDst | .udpDst | .sctpDst | .icmpv4Code => .tpDst
  | .mplsLabel => .mplsLabel
  | .mplsTc => .mplsTc

variable {e : Entry} {s : Slot}

private theorem place_of_note {x : Sigma Slot.Value} (noted : note e = some x) :
    x.1 = placeOf e.field := by
  obtain ⟨f, value, mask⟩ := e
  cases f <;> cases mask <;> first
    | (obtain rfl := Option.some.inj noted
       rfl)
    | exact nomatch noted

theorem noteV1_eq_some {w : s.Value} (noted : noteV1 e = some ⟨s, w⟩) :
    s = placeOf e.field ∧ isArp e.field = false := by
  unfold noteV1 at noted
  split at noted
  · simp at noted
  · rename_i other
    obtain ⟨x, noted, same⟩ := Option.map_eq_some_iff.mp noted
    refine ⟨?_, by simpa using other⟩
    rw [← place_of_note noted]
    exact (congrArg Sigma.fst same).symm

def v1Fields : List OxmField :=
  [.inPort, .ethSrc, .ethDst, .ethType, .vlanVid, .vlanPcp, .ipDscp, .ipProto, .ipv4Src, .ipv4Dst,
    .tcpSrc, .tcpDst, .udpSrc, .udpDst, .icmpv4Type, .icmpv4Code]

theorem mem_v1Fields (representable : Representable e)
    (other : isArp e.field = false) : e.field ∈ v1Fields := by
  obtain ⟨f, value, mask⟩ := e
  show f ∈ v1Fields
  cases f
  case arpOp => exact nomatch other
  case arpSpa => exact nomatch other
  case arpTpa => exact nomatch other
  all_goals first
    | decide
    | (cases mask <;> exact representable.elim)

private theorem transport_of_place : ∀ f ∈ v1Fields, ∀ g ∈ v1Fields, placeOf f = placeOf g → f ≠ g →
    transport f ≠ none ∧ transport g ≠ none ∧ transport f ≠ transport g := by
  decide

private theorem transport_eq {e' : Entry} (member : e ∈ L.entries) (member' : e' ∈ L.entries)
    (h : transport e.field ≠ none) (h' : transport e'.field ≠ none) :
    transport e.field = transport e'.field := by
  obtain ⟨p, proto⟩ := Option.ne_none_iff_exists'.mp h
  obtain ⟨p', proto'⟩ := Option.ne_none_iff_exists'.mp h'
  have same := eq_of_field_eq (ipProto_of_transport member proto)
    (ipProto_of_transport member' proto') rfl
  cases same
  rw [proto, proto']

private theorem nodupKeys_noteV1 : (L.entries.filterMap noteV1).NodupKeys := by
  rw [List.nodupKeys_iff_pairwise, List.pairwise_filterMap]
  have distinct : L.entries.Pairwise fun e e' => e.field ≠ e'.field :=
    List.pairwise_map.mp L.distinct
  refine distinct.imp_of_mem ?_
  rintro e e' member member' different ⟨s, w⟩ noted ⟨s', w'⟩ noted' same
  obtain ⟨place, other⟩ := noteV1_eq_some noted
  obtain ⟨place', other'⟩ := noteV1_eq_some noted'
  have shared : placeOf e.field = placeOf e'.field := by
    rwa [← place, ← place']
  obtain ⟨some, some', apart⟩ := transport_of_place _
    (mem_v1Fields (L.representable e member) other) _
    (mem_v1Fields (L.representable e' member') other') shared different
  exact apart (transport_eq L member member' some some')

def content : Content := viewV1 (OriginalMatch.ofOxmRange (encodeAll L.entries))

theorem content_eq_some_iff {w : s.Value} :
    content L s = some w ↔ ∃ e ∈ L.entries, noteV1 e = some ⟨s, w⟩ := by
  have law : ∀ m : OriginalMatch, ∀ e ∈ L.entries,
      viewV1 (m.add e.item) = record (viewV1 m) (noteV1 e) :=
    fun m e member => viewV1_add m (L.representable e member)
  rw [content, OriginalMatch.ofOxmRange, items_encodeAll, List.foldl_map,
    view_foldl_eq_some_iff law (nodupKeys_noteV1 L) viewV1_blank]

private theorem toOXMList_eq_tell_content :
    (StandardMatch.ofOriginal (OriginalMatch.ofOxmRange (encodeAll L.entries))).toOXMList =
      (content L).tell := by
  rw [toOXMList_eq_tell, view_ofOriginal]
  rfl

private theorem content_dlType_iff {type : BitVec 16} :
    content L .dlType = some type ↔ plain .ethType type ∈ L.entries := by
  rw [content_eq_some_iff]
  constructor
  · rintro ⟨⟨f, value, mask⟩, member, noted⟩
    obtain ⟨place, other⟩ := noteV1_eq_some noted
    have representable := L.representable _ member
    have only : ∀ f ∈ v1Fields, Slot.dlType = placeOf f → f = .ethType := by decide
    obtain rfl := only f (mem_v1Fields representable other) place
    cases mask with
    | none =>
      cases noted
      exact member
    | some _ => exact representable.elim
  · intro member
    exact ⟨_, member, rfl⟩

private theorem content_nwProto_iff {proto : BitVec 8} :
    content L .nwProto = some proto ↔ plain .ipProto proto ∈ L.entries := by
  rw [content_eq_some_iff]
  constructor
  · rintro ⟨⟨f, value, mask⟩, member, noted⟩
    obtain ⟨place, other⟩ := noteV1_eq_some noted
    have representable := L.representable _ member
    have only : ∀ f ∈ v1Fields, Slot.nwProto = placeOf f → f = .ipProto := by decide
    obtain rfl := only f (mem_v1Fields representable other) place
    cases mask with
    | none =>
      cases noted
      exact member
    | some _ => exact representable.elim
  · intro member
    exact ⟨_, member, rfl⟩

private theorem arp_iff :
    (content L).mode.arp = true ↔ plain .ethType DATALINK.arp ∈ L.entries := by
  rw [← content_dlType_iff]
  exact decide_eq_true_iff

theorem mem_order {mode : Mode}
    (early : s ∈ [Slot.inPort, .dlSrc, .dlDst, .dlVlan, .dlVlanPcp, .dlType] ∨ mode.arp = false) :
    s ∈ mode.order := by
  rcases early with early | ip
  · apply List.mem_append_left
    revert early
    cases s <;> decide
  · unfold Mode.order
    rw [ip]
    cases s <;> decide

theorem constraint_maskedEntry {f : OxmField} {value : BitVec (8 * f.size)}
    {mask : Option (BitVec (8 * f.size))} (within : value &&& ones mask = value) :
    (maskedEntry f (value, ones mask)).constraint = Entry.constraint ⟨f, value, mask⟩ := by
  unfold maskedEntry
  split
  · rename_i all
    show Constraint.mk f value (BitVec.allOnes _) = ⟨f, value, ones mask⟩
    rw [← show ones mask = BitVec.allOnes _ from all]
  · show Constraint.mk f (value &&& ones mask) (ones mask) = ⟨f, value, ones mask⟩
    rw [within]

private theorem vlan_of_representable {vlan : BitVec 16} {mask : Option (BitVec 16)}
    (representable : Representable ⟨.vlanVid, vlan, mask⟩) :
    vlanEntry (keptVlan vlan mask) = ⟨.vlanVid, vlan, mask⟩ := by
  cases mask with
  | none =>
    rcases representable with rfl | (tagged : vlan &&& 0xF000 = OFPVID.present)
    · rfl
    · have nonzero : vlan ≠ OFPVID.none := by
        rintro rfl
        exact absurd tagged (by decide)
      have present : vlan ||| OFPVID.present = vlan := by
        rw [← tagged]
        ext i inside
        simp only [BitVec.getElem_or, BitVec.getElem_and]
        cases vlan[i] <;> rfl
      rw [keptVlan, if_neg nonzero, vlanEntry_and_not_present, present]
      rfl
  | some mask =>
    obtain ⟨rfl, rfl⟩ := representable
    rfl

private theorem widen_port (port : BitVec 32) (physical : port.toNat ≤ 0xFF00) :
    (port.setWidth 16).setWidth 32 = port := by
  apply BitVec.eq_of_toNat_eq
  simp only [BitVec.toNat_setWidth]
  omega

theorem narrow_octet (x : BitVec 8) : (x.setWidth 16).setWidth 8 = x := by
  simp

private theorem told_of_mode {mode : Mode} (representable : Representable e) (kept : Kept e)
    (ip : isIp e.field = true → mode.arp = false)
    (proto : ∀ p, transport e.field = some p → mode.protocol = some p) :
    ∃ s w, noteV1 e = some ⟨s, w⟩ ∧ s ∈ mode.order ∧
      (told mode s w).constraint = e.constraint := by
  obtain ⟨f, value, mask⟩ := e
  cases f
  case vlanVid =>
    exact ⟨.dlVlan, keptVlan value mask, rfl, mem_order (.inl (by decide)),
      congrArg Entry.constraint (vlan_of_representable representable)⟩
  case ipv4Src =>
    refine ⟨.nwSrc, (value, ones mask), rfl, mem_order (.inr (ip rfl)), ?_⟩
    simp only [told, ip rfl]
    exact constraint_maskedEntry representable.2
  case ipv4Dst =>
    refine ⟨.nwDst, (value, ones mask), rfl, mem_order (.inr (ip rfl)), ?_⟩
    simp only [told, ip rfl]
    exact constraint_maskedEntry representable.2
  case arpSpa | arpTpa => exact kept.elim
  -- The other fields have no mask.
  all_goals obtain _ | mask := mask
  case inPort.none =>
    refine ⟨.inPort, _, rfl, mem_order (.inl (by decide)), ?_⟩
    exact congrArg (fun port => Entry.constraint ⟨.inPort, port, none⟩) (widen_port value kept)
  case ethSrc.none =>
    exact ⟨.dlSrc, _, rfl, mem_order (.inl (by decide)), constraint_maskedEntry BitVec.and_allOnes⟩
  case ethDst.none =>
    exact ⟨.dlDst, _, rfl, mem_order (.inl (by decide)), constraint_maskedEntry BitVec.and_allOnes⟩
  case ethType.none => exact ⟨.dlType, _, rfl, mem_order (.inl (by decide)), rfl⟩
  case vlanPcp.none => exact ⟨.dlVlanPcp, _, rfl, mem_order (.inl (by decide)), rfl⟩
  case ipDscp.none => exact ⟨_, _, rfl, mem_order (.inr (ip rfl)), rfl⟩
  case ipProto.none =>
    refine ⟨.nwProto, value, rfl, mem_order (.inr (ip rfl)), ?_⟩
    simp only [told, ip rfl]
    rfl
  case tcpSrc.none | udpSrc.none =>
    refine ⟨.tpSrc, value, rfl, mem_order (.inr (ip rfl)), ?_⟩
    simp only [told, proto _ rfl]
    rfl
  case tcpDst.none | udpDst.none =>
    refine ⟨.tpDst, value, rfl, mem_order (.inr (ip rfl)), ?_⟩
    simp only [told, proto _ rfl]
    rfl
  case icmpv4Type.none =>
    refine ⟨.tpSrc, BitVec.setWidth 16 value, rfl, mem_order (.inr (ip rfl)), ?_⟩
    simp only [told, proto _ rfl]
    exact congrArg (fun type => Entry.constraint ⟨.icmpv4Type, type, none⟩) (narrow_octet value)
  case icmpv4Code.none =>
    refine ⟨.tpDst, BitVec.setWidth 16 value, rfl, mem_order (.inr (ip rfl)), ?_⟩
    simp only [told, proto _ rfl]
    exact congrArg (fun code => Entry.constraint ⟨.icmpv4Code, code, none⟩) (narrow_octet value)
  all_goals first | exact kept.elim | exact representable.elim

theorem told_of_kept (member : e ∈ L.entries) (kept : Kept e) :
    ∃ s w, noteV1 e = some ⟨s, w⟩ ∧ s ∈ (content L).mode.order ∧
      (told (content L).mode s w).constraint = e.constraint := by
  have representable := L.representable e member
  have ip (h : isIp e.field = true) : (content L).mode.arp = false := by
    by_contra arp
    rw [not_ip_of_arp member ((arp_iff L).mp (by simpa using arp))] at h
    simp at h
  have proto (p : BitVec 8) (h : transport e.field = some p) :
      (content L).mode.protocol = some p :=
    (content_nwProto_iff L).mpr (ipProto_of_transport member h)
  generalize (content L).mode = mode at ip proto ⊢
  exact told_of_mode representable kept ip proto

theorem field_maskedEntry (f : OxmField) (x : BitVec (8 * f.size) × BitVec (8 * f.size)) :
    (maskedEntry f x).field = f := by
  unfold maskedEntry
  split <;> rfl

private theorem place_told (mode : Mode) (v : s.Value) :
    placeOf (told mode s v).field = s := by
  cases s
  case dlSrc => exact congrArg placeOf (field_maskedEntry .ethSrc v)
  case dlDst => exact congrArg placeOf (field_maskedEntry .ethDst v)
  case nwSrc =>
    simp only [told]
    split
    · exact congrArg placeOf (field_maskedEntry .arpSpa v)
    · exact congrArg placeOf (field_maskedEntry .ipv4Src v)
  case nwDst =>
    simp only [told]
    split
    · exact congrArg placeOf (field_maskedEntry .arpTpa v)
    · exact congrArg placeOf (field_maskedEntry .ipv4Dst v)
  case dlVlan =>
    simp only [told, vlanEntry]
    split_ifs <;> rfl
  case tpSrc =>
    simp only [told, Standard.tpSrcEntry]
    split_ifs <;> rfl
  case tpDst =>
    simp only [told, Standard.tpDstEntry]
    split_ifs <;> rfl
  case nwProto =>
    simp only [told]
    split <;> rfl
  all_goals rfl

theorem exists_noted (told : e.constraint ∈ (content L).tell.map Entry.constraint) :
    ∃ w, (Places.told (content L).mode (placeOf e.field) w).constraint = e.constraint ∧
      ∃ e' ∈ L.entries, noteV1 e' = some ⟨placeOf e.field, w⟩ := by
  obtain ⟨e', member, same⟩ := List.mem_map.mp told
  obtain ⟨s, -, w, said, rfl⟩ := mem_tell.mp member
  have place : placeOf e.field = s := by
    rw [← place_told (content L).mode w]
    exact congrArg (fun k => placeOf k.field) same.symm
  subst place
  exact ⟨w, same, (content_eq_some_iff L).mp said⟩

private theorem not_told_of_arp (member : e ∈ L.entries) (arp : isArp e.field = true) :
    e.constraint ∉ (content L).tell.map Entry.constraint := by
  intro told
  obtain ⟨w, -, e', member', noted⟩ := exists_noted L told
  obtain ⟨place, other⟩ := noteV1_eq_some noted
  have shared : ∀ f ∈ v1Fields, ∀ g ∈ [OxmField.arpOp, .arpSpa, .arpTpa],
      placeOf g = placeOf f → isIp f = true := by decide
  have field : e.field ∈ [OxmField.arpOp, .arpSpa, .arpTpa] := by
    generalize e.field = f at arp
    cases f <;> first | decide | exact nomatch arp
  have ip := shared _ (mem_v1Fields (L.representable e' member') other) _ field place
  rw [not_ip_of_arp member' (ethType_of_arp member arp)] at ip
  exact absurd ip (by decide)

private theorem port_of_told {port : BitVec 32} (member : ⟨.inPort, port, none⟩ ∈ L.entries)
    (told : Entry.constraint ⟨.inPort, port, none⟩ ∈ (content L).tell.map Entry.constraint) :
    port.toNat < 65536 := by
  obtain ⟨w, same, e', member', noted⟩ := exists_noted L told
  obtain ⟨place, other⟩ := noteV1_eq_some noted
  have only : ∀ f ∈ v1Fields, Slot.inPort = placeOf f → f = .inPort := by decide
  have field := only _ (mem_v1Fields (L.representable e' member') other) place
  obtain rfl := eq_of_field_eq member' member field
  cases noted
  have read : ((port.setWidth 16).setWidth 32).toNat = port.toNat :=
    congrArg (fun k : Constraint => k.value.toNat) same
  simp only [BitVec.toNat_setWidth] at read
  omega

private theorem physical_of_small {port : BitVec 32} (small : port.toNat < 65536)
    (h : port.toNat ≤ 0xFF00 ∨ 0xFFFFFF01 ≤ port.toNat) : port.toNat ≤ 0xFF00 := by
  omega

end

/-- Read into a version 1.0 match and written from it, a list keeps its constraints exactly
when it has no field of ARP and no reserved input port. -/
theorem originalMatch_roundTrip_iff (L : V1List) :
    (∀ k, k ∈ (StandardMatch.ofOriginal
            (OriginalMatch.ofOxmRange (encodeAll L.entries))).toOXMList.map Entry.constraint ↔
        k ∈ L.entries.map Entry.constraint) ↔ ∀ e ∈ L.entries, Kept e := by
  rw [toOXMList_eq_tell_content]
  constructor
  · intro same e member
    have told := (same _).mpr (List.mem_map_of_mem member)
    have other : isArp e.field = false := by
      by_contra arp
      exact not_told_of_arp L member (by simpa using arp) told
    have representable := L.representable e member
    obtain ⟨f, value, mask⟩ := e
    cases f
    case inPort =>
      obtain _ | mask := mask
      · exact physical_of_small (port_of_told L member told) representable
      · exact representable.elim
    case arpOp | arpSpa | arpTpa => exact nomatch other
    all_goals trivial
  · intro kept k
    constructor
    · intro listed
      obtain ⟨e', member, rfl⟩ := List.mem_map.mp listed
      obtain ⟨s, -, w, said, rfl⟩ := mem_tell.mp member
      obtain ⟨e, member, noted⟩ := (content_eq_some_iff L).mp said
      obtain ⟨s', w', noted', -, same⟩ := told_of_kept L member (kept e member)
      rw [noted] at noted'
      cases noted'
      rw [same]
      exact List.mem_map_of_mem member
    · intro listed
      obtain ⟨e, member, rfl⟩ := List.mem_map.mp listed
      obtain ⟨s, w, noted, ordered, same⟩ := told_of_kept L member (kept e member)
      rw [← same]
      apply List.mem_map_of_mem
      exact mem_tell.mpr ⟨s, ordered, w, (content_eq_some_iff L).mpr ⟨e, member, noted⟩, rfl⟩

def arpRequest : V1List where
  entries := [plain .inPort 0xFFFFFFFE, plain .ethType DATALINK.arp, plain .arpOp 1]
  representable := by
    intro e member
    simp only [List.mem_cons, List.not_mem_nil, or_false] at member
    rcases member with rfl | rfl | rfl
    · exact Or.inr (by decide)
    · trivial
    · show (1 : BitVec 16).toNat ≤ 255
      decide
  distinct := by decide
  consistent := by
    intro e member group demanded
    simp only [List.mem_cons, List.not_mem_nil, or_false] at member
    rcases member with rfl | rfl | rfl
    · exact absurd demanded List.not_mem_nil
    · exact absurd demanded List.not_mem_nil
    · obtain rfl := List.mem_singleton.mp demanded
      exact ⟨_, List.mem_singleton.mpr rfl, plain .ethType DATALINK.arp, by simp,
        DATALINK.arp, none, rfl, rfl⟩

/-- The operation is dropped, and the local port becomes another one. -/
theorem arpRequest_widened :
    plain .arpOp 1 ∈ arpRequest.entries ∧
    (StandardMatch.ofOriginal
        (OriginalMatch.ofOxmRange (encodeAll arpRequest.entries))).toOXMList =
      [plain .inPort 0x0000FFFE, plain .ethType DATALINK.arp] := by
  decide +kernel

end Libofp.Match.OriginalRoundTrip
