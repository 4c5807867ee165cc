/- GID: Libofp/Match/StandardRoundTrip
   digest: Version 1.1 matches read from an OXM list, and which of them come back from it. -/

import Libofp.Match.Places

set_option autoImplicit false

namespace Libofp.Match.StandardRoundTrip

open Base.Recording Oxm.Field Oxm.FieldList Match.Standard Places
open Match.Original (OFPVID.none OFPVID.present OFPVID.noneV1 OFPVID.presentV1)

def keptVlan (vlan : BitVec 16) : Option (BitVec 16) → BitVec 16
  | none => if vlan = OFPVID.none then OFPVID.noneV1 else vlan &&& ~~~OFPVID.present
  | some mask =>
    if vlan = OFPVID.present ∧ mask = OFPVID.present then OFPVID.presentV1
    else vlan &&& ~~~OFPVID.present

def ones {w : Nat} (mask : Option (BitVec w)) : BitVec w := mask.getD (BitVec.allOnes w)

def note : Entry → Option (Sigma Slot.Value)
  | ⟨.inPort, port, none⟩ => some ⟨.inPort, port⟩
  | ⟨.metadata, value, mask⟩ => some ⟨.metadata, (value, ones mask)⟩
  | ⟨.ethSrc, value, mask⟩ => some ⟨.dlSrc, (value, ones mask)⟩
  | ⟨.ethDst, value, mask⟩ => some ⟨.dlDst, (value, ones mask)⟩
  | ⟨.vlanVid, vlan, mask⟩ => some ⟨.dlVlan, keptVlan vlan mask⟩
  | ⟨.vlanPcp, pcp, none⟩ => some ⟨.dlVlanPcp, pcp⟩
  | ⟨.ethType, type, none⟩ => some ⟨.dlType, type⟩
  | ⟨.ipDscp, tos, none⟩ => some ⟨.nwTos, tos⟩
  | ⟨.ipProto, proto, none⟩ => some ⟨.nwProto, proto⟩
  | ⟨.arpOp, op, none⟩ => some ⟨.nwProto, BitVec.setWidth 8 op⟩
  | ⟨.ipv4Src, value, mask⟩ => some ⟨.nwSrc, (value, ones mask)⟩
  | ⟨.arpSpa, value, mask⟩ => some ⟨.nwSrc, (value, ones mask)⟩
  | ⟨.ipv4Dst, value, mask⟩ => some ⟨.nwDst, (value, ones mask)⟩
  | ⟨.arpTpa, value, mask⟩ => some ⟨.nwDst, (value, ones mask)⟩
  | ⟨.tcpSrc, port, none⟩ => some ⟨.tpSrc, port⟩
  | ⟨.udpSrc, port, none⟩ => some ⟨.tpSrc, port⟩
  | ⟨.icmpv4Type, type, none⟩ => some ⟨.tpSrc, BitVec.setWidth 16 type⟩
  | ⟨.tcpDst, port, none⟩ => some ⟨.tpDst, port⟩
  | ⟨.udpDst, port, none⟩ => some ⟨.tpDst, port⟩
  | ⟨.icmpv4Code, code, none⟩ => some ⟨.tpDst, BitVec.setWidth 16 code⟩
  | ⟨.mplsLabel, label, none⟩ => some ⟨.mplsLabel, label⟩
  | ⟨.mplsTc, tc, none⟩ => some ⟨.mplsTc, tc⟩
  | _ => none

/-- A value that is compared: one without a mask, or with some bit in its mask. -/
def Solid : (s : Slot) → s.Value → Prop
  | .metadata, x => x.2 ≠ 0
  | .dlSrc, x | .dlDst, x => x.2 ≠ 0
  | .nwSrc, x | .nwDst, x => x.2 ≠ 0
  | _, _ => True

def put (m : StandardMatch) : (s : Slot) → s.Value → StandardMatch
  | .inPort, port => { m.heed Wildcards.inPort with inPort := port }
  | .metadata, x => { m with metadata := x.1, metadataMask := x.2 }
  | .dlSrc, x => { m with dlSrc := x.1, dlSrcMask := x.2 }
  | .dlDst, x => { m with dlDst := x.1, dlDstMask := x.2 }
  | .dlVlan, vlan => { m.heed Wildcards.dlVlan with dlVlan := vlan }
  | .dlVlanPcp, pcp => { m.heed Wildcards.dlVlanPcp with dlVlanPcp := pcp }
  | .dlType, type => { m.heed Wildcards.dlType with dlType := type }
  | .nwTos, tos => { m.heed Wildcards.nwTos with nwTos := tos }
  | .nwProto, proto => { m.heed Wildcards.nwProto with nwProto := proto }
  | .nwSrc, x => { m with nwSrc := x.1, nwSrcMask := x.2 }
  | .nwDst, x => { m with nwDst := x.1, nwDstMask := x.2 }
  | .tpSrc, port => { m.heed Wildcards.tpSrc with tpSrc := port }
  | .tpDst, port => { m.heed Wildcards.tpDst with tpDst := port }
  | .mplsLabel, label => { m.heed Wildcards.mplsLabel with mplsLabel := label }
  | .mplsTc, tc => { m.heed Wildcards.mplsTc with mplsTc := tc }

def Compares (e : Entry) : Prop := e.mask ≠ some 0

section

variable (m : StandardMatch)

variable {bit : BitVec 32}

private theorem heeded_eq_some {α : Type} {m : StandardMatch} (x : α)
    (h : m.Heeds bit) : heeded m bit x = some x := if_pos h

private theorem heeds_heed_self (bit : BitVec 32) : (m.heed bit).Heeds bit := by
  simp [StandardMatch.Heeds, StandardMatch.heed, BitVec.and_assoc]

private theorem heeds_heed {other : BitVec 32} (disjoint : ~~~bit &&& other = other) :
    (m.heed bit).Heeds other ↔ m.Heeds other := by
  simp only [StandardMatch.Heeds, StandardMatch.heed, BitVec.and_assoc, disjoint]

private theorem heeded_congr {α : Type} {m m' : StandardMatch} (x : α)
    (h : m'.Heeds bit ↔ m.Heeds bit) : heeded m' bit x = heeded m bit x := by
  unfold heeded
  simp only [h]

private theorem view_put_self (s : Slot) (v : s.Value) (solid : Solid s v) :
    view (put m s v) s = some v := by
  cases s <;> first
    | exact heeded_eq_some _ (heeds_heed_self m _)
    | exact if_neg solid

private theorem view_put_of_ne {s t : Slot} (other : t ≠ s) (v : s.Value) :
    view (put m s v) t = view m t := by
  cases s <;> cases t <;> first
    | exact absurd rfl other
    | rfl
    | exact heeded_congr _ (heeds_heed m (by decide))

private theorem view_put (s : Slot) (v : s.Value) (solid : Solid s v) :
    view (put m s v) = record (view m) (some ⟨s, v⟩) := by
  funext t
  by_cases same : t = s
  · subst same
    rw [view_put_self m t v solid, record, Function.update_self]
  · rw [view_put_of_ne m same, record, Function.update_of_ne same]

private theorem add_plain (f : OxmField) (value : BitVec (8 * f.size)) :
    m.add (Entry.item ⟨f, value, none⟩) = m.addValue f (Entry.item ⟨f, value, none⟩) := by
  rw [StandardMatch.add, show (Entry.item ⟨f, value, none⟩).type = f.type from rfl,
    OxmField.ofType_type]

private theorem add_masked (f : OxmField) (value mask : BitVec (8 * f.size)) :
    m.add (Entry.item ⟨f, value, some mask⟩) =
      m.addMasked f (Entry.item ⟨f, value, some mask⟩) := by
  rw [StandardMatch.add,
    show (Entry.item ⟨f, value, some mask⟩).type = f.typeWithMask from rfl,
    OxmField.ofType_typeWithMask, OxmField.ofTypeWithMask_typeWithMask]

private theorem add_item (e : Entry) : m.add e.item =
    match note e with
    | none => m
    | some x => put m x.1 x.2 := by
  obtain ⟨f, value, mask⟩ := e
  cases mask with
  | none =>
    rw [add_plain]
    have read := value_item value none
    generalize Entry.item ⟨f, value, none⟩ = item at read ⊢
    subst read
    cases f <;> rfl
  | some mask =>
    rw [add_masked]
    have read := value_item value (some mask)
    have readMask := mask_item value mask
    generalize Entry.item ⟨f, value, some mask⟩ = item at read readMask ⊢
    subst read readMask
    cases f <;> rfl

private theorem solid_of_note {e : Entry} (solid : Compares e) {x : Sigma Slot.Value}
    (noted : note e = some x) : Solid x.1 x.2 := by
  obtain ⟨f, value, mask⟩ := e
  have compared : ones mask ≠ 0 := by
    cases mask with
    | none => cases f <;> decide
    | some mask => exact fun zero => solid (congrArg some zero)
  cases f <;> cases mask <;> first
    | (obtain rfl := Option.some.inj noted
       first | exact compared | trivial)
    | exact nomatch noted

private theorem view_add (e : Entry) (solid : Compares e) :
    view (m.add e.item) = record (view m) (note e) := by
  rw [add_item]
  cases noted : note e with
  | none => rfl
  | some x => exact view_put m x.1 x.2 (solid_of_note solid noted)

end

section

def readVlan (vlan : BitVec 16) : BitVec 16 :=
  if vlan = OFPVID.noneV1 ∨ vlan = OFPVID.presentV1 then vlan else vlan &&& ~~~OFPVID.present

def readPort (protocol : Option (BitVec 8)) (port : BitVec 16) : BitVec 16 :=
  if protocol = some PROTOCOL.icmp then (port.setWidth 8).setWidth 16 else port

def readBack (mode : Mode) : (s : Slot) → s.Value → s.Value
  | .metadata, x => (x.1 &&& x.2, x.2)
  | .dlSrc, x => (x.1 &&& x.2, x.2)
  | .dlDst, x => (x.1 &&& x.2, x.2)
  | .nwSrc, x => (x.1 &&& x.2, x.2)
  | .nwDst, x => (x.1 &&& x.2, x.2)
  | .dlVlan, vlan => readVlan vlan
  | .tpSrc, port => readPort mode.protocol port
  | .tpDst, port => readPort mode.protocol port
  | _, v => v

def Lost (mode : Mode) (s : Slot) : Prop :=
  mode.protocol = some PROTOCOL.sctp ∧ (s = .tpSrc ∨ s = .tpDst)

variable (mode : Mode)

variable {f : OxmField} {s : Slot}

theorem note_maskedEntry {g : BitVec (8 * f.size) × BitVec (8 * f.size) →
      Sigma Slot.Value} (place : ∀ value mask, note ⟨f, value, mask⟩ = some (g (value, ones mask)))
    (x : BitVec (8 * f.size) × BitVec (8 * f.size)) :
    note (maskedEntry f x) = some (g (x.1 &&& x.2, x.2)) := by
  unfold maskedEntry
  split
  · rename_i all
    rw [plain, place, all, BitVec.and_allOnes]
    rfl
  · rw [masked, place]
    rfl

private theorem or_and_not {w : Nat} (x y : BitVec w) : (x ||| y) &&& ~~~y = x &&& ~~~y := by
  ext i inside
  simp only [BitVec.getElem_and, BitVec.getElem_or, BitVec.getElem_not]
  cases x[i] <;> cases y[i] <;> rfl

private theorem note_vlanEntry (vlan : BitVec 16) :
    note (vlanEntry vlan) = some ⟨.dlVlan, readVlan vlan⟩ := by
  unfold vlanEntry readVlan
  by_cases absent : vlan = OFPVID.noneV1
  · rw [if_pos absent, if_pos (Or.inl absent), absent]
    rfl
  · rw [if_neg absent]
    by_cases any : vlan = OFPVID.presentV1
    · rw [if_pos any, if_pos (Or.inr any), any]
      rfl
    · have tagged : vlan ||| OFPVID.present ≠ OFPVID.none := by
        intro zero
        exact absurd (BitVec.or_eq_zero_iff.mp zero).2 (by decide)
      rw [if_neg any, if_neg (not_or.mpr ⟨absent, any⟩), ← or_and_not]
      exact congrArg (fun kept => some (Sigma.mk Slot.dlVlan kept)) (if_neg tagged)

private theorem note_tpSrcEntry {protocol : Option (BitVec 8)}
    (read : protocol ≠ some PROTOCOL.sctp) (port : BitVec 16) :
    note (tpSrcEntry protocol port) = some ⟨.tpSrc, readPort protocol port⟩ := by
  unfold tpSrcEntry readPort
  by_cases udp : protocol = some PROTOCOL.udp
  · rw [if_pos udp, if_neg (by rw [udp]; decide)]
    rfl
  · rw [if_neg udp, if_neg read]
    split <;> rfl

private theorem note_tpDstEntry {protocol : Option (BitVec 8)}
    (read : protocol ≠ some PROTOCOL.sctp) (port : BitVec 16) :
    note (tpDstEntry protocol port) = some ⟨.tpDst, readPort protocol port⟩ := by
  unfold tpDstEntry readPort
  by_cases udp : protocol = some PROTOCOL.udp
  · rw [if_pos udp, if_neg (by rw [udp]; decide)]
    rfl
  · rw [if_neg udp, if_neg read]
    split <;> rfl

theorem note_told (read : ¬ Lost mode s) (v : s.Value) :
    note (told mode s v) = some ⟨s, readBack mode s v⟩ := by
  cases s
  case dlSrc => exact note_maskedEntry (f := .ethSrc) (g := fun x => ⟨.dlSrc, x⟩) (fun _ _ => rfl) v
  case dlDst => exact note_maskedEntry (f := .ethDst) (g := fun x => ⟨.dlDst, x⟩) (fun _ _ => rfl) v
  case nwSrc =>
    simp only [told]
    split
    · exact note_maskedEntry (f := .arpSpa) (g := fun x => ⟨.nwSrc, x⟩) (fun _ _ => rfl) v
    · exact note_maskedEntry (f := .ipv4Src) (g := fun x => ⟨.nwSrc, x⟩) (fun _ _ => rfl) v
  case nwDst =>
    simp only [told]
    split
    · exact note_maskedEntry (f := .arpTpa) (g := fun x => ⟨.nwDst, x⟩) (fun _ _ => rfl) v
    · exact note_maskedEntry (f := .ipv4Dst) (g := fun x => ⟨.nwDst, x⟩) (fun _ _ => rfl) v
  case dlVlan => exact note_vlanEntry v
  case tpSrc => exact note_tpSrcEntry (fun sctp => read ⟨sctp, .inl rfl⟩) v
  case tpDst => exact note_tpDstEntry (fun sctp => read ⟨sctp, .inr rfl⟩) v
  case nwProto =>
    simp only [told]
    split
    · have narrow : BitVec.setWidth 8 (BitVec.setWidth 16 v) = v := by simp
      exact congrArg (fun op => some (Sigma.mk Slot.nwProto op)) narrow
    · rfl
  all_goals rfl

private theorem and_not_or {w : Nat} (x y : BitVec w) : x &&& ~~~y ||| y = x ||| y := by
  ext i inside
  simp only [BitVec.getElem_and, BitVec.getElem_or, BitVec.getElem_not]
  cases x[i] <;> cases y[i] <;> rfl

theorem vlanEntry_and_not_present (vlan : BitVec 16) :
    vlanEntry (vlan &&& ~~~OFPVID.present) = plain .vlanVid (vlan ||| OFPVID.present) := by
  have other : ∀ special : BitVec 16, special &&& OFPVID.present ≠ 0 →
      vlan &&& ~~~OFPVID.present ≠ special := by
    rintro special on rfl
    apply on
    rw [BitVec.and_assoc, show ~~~OFPVID.present &&& OFPVID.present = 0#16 by decide,
      BitVec.and_zero]
    rfl
  unfold vlanEntry
  rw [if_neg (other _ (by decide)), if_neg (other _ (by decide)), and_not_or]

private theorem vlanEntry_readVlan (vlan : BitVec 16) :
    vlanEntry (readVlan vlan) = vlanEntry vlan := by
  unfold readVlan
  split
  · rfl
  · rename_i specific
    obtain ⟨absent, any⟩ := not_or.mp specific
    rw [vlanEntry_and_not_present, vlanEntry, if_neg absent, if_neg any]

theorem maskedEntry_and (f : OxmField) (x : BitVec (8 * f.size) × BitVec (8 * f.size)) :
    maskedEntry f (x.1 &&& x.2, x.2) = maskedEntry f x := by
  unfold maskedEntry
  by_cases all : x.2 = BitVec.allOnes _
  · rw [if_pos all, if_pos all, all, BitVec.and_allOnes]
  · rw [if_neg all, if_neg all, masked, masked, BitVec.and_assoc, BitVec.and_self]

private theorem tpSrcEntry_readPort (protocol : Option (BitVec 8)) (port : BitVec 16) :
    tpSrcEntry protocol (readPort protocol port) = tpSrcEntry protocol port := by
  unfold readPort
  split
  · rename_i icmp
    have other : PROTOCOL.icmp ≠ PROTOCOL.udp := by decide
    simp [tpSrcEntry, icmp, other]
  · rfl

private theorem tpDstEntry_readPort (protocol : Option (BitVec 8)) (port : BitVec 16) :
    tpDstEntry protocol (readPort protocol port) = tpDstEntry protocol port := by
  unfold readPort
  split
  · rename_i icmp
    have other : PROTOCOL.icmp ≠ PROTOCOL.udp := by decide
    simp [tpDstEntry, icmp, other]
  · rfl

private theorem told_readBack (v : s.Value) :
    told mode s (readBack mode s v) = told mode s v := by
  cases s
  case metadata =>
    have twice : v.1 &&& v.2 &&& v.2 = v.1 &&& v.2 := by rw [BitVec.and_assoc, BitVec.and_self]
    exact congrArg (fun value => Entry.mk .metadata value (some v.2)) twice
  case dlSrc => exact maskedEntry_and .ethSrc v
  case dlDst => exact maskedEntry_and .ethDst v
  case nwSrc =>
    simp only [told]
    split
    · exact maskedEntry_and .arpSpa v
    · exact maskedEntry_and .ipv4Src v
  case nwDst =>
    simp only [told]
    split
    · exact maskedEntry_and .arpTpa v
    · exact maskedEntry_and .ipv4Dst v
  case dlVlan => exact vlanEntry_readVlan v
  case tpSrc => exact tpSrcEntry_readPort mode.protocol v
  case tpDst => exact tpDstEntry_readPort mode.protocol v
  all_goals rfl

theorem note_of_lost (lost : Lost mode s) (v : s.Value) :
    note (told mode s v) = none := by
  obtain ⟨sctp, rfl | rfl⟩ := lost
  · simp only [told, tpSrcEntry, sctp]
    rfl
  · simp only [told, tpDstEntry, sctp]
    rfl

private theorem slot_of_note_told {v : s.Value} {x : Sigma Slot.Value}
    (noted : note (told mode s v) = some x) : x.1 = s := by
  by_cases lost : Lost mode s
  · rw [note_of_lost mode lost] at noted
    simp at noted
  · rw [note_told mode lost] at noted
    rw [← Option.some.inj noted]

theorem compares_plain (f : OxmField) (value : BitVec (8 * f.size)) : Compares (plain f value) :=
  nofun

theorem compares_masked (value : BitVec (8 * f.size)) {mask : BitVec (8 * f.size)}
    (solid : mask ≠ 0) : Compares (masked f value mask) :=
  fun zero => solid (Option.some.inj zero)

theorem compares_maskedEntry {x : BitVec (8 * f.size) × BitVec (8 * f.size)}
    (solid : x.2 ≠ 0) : Compares (maskedEntry f x) := by
  unfold maskedEntry
  split
  · exact compares_plain _ _
  · exact compares_masked _ solid

private theorem compares_told {v : s.Value} (solid : Solid s v) :
    Compares (told mode s v) := by
  cases s
  case metadata => exact compares_masked _ solid
  case dlSrc => exact compares_maskedEntry solid
  case dlDst => exact compares_maskedEntry solid
  case nwSrc =>
    simp only [told]
    split <;> exact compares_maskedEntry solid
  case nwDst =>
    simp only [told]
    split <;> exact compares_maskedEntry solid
  case dlVlan =>
    simp only [told, vlanEntry]
    split_ifs
    · exact compares_plain _ _
    · exact compares_masked _ (show OFPVID.present ≠ 0#16 by decide)
    · exact compares_plain _ _
  case tpSrc =>
    simp only [told, tpSrcEntry]
    split_ifs <;> exact compares_plain _ _
  case tpDst =>
    simp only [told, tpDstEntry]
    split_ifs <;> exact compares_plain _ _
  case nwProto =>
    simp only [told]
    split <;> exact compares_plain _ _
  all_goals exact compares_plain _ _

end

section

variable (m : StandardMatch)

private theorem nodup_order (mode : Mode) : mode.order.Nodup := by
  obtain ⟨arp, protocol⟩ := mode
  cases arp
  · show List.Nodup (_ ++ [_, _, _, _, _, _, _, _])
    decide
  · show List.Nodup (_ ++ [_, _, _])
    decide

private theorem solid_of_underMask {w : Nat} {value mask : BitVec w} {x : BitVec w × BitVec w}
    (said : underMask value mask = some x) : x.2 ≠ 0 := by
  unfold underMask at said
  split at said
  · simp at said
  · rename_i compared
    rwa [← Option.some.inj said]

variable {s : Slot} {e : Entry}

private theorem solid_of_view {v : s.Value} (said : view m s = some v) : Solid s v := by
  cases s <;> first | trivial | exact solid_of_underMask said

theorem mem_tell {c : Content} :
    e ∈ c.tell ↔ ∃ s ∈ c.mode.order, ∃ v, c s = some v ∧ told c.mode s v = e := by
  simp [Content.tell]

private theorem compares_of_mem_tell (member : e ∈ (view m).tell) : Compares e := by
  obtain ⟨s, -, v, said, rfl⟩ := mem_tell.mp member
  exact compares_told _ (solid_of_view m said)

private theorem nodupKeys_tell (c : Content) : (c.tell.filterMap note).NodupKeys := by
  rw [Content.tell, List.filterMap_filterMap]
  apply nodupKeys_filterMap (nodup_order c.mode)
  intro s x noted
  obtain ⟨e, said, noted⟩ := Option.bind_eq_some_iff.mp noted
  obtain ⟨v, -, rfl⟩ := Option.map_eq_some_iff.mp said
  exact slot_of_note_told c.mode noted

private theorem view_blank (s : Slot) : view {} s = none := by
  cases s <;> rfl

theorem view_ofOxmRange {w : s.Value} :
    view (StandardMatch.ofOxmRange (encodeAll m.toOXMList)) s = some w ↔
      s ∈ (view m).mode.order ∧ ¬ Lost (view m).mode s ∧
        ∃ v, view m s = some v ∧ readBack (view m).mode s v = w := by
  rw [StandardMatch.ofOxmRange, items_encodeAll, List.foldl_map, toOXMList_eq_tell,
    view_foldl_eq_some_iff (fun m' e member => view_add m' e (compares_of_mem_tell m member))
      (nodupKeys_tell _) view_blank]
  constructor
  · rintro ⟨e, member, noted⟩
    obtain ⟨t, listed, v, said, rfl⟩ := mem_tell.mp member
    by_cases lost : Lost (view m).mode t
    · rw [note_of_lost _ lost] at noted
      simp at noted
    · rw [note_told _ lost] at noted
      cases Option.some.inj noted
      exact ⟨listed, lost, v, said, rfl⟩
  · rintro ⟨listed, read, v, said, rfl⟩
    exact ⟨_, mem_tell.mpr ⟨s, listed, v, said, rfl⟩, note_told _ read v⟩

theorem view_kept (listed : s ∈ (view m).mode.order) (read : ¬ Lost (view m).mode s) :
    view (StandardMatch.ofOxmRange (encodeAll m.toOXMList)) s =
      (view m s).map (readBack (view m).mode s) := by
  ext w
  rw [view_ofOxmRange, Option.map_eq_some_iff]
  exact ⟨fun h => h.2.2, fun h => ⟨listed, read, h⟩⟩

theorem mode_ofOxmRange :
    (view (StandardMatch.ofOxmRange (encodeAll m.toOXMList))).mode = (view m).mode := by
  have listed (s : Slot) (early : s = .dlType ∨ s = .nwProto) : s ∈ (view m).mode.order := by
    unfold Mode.order
    rcases early with rfl | rfl <;> split <;> decide
  have type : view (StandardMatch.ofOxmRange (encodeAll m.toOXMList)) .dlType = view m .dlType := by
    rw [view_kept m (listed .dlType (.inl rfl)) (by simp [Lost])]
    cases view m .dlType <;> rfl
  have proto :
      view (StandardMatch.ofOxmRange (encodeAll m.toOXMList)) .nwProto = view m .nwProto := by
    rw [view_kept m (listed .nwProto (.inr rfl)) (by simp [Lost])]
    cases view m .nwProto <;> rfl
  rw [Content.mode, type, proto, Content.mode]

def TellsSctp : Prop :=
  m.Heeds Wildcards.nwProto ∧ m.nwProto = PROTOCOL.sctp ∧
    ¬ (m.Heeds Wildcards.dlType ∧ m.dlType = DATALINK.arp) ∧
    (m.Heeds Wildcards.tpSrc ∨ m.Heeds Wildcards.tpDst)

theorem tellsSctp_iff : TellsSctp m ↔
    ∃ s ∈ (view m).mode.order, Lost (view m).mode s ∧ (view m s).isSome := by
  have protocol : m.protocol = some PROTOCOL.sctp ↔
      m.Heeds Wildcards.nwProto ∧ m.nwProto = PROTOCOL.sctp := by
    simp [StandardMatch.protocol]
  rw [mode_view]
  unfold Lost TellsSctp
  rw [protocol]
  constructor
  · rintro ⟨heeds, sctp, other, src | dst⟩
    · refine ⟨.tpSrc, ?_, ⟨⟨heeds, sctp⟩, .inl rfl⟩, ?_⟩
      · simp [Mode.order, other]
      · simp [view, heeded, src]
    · refine ⟨.tpDst, ?_, ⟨⟨heeds, sctp⟩, .inr rfl⟩, ?_⟩
      · simp [Mode.order, other]
      · simp [view, heeded, dst]
  · rintro ⟨s, listed, ⟨⟨heeds, sctp⟩, place⟩, said⟩
    refine ⟨heeds, sctp, ?_, ?_⟩
    · intro arp
      rw [decide_eq_true arp] at listed
      rcases place with rfl | rfl <;> exact absurd listed (by simp [Mode.order])
    · rcases place with rfl | rfl
      · left
        by_contra ignored
        simp [view, heeded, ignored] at said
      · right
        by_contra ignored
        simp [view, heeded, ignored] at said

private theorem toOXMList_ofOxmRange (plain : ¬ TellsSctp m) :
    (StandardMatch.ofOxmRange (encodeAll m.toOXMList)).toOXMList = m.toOXMList := by
  rw [toOXMList_eq_tell, Content.tell, mode_ofOxmRange]
  refine Eq.trans (List.filterMap_congr ?_) (toOXMList_eq_tell m).symm
  intro s listed
  by_cases lost : Lost (view m).mode s
  · have said : view m s = none := by
      by_contra said
      exact plain ((tellsSctp_iff m).mpr ⟨s, listed, lost, Option.isSome_iff_ne_none.mpr said⟩)
    have read : view (StandardMatch.ofOxmRange (encodeAll m.toOXMList)) s = none := by
      rw [Option.eq_none_iff_forall_ne_some]
      intro w noted
      exact ((view_ofOxmRange m).mp noted).2.1 lost
    rw [said, read]
  · rw [view_kept m listed lost, Option.map_map]
    congr 1
    funext v
    exact told_readBack _ v

private theorem note_of_sctp (sctp : e.field = .sctpSrc ∨ e.field = .sctpDst) :
    note e = none := by
  obtain ⟨f, value, mask⟩ := e
  obtain rfl | rfl := sctp <;> rfl

private theorem field_of_lost {mode : Mode} (lost : Lost mode s) (v : s.Value) :
    (told mode s v).field = .sctpSrc ∨ (told mode s v).field = .sctpDst := by
  obtain ⟨sctp, rfl | rfl⟩ := lost
  · left
    simp only [told, tpSrcEntry, sctp]
    rfl
  · right
    simp only [told, tpDstEntry, sctp]
    rfl

private theorem note_of_mem
    (member : e ∈ (StandardMatch.ofOxmRange (encodeAll m.toOXMList)).toOXMList) :
    note e ≠ none := by
  rw [toOXMList_eq_tell, mem_tell, mode_ofOxmRange] at member
  obtain ⟨s, -, w, said, rfl⟩ := member
  rw [note_told _ ((view_ofOxmRange m).mp said).2.1]
  simp

end

/-- A match that is written as an OXM list and read from it expresses the same constraints
exactly when no port of SCTP is among them. -/
theorem standardMatch_roundTrip_iff (m : StandardMatch) :
    (∀ k, k ∈ (StandardMatch.ofOxmRange (encodeAll m.toOXMList)).toOXMList.map Entry.constraint ↔
        k ∈ m.toOXMList.map Entry.constraint) ↔ ¬ TellsSctp m := by
  constructor
  · intro same sctp
    obtain ⟨s, listed, lost, said⟩ := (tellsSctp_iff m).mp sctp
    obtain ⟨v, said⟩ := Option.isSome_iff_exists.mp said
    have member : told (view m).mode s v ∈ m.toOXMList := by
      rw [toOXMList_eq_tell]
      exact mem_tell.mpr ⟨s, listed, v, said, rfl⟩
    obtain ⟨e, again, equal⟩ := List.mem_map.mp ((same _).mpr (List.mem_map_of_mem member))
    apply note_of_mem m again
    have field : e.field = (told (view m).mode s v).field := congrArg Constraint.field equal
    apply note_of_sctp
    rw [field]
    exact field_of_lost lost v
  · intro plain k
    rw [toOXMList_ofOxmRange m plain]

/-- A match on the source port 80 of SCTP. -/
def sctpPort : StandardMatch :=
  { wildcards := Wildcards.all &&& ~~~Wildcards.nwProto &&& ~~~Wildcards.tpSrc
    nwProto := PROTOCOL.sctp
    tpSrc := 80 }

/-- The port is written but not read. -/
theorem sctp_port_lost :
    plain .sctpSrc 80 ∈ sctpPort.toOXMList ∧
      (StandardMatch.ofOxmRange (encodeAll sctpPort.toOXMList)).toOXMList =
        [plain .ipProto PROTOCOL.sctp] := by
  decide +kernel

end Libofp.Match.StandardRoundTrip
