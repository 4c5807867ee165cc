/- GID: Libofp/Match/Places
   digest: What a match says: for each of its places the value that is compared, if any. -/

import Libofp.Base.Recording
import Libofp.Match.Standard

set_option autoImplicit false

namespace Libofp.Match.Places

open Oxm.Field Oxm.FieldList Match.Standard
open Match.Original (OFPVID.none OFPVID.present OFPVID.noneV1 OFPVID.presentV1)

inductive Slot where
  | inPort
  | metadata
  | dlSrc
  | dlDst
  | dlVlan
  | dlVlanPcp
  | dlType
  | nwTos
  | nwProto
  | nwSrc
  | nwDst
  | tpSrc
  | tpDst
  | mplsLabel
  | mplsTc
  deriving DecidableEq, Repr

/-- What is kept in a place: a number, or a number and the mask it is compared under. -/
abbrev Slot.Value : Slot → Type
  | inPort | mplsLabel => BitVec 32
  | metadata => BitVec 64 × BitVec 64
  | dlSrc | dlDst => BitVec 48 × BitVec 48
  | dlVlan | dlType | tpSrc | tpDst => BitVec 16
  | dlVlanPcp | nwTos | nwProto | mplsTc => BitVec 8
  | nwSrc | nwDst => BitVec 32 × BitVec 32

abbrev Content : Type := ∀ s : Slot, Option s.Value

section

variable (m : StandardMatch)

def heeded {α : Type} (bit : BitVec 32) (value : α) : Option α :=
  if m.Heeds bit then some value else none

def underMask {w : Nat} (value mask : BitVec w) : Option (BitVec w × BitVec w) :=
  if mask = 0 then none else some (value, mask)

def view : Content
  | .inPort => heeded m Wildcards.inPort m.inPort
  | .metadata => underMask m.metadata m.metadataMask
  | .dlSrc => underMask m.dlSrc m.dlSrcMask
  | .dlDst => underMask m.dlDst m.dlDstMask
  | .dlVlan => heeded m Wildcards.dlVlan m.dlVlan
  | .dlVlanPcp => heeded m Wildcards.dlVlanPcp m.dlVlanPcp
  | .dlType => heeded m Wildcards.dlType m.dlType
  | .nwTos => heeded m Wildcards.nwTos m.nwTos
  | .nwProto => heeded m Wildcards.nwProto m.nwProto
  | .nwSrc => underMask m.nwSrc m.nwSrcMask
  | .nwDst => underMask m.nwDst m.nwDstMask
  | .tpSrc => heeded m Wildcards.tpSrc m.tpSrc
  | .tpDst => heeded m Wildcards.tpDst m.tpDst
  | .mplsLabel => heeded m Wildcards.mplsLabel m.mplsLabel
  | .mplsTc => heeded m Wildcards.mplsTc m.mplsTc

end

/-- What decides how a place is told: whether the packet is ARP, and the IP protocol. -/
structure Mode where
  arp : Bool
  protocol : Option (BitVec 8)
  deriving DecidableEq, Repr

def Content.mode (c : Content) : Mode where
  arp := c .dlType = some DATALINK.arp
  protocol := c .nwProto

def maskedEntry (f : OxmField) (x : BitVec (8 * f.size) × BitVec (8 * f.size)) : Entry :=
  if x.2 = BitVec.allOnes _ then plain f x.1 else masked f x.1 x.2

def told (mode : Mode) : (s : Slot) → s.Value → Entry
  | .inPort, port => plain .inPort port
  | .metadata, x => masked .metadata x.1 x.2
  | .dlSrc, x => maskedEntry .ethSrc x
  | .dlDst, x => maskedEntry .ethDst x
  | .dlVlan, vlan => vlanEntry vlan
  | .dlVlanPcp, pcp => plain .vlanPcp pcp
  | .dlType, type => plain .ethType type
  | .nwTos, tos => plain .ipDscp tos
  | .nwProto, proto =>
    if mode.arp then plain .arpOp (BitVec.setWidth 16 proto) else plain .ipProto proto
  | .nwSrc, x => if mode.arp then maskedEntry .arpSpa x else maskedEntry .ipv4Src x
  | .nwDst, x => if mode.arp then maskedEntry .arpTpa x else maskedEntry .ipv4Dst x
  | .tpSrc, port => tpSrcEntry mode.protocol port
  | .tpDst, port => tpDstEntry mode.protocol port
  | .mplsLabel, label => plain .mplsLabel label
  | .mplsTc, tc => plain .mplsTc tc

/-- The places in the order in which they are told. An ARP packet has no others. -/
def Mode.order (mode : Mode) : List Slot :=
  [.inPort, .metadata, .dlSrc, .dlDst, .dlVlan, .dlVlanPcp, .dlType] ++
    if mode.arp then [.nwProto, .nwSrc, .nwDst]
    else [.nwTos, .nwProto, .nwSrc, .nwDst, .tpSrc, .tpDst, .mplsLabel, .mplsTc]

def Content.tell (c : Content) : List Entry :=
  c.mode.order.filterMap fun s => (c s).map (told c.mode s)

section

variable {m : StandardMatch} (mode : Mode) {s : Slot}

theorem toList_heeded {bit : BitVec 32} {x : s.Value} (h : view m s = heeded m bit x) :
    ((view m s).map (told mode s)).toList = m.addHeeded bit (told mode s x) := by
  rw [h, heeded, StandardMatch.addHeeded]
  split <;> rfl

theorem toList_underMask {f : OxmField} {value mask : BitVec (8 * f.size)}
    (h : (view m s).map (told mode s) = (underMask value mask).map (maskedEntry f)) :
    ((view m s).map (told mode s)).toList = addUnderMask f value mask := by
  rw [h, underMask, addUnderMask]
  split
  · rfl
  · show [maskedEntry f (value, mask)] = _
    unfold maskedEntry
    split <;> rfl

theorem toList_metadata :
    ((view m .metadata).map (told mode .metadata)).toList =
      if m.metadataMask ≠ 0 then [masked .metadata m.metadata m.metadataMask] else [] := by
  simp only [view, underMask, ne_eq, ite_not]
  split <;> rfl

end

theorem mode_view (m : StandardMatch) :
    (view m).mode = ⟨decide (m.Heeds Wildcards.dlType ∧ m.dlType = DATALINK.arp), m.protocol⟩ := by
  unfold Content.mode
  simp only [view, heeded]
  congr 1
  split <;> simp [*]

theorem filterMap_cons_toList {α β : Type} (f : α → Option β) (a : α) (l : List α) :
    (a :: l).filterMap f = (f a).toList ++ l.filterMap f := by
  cases h : f a <;> simp [h]

theorem toOXMList_eq_tell (m : StandardMatch) : m.toOXMList = (view m).tell := by
  unfold StandardMatch.toOXMList Content.tell
  rw [mode_view]
  by_cases arp : m.Heeds Wildcards.dlType ∧ m.dlType = DATALINK.arp
  · rw [if_pos arp, decide_eq_true arp]
    simp only [Mode.order, if_true, List.cons_append, List.nil_append, filterMap_cons_toList,
      List.filterMap_nil, List.append_nil, List.append_assoc, StandardMatch.convertDatalinkARP]
    rw [toList_heeded _ (s := .inPort) rfl, toList_metadata,
      toList_underMask _ (s := .dlSrc) (f := .ethSrc) rfl,
      toList_underMask _ (s := .dlDst) (f := .ethDst) rfl,
      toList_heeded _ (s := .dlVlan) rfl, toList_heeded _ (s := .dlVlanPcp) rfl,
      toList_heeded _ (s := .dlType) rfl, toList_heeded _ (s := .nwProto) rfl,
      toList_underMask _ (s := .nwSrc) (f := .arpSpa) rfl,
      toList_underMask _ (s := .nwDst) (f := .arpTpa) rfl]
    rfl
  · rw [if_neg arp, decide_eq_false arp]
    simp only [Mode.order, Bool.false_eq_true, if_false, List.cons_append, List.nil_append,
      filterMap_cons_toList, List.filterMap_nil, List.append_nil, List.append_assoc]
    rw [toList_heeded _ (s := .inPort) rfl, toList_metadata,
      toList_underMask _ (s := .dlSrc) (f := .ethSrc) rfl,
      toList_underMask _ (s := .dlDst) (f := .ethDst) rfl,
      toList_heeded _ (s := .dlVlan) rfl, toList_heeded _ (s := .dlVlanPcp) rfl,
      toList_heeded _ (s := .dlType) rfl, toList_heeded _ (s := .nwTos) rfl,
      toList_heeded _ (s := .nwProto) rfl,
      toList_underMask _ (s := .nwSrc) (f := .ipv4Src) rfl,
      toList_underMask _ (s := .nwDst) (f := .ipv4Dst) rfl,
      toList_heeded _ (s := .tpSrc) rfl, toList_heeded _ (s := .tpDst) rfl,
      toList_heeded _ (s := .mplsLabel) rfl, toList_heeded _ (s := .mplsTc) rfl]
    rfl

end Libofp.Match.Places
