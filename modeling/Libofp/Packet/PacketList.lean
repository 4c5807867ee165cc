/- GID: Libofp/Packet/PacketList
   digest: What the steps of the packet decoder do to the list of fields: the items that they
     gain, and the fields that they leave alone. -/

import Libofp.Packet.Decoder

set_option autoImplicit false

namespace Libofp.Packet.PacketList

open Octets.ByteRange Octets.ByteList Octets.BigEndian Oxm.Range Oxm.FieldTable Decoder

section

variable {s : MatchPacket} {id : InternalId} {value : Bytes} {item : Item}

@[simp] theorem mem_addUnchecked :
    item ∈ (s.addUnchecked id value).list ↔ item ∈ s.list ∨ item = fieldItem id value := by
  simp [MatchPacket.addUnchecked]

@[simp] theorem mem_addOrderedUnchecked :
    item ∈ (s.addOrderedUnchecked id value).list ↔ item ∈ s.list ∨ item = fieldItem id value := by
  have split : item ∈ s.list ↔ item ∈ s.list.takeWhile (·.type ≤ id.type) ∨
      item ∈ s.list.dropWhile (·.type ≤ id.type) := by
    rw [← List.mem_append, List.takeWhile_append_dropWhile]
  rw [MatchPacket.addOrderedUnchecked, split]
  simp only [List.mem_append, List.mem_cons]
  tauto

@[simp] theorem mem_addNonzero {number : Nat} :
    item ∈ (s.addNonzero id number).list ↔
      item ∈ s.list ∨ number ≠ 0 ∧ item = fieldItem id (bigBytes id.size number) := by
  unfold MatchPacket.addNonzero
  split
  · rename_i nonzero
    simp [nonzero]
  · rename_i zero
    simp [zero]

@[simp] theorem list_advance (n : Nat) : (s.advance n).list = s.list := rfl

end

section

def Gains (new : List Item) (step : MatchPacket → MatchPacket) : Prop :=
  ∀ s item, item ∈ s.list ∨ item ∈ new → item ∈ (step s).list

variable {new new' : List Item} {step step' : MatchPacket → MatchPacket}

theorem Gains.advance (gains : Gains new step) (n : Nat) :
    Gains new fun s => (step s).advance n := gains

theorem Gains.comp (first : Gains new step) (second : Gains new' step') :
    Gains (new ++ new') fun s => step' (step s) := by
  intro s item there
  apply second
  rcases there with before | member
  · exact .inl (first s item (.inl before))
  · rcases List.mem_append.mp member with early | late
    · exact .inl (first s item (.inr early))
    · exact .inr late

end

section

variable {s : MatchPacket} {item : Item}

theorem mem_decodeLLOption (pkt : Bytes) (option : Nat) (id : InternalId)
    (member : item ∈ s.list) : item ∈ (decodeLLOption pkt option id s).list := by
  rw [decodeLLOption]
  split
  · exact mem_addUnchecked.mpr (.inl member)
  · exact member

theorem mem_decodeICMPv6ND (pkt : Bytes) (type : Nat) (member : item ∈ s.list) :
    item ∈ (decodeICMPv6ND pkt type s).list := by
  rw [decodeICMPv6ND]
  split
  · exact member
  · dsimp only
    generalize first : (if type = ICMPV6_TYPE_NEIGHBOR_ADVERTISE then
      s.addUnchecked .xIpv6NdRes (window pkt 0 4) else s) = s₁
    have reserved : item ∈ s₁.list := by
      rw [← first]
      split
      · exact mem_addUnchecked.mpr (.inl member)
      · exact member
    have target : item ∈ (s₁ |>.addUnchecked .ipv6NdTarget (window pkt 4 16)
        |>.advance 20).list := mem_addUnchecked.mpr (.inl reserved)
    split
    · exact target
    · split
      · exact mem_decodeLLOption _ _ _ target
      · split
        · exact mem_decodeLLOption _ _ _ target
        · exact target

theorem mem_reportFlags (flags : BitVec 32) (member : item ∈ s.list) :
    item ∈ (reportFlags flags s).list := by
  rw [reportFlags]
  generalize (if flags &&& OFPIEH_DEST_ROUTER ≠ 0 then flags &&& 0x0ffff ||| OFPIEH_DEST
    else flags) = word
  split
  · exact mem_addUnchecked.mpr (.inl member)
  · exact member

end

section

variable {s s' s'' : MatchPacket} {id other : InternalId} {value : Bytes}

def itemsOf (id : InternalId) (list : List Item) : List Item := list.filter (·.type = id.type)

/-- The step from `s` to `s'` leaves the items of the field alone. -/
def Leaves (id : InternalId) (s s' : MatchPacket) : Prop := itemsOf id s'.list = itemsOf id s.list

namespace Leaves

theorem refl (id : InternalId) (s : MatchPacket) : Leaves id s s := rfl

theorem trans (first : Leaves id s s') (second : Leaves id s' s'') : Leaves id s s'' :=
  Eq.trans second first

section

variable (leaves : Leaves id s s')

include leaves

theorem fresh (fresh : itemsOf id s.list = []) : itemsOf id s'.list = [] :=
  Eq.trans leaves fresh

theorem advance (n : Nat) : Leaves id s (s'.advance n) := leaves

theorem mem_iff {item : Item} (type : item.type = id.type) : item ∈ s'.list ↔ item ∈ s.list := by
  have member (list : List Item) : item ∈ itemsOf id list ↔ item ∈ list := by
    rw [itemsOf, List.mem_filter, decide_eq_true type, and_iff_left rfl]
  rw [← member s'.list, ← member s.list, leaves]

theorem addUnchecked (value : Bytes) (apart : other.type ≠ id.type) :
    Leaves id s (s'.addUnchecked other value) := by
  refine leaves.trans ?_
  simp [Leaves, itemsOf, MatchPacket.addUnchecked, fieldItem, apart]

theorem addNonzero (number : Nat) (apart : other.type ≠ id.type) :
    Leaves id s (s'.addNonzero other number) := by
  rw [MatchPacket.addNonzero]
  split
  · exact leaves.addUnchecked _ apart
  · exact leaves

theorem addOrderedUnchecked (value : Bytes)
    (apart : other.type ≠ id.type) : Leaves id s (s'.addOrderedUnchecked other value) := by
  refine leaves.trans ?_
  have none : itemsOf id (fieldItem other value ::
      s'.list.dropWhile (·.type ≤ other.type)) =
      itemsOf id (s'.list.dropWhile (·.type ≤ other.type)) := by
    simp [itemsOf, fieldItem, apart]
  rw [Leaves, MatchPacket.addOrderedUnchecked]
  rw [itemsOf] at none ⊢
  rw [List.filter_append, none, itemsOf, ← List.filter_append, List.takeWhile_append_dropWhile]
  rfl

end

end Leaves

theorem itemsOf_addUnchecked (id : InternalId) (value : Bytes) (s : MatchPacket) :
    itemsOf id (s.addUnchecked id value).list = itemsOf id s.list ++ [fieldItem id value] := by
  simp [itemsOf, MatchPacket.addUnchecked, fieldItem]

theorem itemsOf_addOrderedUnchecked (value : Bytes) (fresh : itemsOf id s.list = []) :
    itemsOf id (s.addOrderedUnchecked id value).list = [fieldItem id value] := by
  have both : itemsOf id (s.list.takeWhile (·.type ≤ id.type)) = [] ∧
      itemsOf id (s.list.dropWhile (·.type ≤ id.type)) = [] := by
    rwa [← List.append_eq_nil_iff, itemsOf, itemsOf, ← List.filter_append,
      List.takeWhile_append_dropWhile]
  have here : itemsOf id (fieldItem id value :: s.list.dropWhile (·.type ≤ id.type)) =
      [fieldItem id value] := by
    rw [itemsOf, List.filter_cons_of_pos (by simp [fieldItem])]
    exact congrArg _ both.2
  have split : itemsOf id (s.addOrderedUnchecked id value).list =
      itemsOf id (s.list.takeWhile (·.type ≤ id.type)) ++
        itemsOf id (fieldItem id value :: s.list.dropWhile (·.type ≤ id.type)) :=
    List.filter_append ..
  rw [split, both.1, here, List.nil_append]

end

section

variable {id : InternalId} {s s' : MatchPacket}

/-- The fields that the headers in front of the upper layer of an IPv6 packet do not tell, apart
from the two that sum its extension headers up. -/
def upperIds : List InternalId :=
  [.ipProto, .ipv6Exthdr, .tcpSrc, .tcpDst, .udpSrc, .udpDst, .icmpv6Type, .icmpv6Code, .icmpv4Type]

/-- Those among them that the upper layer does not tell either. -/
def foreignIds : List InternalId := [.ipProto, .ipv6Exthdr, .icmpv4Type]

private theorem mem_upperIds : ∀ id ∈ foreignIds, id ∈ upperIds := by decide

theorem apart_of_mem {ids : List InternalId} (member : id ∈ ids) {other : InternalId}
    (apart : ∀ id ∈ ids, other.type ≠ id.type := by decide) : other.type ≠ id.type :=
  apart id member

theorem leaves_decodeTCP (foreign : id ∈ foreignIds) (pkt : Bytes) (s : MatchPacket) :
    Leaves id s (decodeTCP pkt s) := by
  rw [decodeTCP]
  split
  · exact .refl id s
  · exact .advance (.addUnchecked (.addUnchecked (.addUnchecked (.refl id s)
      _ (apart_of_mem foreign)) _ (apart_of_mem foreign)) _ (apart_of_mem foreign)) 20

theorem leaves_decodeUDP (foreign : id ∈ foreignIds) (pkt : Bytes) (s : MatchPacket) :
    Leaves id s (decodeUDP pkt s) := by
  rw [decodeUDP]
  split
  · exact .refl id s
  · exact .advance (.addUnchecked (.addUnchecked (.refl id s) _ (apart_of_mem foreign))
      _ (apart_of_mem foreign)) 8

theorem leaves_decodeLLOption (pkt : Bytes) (option : Nat) {other : InternalId}
    (apart : other.type ≠ id.type) (s : MatchPacket) :
    Leaves id s (decodeLLOption pkt option other s) := by
  rw [decodeLLOption]
  split
  · exact .advance (.addUnchecked (.refl id s) _ apart) _
  · exact .refl id s

theorem leaves_decodeICMPv6ND (upper : id ∈ upperIds) (pkt : Bytes) (type : Nat)
    (s : MatchPacket) : Leaves id s (decodeICMPv6ND pkt type s) := by
  rw [decodeICMPv6ND]
  split
  · exact .refl id s
  · dsimp only
    generalize first : (if type = ICMPV6_TYPE_NEIGHBOR_ADVERTISE then
      s.addUnchecked .xIpv6NdRes (window pkt 0 4) else s) = s₁
    have reserved : Leaves id s s₁ := by
      rw [← first]
      split
      · exact .addUnchecked (.refl id s) _ (apart_of_mem upper)
      · exact .refl id s
    have target : Leaves id s
        (s₁ |>.addUnchecked .ipv6NdTarget (window pkt 4 16) |>.advance 20) :=
      .advance (.addUnchecked reserved _ (apart_of_mem upper)) 20
    split
    · exact target
    · split
      · exact target.trans (leaves_decodeLLOption _ _ (apart_of_mem upper) _)
      · split
        · exact target.trans (leaves_decodeLLOption _ _ (apart_of_mem upper) _)
        · exact target

theorem leaves_decodeICMPv6 (foreign : id ∈ foreignIds) (pkt : Bytes) (s : MatchPacket) :
    Leaves id s (decodeICMPv6 pkt s) := by
  rw [decodeICMPv6]
  split
  · exact .refl id s
  · have header : Leaves id s (s |>.addUnchecked .icmpv6Type (window pkt 0 1)
        |>.addUnchecked .icmpv6Code (window pkt 1 1) |>.advance 4) :=
      .advance (.addUnchecked (.addUnchecked (.refl id s) _ (apart_of_mem foreign))
        _ (apart_of_mem foreign)) 4
    dsimp only
    split
    · exact header.trans (leaves_decodeICMPv6ND (mem_upperIds id foreign) _ _ _)
    · exact header

end

end Libofp.Packet.PacketList
