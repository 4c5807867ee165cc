/- GID: Libofp/Packet/ExtensionWalk
   digest: The walk over the extension headers of an IPv6 packet. -/

import Libofp.Packet.PacketList

set_option autoImplicit false

namespace Libofp.Packet.ExtensionWalk

open Octets.ByteRange Octets.BigEndian
open Oxm.Range Oxm.FieldTable Decoder PacketList

structure ExtHdr where
  currHdr : Nat
  pkt : Bytes
  deriving DecidableEq, Repr

namespace ExtHdr

def Truncated (h : ExtHdr) : Prop := h.pkt.length < 8

def Overruns (h : ExtHdr) : Prop := 8 ≤ h.pkt.length ∧ h.pkt.length < extHdrLen h.currHdr h.pkt

def Complete (h : ExtHdr) : Prop := 8 ≤ h.pkt.length ∧ extHdrLen h.currHdr h.pkt ≤ h.pkt.length

instance (h : ExtHdr) : Decidable h.Overruns := inferInstanceAs (Decidable (_ ∧ _))

instance (h : ExtHdr) : Decidable h.Complete := inferInstanceAs (Decidable (_ ∧ _))

theorem cases (h : ExtHdr) : h.Truncated ∨ h.Overruns ∨ h.Complete := by
  unfold Truncated Overruns Complete
  omega

theorem Complete.not_overruns {h : ExtHdr} (complete : h.Complete) : ¬ h.Overruns :=
  fun overruns => Nat.not_lt.mpr complete.2 overruns.2

end ExtHdr

def front (w : HeaderWalk) : ExtHdr := ⟨w.nextHdr, w.pkt⟩

/-- The extension headers of a packet, up to the first one that is not complete. -/
def visited (nextHdr : Nat) (pkt : Bytes) : List ExtHdr :=
  if ipv6NextHeaderIsExtension nextHdr then
    ⟨nextHdr, pkt⟩ ::
      if 8 ≤ pkt.length ∧ extHdrLen nextHdr pkt ≤ pkt.length then
        visited (big8 pkt 0) (pkt.drop (extHdrLen nextHdr pkt))
      else []
  else []
termination_by pkt.length
decreasing_by
  have positive := extHdrLen_pos nextHdr pkt
  rw [List.length_drop]
  omega

/-- The first header that is no extension header, or not a complete one. -/
def landing (nextHdr : Nat) (pkt : Bytes) : ExtHdr :=
  if ipv6NextHeaderIsExtension nextHdr ∧ 8 ≤ pkt.length ∧ extHdrLen nextHdr pkt ≤ pkt.length then
    landing (big8 pkt 0) (pkt.drop (extHdrLen nextHdr pkt))
  else ⟨nextHdr, pkt⟩
termination_by pkt.length
decreasing_by
  have positive := extHdrLen_pos nextHdr pkt
  rw [List.length_drop]
  omega

theorem landing_complete {nextHdr : Nat} {pkt : Bytes}
    (extension : ipv6NextHeaderIsExtension nextHdr = true)
    (complete : (ExtHdr.mk nextHdr pkt).Complete) :
    landing nextHdr pkt = landing (big8 pkt 0) (pkt.drop (extHdrLen nextHdr pkt)) := by
  rw [landing, if_pos ⟨extension, complete⟩]

theorem landing_stop {nextHdr : Nat} {pkt : Bytes}
    (stop : ipv6NextHeaderIsExtension nextHdr = true → ¬ (ExtHdr.mk nextHdr pkt).Complete) :
    landing nextHdr pkt = ⟨nextHdr, pkt⟩ := by
  rw [landing, if_neg fun ahead => stop ahead.1 ahead.2]

/-- The headers that the loop visits: it calls `nextIPv6ExtHdr` once for each. -/
def visits (w : HeaderWalk) : List ExtHdr := visited w.nextHdr w.pkt

section

variable {w : HeaderWalk}

theorem visits_last (last : ipv6NextHeaderIsExtension w.nextHdr = false) : visits w = [] := by
  rw [visits, visited, last, if_neg Bool.false_ne_true]

theorem walk_induction {motive : HeaderWalk → Prop}
    (last : ∀ w, ipv6NextHeaderIsExtension w.nextHdr = false → motive w)
    (extension : ∀ w, ipv6NextHeaderIsExtension w.nextHdr = true → motive (nextIPv6ExtHdr w) →
      motive w) (w : HeaderWalk) : motive w := by
  induction size : w.pkt.length using Nat.strong_induction_on generalizing w with
  | _ n ih =>
    cases isExtension : ipv6NextHeaderIsExtension w.nextHdr with
    | false => exact last w isExtension
    | true =>
      refine extension w isExtension ?_
      rcases nextIPv6ExtHdr_stuck w with ended | shorter
      · refine last _ ?_
        rw [ended]
        decide
      · exact ih _ (size ▸ shorter) _ rfl

theorem exists_note (extension : ipv6NextHeaderIsExtension w.nextHdr = true) (nextHdr : Nat) :
    ∃ flags, noteIPv6ExtHdr w.nextHdr nextHdr w.flags = some flags := by
  generalize w.nextHdr = currHdr at extension
  rw [ipv6NextHeaderIsExtension, List.contains_iff_mem] at extension
  simp only [List.mem_cons, List.not_mem_nil, or_false] at extension
  rcases extension with rfl | rfl | rfl | rfl | rfl | rfl | rfl | rfl | rfl | rfl | rfl
  case inr.inr.inr.inr.inr.inl =>
    rw [noteIPv6ExtHdr]
    split
    · exact ⟨_, rfl⟩
    · split <;> exact ⟨_, rfl⟩
  all_goals exact ⟨_, rfl⟩

theorem next_truncated (truncated : (front w).Truncated) : nextIPv6ExtHdr w =
    { w with nextHdr := IPv6Ext.noNextHeader, packet := w.addProtocol } := by
  have short : w.pkt.length < 8 := truncated
  rw [nextIPv6ExtHdr, if_pos short]

theorem next_overruns {flags : BitVec 32} (overruns : (front w).Overruns)
    (noted : noteIPv6ExtHdr w.nextHdr (big8 w.pkt 0) w.flags = some flags) : nextIPv6ExtHdr w =
    { w with nextHdr := IPv6Ext.noNextHeader, flags := flags } := by
  obtain ⟨room, beyond⟩ : 8 ≤ w.pkt.length ∧ w.pkt.length < extHdrLen w.nextHdr w.pkt := overruns
  rw [nextIPv6ExtHdr, if_neg (Nat.not_lt.mpr room)]
  simp only [noted]
  rw [if_pos beyond]

def behind (w : HeaderWalk) (flags : BitVec 32) : HeaderWalk :=
  ⟨big8 w.pkt 0, w.pkt.drop (extHdrLen w.nextHdr w.pkt), flags,
    w.packet.advance (extHdrLen w.nextHdr w.pkt)⟩

theorem next_complete {flags : BitVec 32} (complete : (front w).Complete)
    (noted : noteIPv6ExtHdr w.nextHdr (big8 w.pkt 0) w.flags = some flags)
    (more : big8 w.pkt 0 ≠ IPv6Ext.noNextHeader) : nextIPv6ExtHdr w = behind w flags := by
  obtain ⟨room, within⟩ : 8 ≤ w.pkt.length ∧ extHdrLen w.nextHdr w.pkt ≤ w.pkt.length := complete
  rw [nextIPv6ExtHdr, if_neg (Nat.not_lt.mpr room)]
  simp only [noted]
  rw [if_neg (Nat.not_lt.mpr within), if_neg more]
  rfl

theorem next_final {flags : BitVec 32} (complete : (front w).Complete)
    (noted : noteIPv6ExtHdr w.nextHdr (big8 w.pkt 0) w.flags = some flags)
    (none : big8 w.pkt 0 = IPv6Ext.noNextHeader) : nextIPv6ExtHdr w =
    { behind w flags with
      flags := flags ||| OFPIEH_NONEXT, packet := (behind w flags).addProtocol } := by
  obtain ⟨room, within⟩ : 8 ≤ w.pkt.length ∧ extHdrLen w.nextHdr w.pkt ≤ w.pkt.length := complete
  rw [nextIPv6ExtHdr, if_neg (Nat.not_lt.mpr room)]
  simp only [noted]
  rw [if_neg (Nat.not_lt.mpr within), if_pos none]
  rfl

theorem nextHdr_final {flags : BitVec 32} (complete : (front w).Complete)
    (noted : noteIPv6ExtHdr w.nextHdr (big8 w.pkt 0) w.flags = some flags)
    (none : big8 w.pkt 0 = IPv6Ext.noNextHeader) :
    (nextIPv6ExtHdr w).nextHdr = IPv6Ext.noNextHeader := by
  rwa [next_final complete noted none]

theorem visits_extension (extension : ipv6NextHeaderIsExtension w.nextHdr = true) :
    visits w = front w :: visits (nextIPv6ExtHdr w) := by
  obtain ⟨flags, noted⟩ := exists_note extension (big8 w.pkt 0)
  rw [visits, visited, if_pos extension]
  congr 1
  rcases (front w).cases with truncated | overruns | complete
  · rw [next_truncated truncated, visits_last rfl]
    exact if_neg fun complete => Nat.not_le.mpr truncated complete.1
  · rw [next_overruns overruns noted, visits_last rfl]
    exact if_neg fun complete => Nat.not_le.mpr overruns.2 complete.2
  · refine (if_pos complete).trans ?_
    by_cases none : big8 w.pkt 0 = IPv6Ext.noNextHeader
    · rw [next_final complete noted none]
      rfl
    · rw [next_complete complete noted none]
      rfl

theorem visits_startWalk (pkt : Bytes) (nextHdr : Nat) (s : MatchPacket) :
    visits (startWalk pkt nextHdr s) = visited nextHdr pkt := by
  rw [visits, startWalk]
  split <;> rfl

end

section

variable {w : HeaderWalk}

theorem walkHeaders_done (done : w.nextHdr = IPv6Ext.noNextHeader) : walkHeaders w = w := by
  rw [walkHeaders, if_pos done]

theorem leaves_walkHeaders {id : InternalId} (foreign : id ∈ foreignIds)
    (last : ipv6NextHeaderIsExtension w.nextHdr = false) (more : w.nextHdr ≠ IPv6Ext.noNextHeader) :
    Leaves id w.addProtocol (walkHeaders w).packet ∧ (walkHeaders w).flags = w.flags := by
  rw [walkHeaders, if_neg more]
  split
  · exact ⟨leaves_decodeTCP foreign _ _, rfl⟩
  split
  · exact ⟨leaves_decodeUDP foreign _ _, rfl⟩
  split
  · exact ⟨leaves_decodeICMPv6 foreign _ _, rfl⟩
  rw [if_neg (by rw [last]; exact Bool.false_ne_true)]
  exact ⟨.refl _ _, rfl⟩

def protocols (s : MatchPacket) : Nat := (itemsOf .ipProto s.list).length

theorem itemsOf_addProtocol (fresh : itemsOf .ipProto w.packet.list = []) :
    itemsOf .ipProto w.addProtocol.list = [fieldItem .ipProto (bigBytes 1 w.nextHdr)] :=
  itemsOf_addOrderedUnchecked _ fresh

/-- The protocol that is reported is the number of the header where the walk stops. -/
theorem protocol_walkHeaders (more : w.nextHdr ≠ IPv6Ext.noNextHeader)
    (fresh : itemsOf .ipProto w.packet.list = []) :
    itemsOf .ipProto (walkHeaders w).packet.list = if ∃ h ∈ visits w, h.Overruns then []
      else [fieldItem .ipProto (bigBytes 1 (landing w.nextHdr w.pkt).currHdr)] := by
  induction w using walk_induction with
  | last w last =>
    have stop := @landing_stop w.nextHdr w.pkt fun is => absurd (last.symm.trans is) (by decide)
    rw [(leaves_walkHeaders (by decide) last more).1, itemsOf_addProtocol fresh, visits_last last,
      stop]
    simp
  | extension w extension ih =>
    obtain ⟨flags, noted⟩ := exists_note extension (big8 w.pkt 0)
    have none {w' : HeaderWalk} (ended : w'.nextHdr = IPv6Ext.noNextHeader) : visits w' = [] := by
      refine visits_last ?_
      rw [ended]
      decide
    rw [walkHeaders_extension extension, visits_extension extension]
    simp only [List.mem_cons, exists_eq_or_imp]
    rcases (front w).cases with truncated | overruns | complete
    · have short : ¬ (front w).Overruns := fun overruns => Nat.not_le.mpr truncated overruns.1
      have stop := @landing_stop w.nextHdr w.pkt
        fun _ complete => Nat.not_le.mpr truncated complete.1
      rw [next_truncated truncated, walkHeaders_done rfl, none rfl, stop]
      simp [short, itemsOf_addProtocol fresh]
    · rw [next_overruns overruns noted, walkHeaders_done rfl]
      simp [overruns, fresh]
    · rw [landing_complete extension complete]
      by_cases final : big8 w.pkt 0 = IPv6Ext.noNextHeader
      · have ended := nextHdr_final complete noted final
        have stop : landing (big8 w.pkt 0) (w.pkt.drop (extHdrLen w.nextHdr w.pkt)) =
            ⟨big8 w.pkt 0, w.pkt.drop (extHdrLen w.nextHdr w.pkt)⟩ :=
          landing_stop fun is => by rw [final] at is; exact absurd is (by decide)
        rw [walkHeaders_done ended, none ended, next_final complete noted final, stop]
        simp only [complete.not_overruns, List.not_mem_nil, false_and, exists_false, or_self,
          if_false]
        exact itemsOf_addProtocol (w := behind w flags) fresh
      · have next := next_complete complete noted final
        rw [next] at ih ⊢
        simp only [complete.not_overruns, false_or]
        exact ih final fresh

private theorem leaves_next (w : HeaderWalk) :
    Leaves .icmpv4Type w.packet (nextIPv6ExtHdr w).packet := by
  have added (w' : HeaderWalk) : Leaves .icmpv4Type w'.packet w'.addProtocol :=
    .addOrderedUnchecked (.refl _ _) _ (by decide)
  rw [nextIPv6ExtHdr]
  split
  · exact added w
  · dsimp only
    split
    · exact .refl _ _
    · split
      · exact .refl _ _
      · split
        · exact added ⟨big8 w.pkt 0, [], 0, w.packet⟩
        · exact .refl _ _

/-- The headers of an IPv6 packet do not tell the type of an ICMPv4 message. -/
theorem leaves_icmpv4Type (w : HeaderWalk) :
    Leaves .icmpv4Type w.packet (walkHeaders w).packet := by
  induction w using walk_induction with
  | last w last =>
    by_cases none : w.nextHdr = IPv6Ext.noNextHeader
    · rw [walkHeaders_done none]
      exact .refl _ _
    · exact (Leaves.addOrderedUnchecked (.refl _ _) _ (by decide)).trans
        (leaves_walkHeaders (by decide) last none).1
  | extension w extension ih =>
    rw [walkHeaders_extension extension]
    exact (leaves_next w).trans ih

theorem leaves_reportFlags {id : InternalId} (apart : InternalId.ipv6Exthdr.type ≠ id.type)
    (flags : BitVec 32) (s : MatchPacket) : Leaves id s (reportFlags flags s) := by
  rw [reportFlags]
  generalize (if flags &&& OFPIEH_DEST_ROUTER ≠ 0 then flags &&& 0x0ffff ||| OFPIEH_DEST
    else flags) = word
  split
  · exact .addUnchecked (.refl _ s) _ apart
  · exact .refl _ s

private theorem protocols_decodeIPv6NextHdr {s : MatchPacket} (pkt : Bytes) (nextHdr : Nat)
    (fresh : itemsOf .ipProto s.list = []) :
    protocols (decodeIPv6NextHdr pkt nextHdr s) =
      if ∃ h ∈ visited nextHdr pkt, h.Overruns then 0 else 1 := by
  have report : protocols (decodeIPv6NextHdr pkt nextHdr s) =
      (itemsOf .ipProto (walkHeaders (startWalk pkt nextHdr s)).packet.list).length :=
    congrArg List.length (leaves_reportFlags (by decide) _ _)
  rw [report, ← visits_startWalk pkt nextHdr s]
  by_cases none : nextHdr = IPv6Ext.noNextHeader
  · subst none
    have ended : (startWalk pkt IPv6Ext.noNextHeader s).nextHdr = IPv6Ext.noNextHeader := rfl
    have nothing : visits (startWalk pkt IPv6Ext.noNextHeader s) = [] := visits_last rfl
    rw [walkHeaders_done ended, nothing, startWalk, if_pos rfl]
    exact congrArg List.length (itemsOf_addProtocol (w := ⟨IPv6Ext.noNextHeader, pkt, 0, s⟩) fresh)
  · rw [startWalk, if_neg none, protocol_walkHeaders none fresh]
    split <;> rfl

end

section

variable {link header : Bytes}

/-- An Ethernet header of the type of IPv6, with a VLAN tag or without one. -/
def IPv6Link (link : Bytes) : Prop :=
  link.length = 14 ∧ big16 link 12 = DATALINK_IPV6 ∨
    link.length = 18 ∧ big16 link 12 = DATALINK_8021Q ∧ big16 link 16 = DATALINK_IPV6

def IPv6Header (header : Bytes) : Prop := header.length = 40 ∧ big32 header 0 >>> 28 = 6

instance (header : Bytes) : Decidable (IPv6Header header) := inferInstanceAs (Decidable (_ ∧ _))

theorem decodeIPv6_header (headed : IPv6Header header) (rest : Bytes) (s : MatchPacket) :
    ∃ s', (∀ id ∈ upperIds, Leaves id s s') ∧
      decodeIPv6 (header ++ rest) s = decodeIPv6NextHdr rest (big8 header 6) s' := by
  obtain ⟨size, version⟩ := headed
  have room : ¬ (header ++ rest).length < 40 := by
    rw [List.length_append]
    omega
  have nextHdr : big8 (header ++ rest) 6 = big8 header 6 := big8_append _ (by omega)
  have label : big32 (header ++ rest) 0 = big32 header 0 := big32_append _ (by omega)
  have behind : (header ++ rest).drop 40 = rest := List.drop_left' size
  rw [decodeIPv6, if_neg room]
  rw [label, if_neg (not_not.mpr version), nextHdr, behind]
  refine ⟨_, ?_, rfl⟩
  intro id upper
  exact .advance (.addNonzero (.addUnchecked (.addUnchecked (.addUnchecked
    (.addNonzero (.addNonzero (.refl id s) _ (apart_of_mem upper)) _ (apart_of_mem upper)) _
      (apart_of_mem upper))
      _ (apart_of_mem upper)) _ (apart_of_mem upper)) _ (apart_of_mem upper)) 40

theorem decodeEthType_header (headed : IPv6Header header) (rest : Bytes) (s : MatchPacket) :
    ∃ s', (∀ id ∈ upperIds, Leaves id s s') ∧
      decodeEthType DATALINK_IPV6 (header ++ rest) s =
        decodeIPv6NextHdr rest (big8 header 6) s' := by
  obtain ⟨s', leaves, same⟩ :=
    decodeIPv6_header headed rest (s.addUnchecked .ethType (bigBytes 2 DATALINK_IPV6))
  exact ⟨s', fun id upper =>
    .trans (.addUnchecked (.refl id s) _ (apart_of_mem upper)) (leaves id upper), same⟩

private theorem decodeEthernet_header (linked : IPv6Link link) (headed : IPv6Header header)
    (rest : Bytes) (s : MatchPacket) : ∃ s', (∀ id ∈ upperIds, Leaves id s s') ∧
      decodeEthernet (link ++ (header ++ rest)) s =
        decodeIPv6NextHdr rest (big8 header 6) s' := by
  have addresses {id : InternalId} (upper : id ∈ upperIds) (dst src : Bytes) : Leaves id s
      (s |>.addUnchecked .ethDst dst |>.addUnchecked .ethSrc src |>.advance 14) :=
    .advance (.addUnchecked (.addUnchecked (.refl id s) _ (apart_of_mem upper)) _
      (apart_of_mem upper)) 14
  rcases linked with ⟨size, type⟩ | ⟨size, tagged, type⟩
  · have room : ¬ (link ++ (header ++ rest)).length < 14 := by
      rw [List.length_append]
      omega
    have ethType : big16 (link ++ (header ++ rest)) 12 = DATALINK_IPV6 := by
      rw [big16_append _ (by omega), type]
    have behind : (link ++ (header ++ rest)).drop 14 = header ++ rest := List.drop_left' size
    rw [decodeEthernet, if_neg room]
    dsimp only
    rw [ethType, if_neg (by decide), behind]
    obtain ⟨s', leaves, same⟩ := decodeEthType_header headed rest _
    exact ⟨s', fun id upper => (addresses upper _ _).trans (leaves id upper), same⟩
  · have room : ¬ (link ++ (header ++ rest)).length < 14 := by
      rw [List.length_append]
      omega
    have ethType : big16 (link ++ (header ++ rest)) 12 = DATALINK_8021Q := by
      rw [big16_append _ (by omega), tagged]
    have tag : ¬ ((link ++ (header ++ rest)).drop 14).length < 4 := by
      rw [List.length_drop, List.length_append]
      omega
    have tagType : big16 ((link ++ (header ++ rest)).drop 14) 2 = DATALINK_IPV6 := by
      rw [big16_drop, big16_append _ (by omega), type]
    have behind : ((link ++ (header ++ rest)).drop 14).drop 4 = header ++ rest := by
      rw [List.drop_drop]
      exact List.drop_left' size
    rw [decodeEthernet, if_neg room]
    dsimp only
    rw [ethType, if_pos rfl, decodeVlan, if_neg tag]
    dsimp only
    rw [tagType, behind]
    obtain ⟨s', leaves, same⟩ := decodeEthType_header headed rest _
    exact ⟨s', fun id upper => (Leaves.advance (.addNonzero (.addUnchecked
      (addresses upper _ _) _ (apart_of_mem upper)) _ (apart_of_mem upper)) 4).trans
        (leaves id upper), same⟩

/-- The fields of an IPv6 packet: those of the headers behind the IPv6 header, and perhaps the
position where the decoder has stopped. -/
theorem decode_header (linked : IPv6Link link) (headed : IPv6Header header) (rest : Bytes) :
    ∃ s', (∀ id ∈ upperIds, itemsOf id s'.list = []) ∧ ∃ position : List Item,
      (decode (link ++ (header ++ rest))).list =
        (decodeIPv6NextHdr rest (big8 header 6) s').list ++ position ∧
      ∀ item ∈ position, item.type = InternalId.xPktPos.type := by
  obtain ⟨s', leaves, same⟩ := decodeEthernet_header linked headed rest ⟨[], 0⟩
  refine ⟨s', leaves, ?_⟩
  rw [decode, same]
  split
  · exact ⟨[fieldItem .xPktPos _], rfl, by simp [fieldItem]⟩
  · exact ⟨[], (List.append_nil _).symm, by simp⟩

theorem itemsOf_decode {id : InternalId} (upper : id ∈ upperIds) {list position : List Item}
    (typed : ∀ item ∈ position, item.type = InternalId.xPktPos.type) :
    itemsOf id (list ++ position) = itemsOf id list := by
  have apart : InternalId.xPktPos.type ≠ id.type := (apart_of_mem upper)
  have none : itemsOf id position = [] := by
    rw [itemsOf, List.filter_eq_nil_iff]
    intro item member own
    exact apart ((typed item member).symm.trans (of_decide_eq_true own))
  rw [itemsOf, List.filter_append]
  exact (congrArg _ none).trans (List.append_nil _)

theorem protocols_decode (linked : IPv6Link link) (headed : IPv6Header header) (rest : Bytes) :
    protocols (decode (link ++ (header ++ rest))) =
      if ∃ h ∈ visited (big8 header 6) rest, h.Overruns then 0 else 1 := by
  obtain ⟨s', fresh, position, same, typed⟩ := decode_header linked headed rest
  rw [protocols, same, itemsOf_decode (by decide) typed]
  exact protocols_decodeIPv6NextHdr rest (big8 header 6) (fresh .ipProto (by decide))

/-- An IPv6 packet has one protocol field, exactly when no extension header goes beyond the end
of the packet. -/
theorem one_protocol_iff (link header rest : Bytes) (linked : IPv6Link link)
    (headed : IPv6Header header) :
    protocols (decode (link ++ (header ++ rest))) = 1 ↔
      ∀ h ∈ visited (big8 header 6) rest, ¬ h.Overruns := by
  rw [protocols_decode linked headed rest]
  split
  · next overrun => simpa using overrun
  · next none => simpa using none

/-- A UDP packet with a hop-by-hop header of eight and a destination header of sixteen bytes. -/
theorem one_protocol_udp :
    let link : Bytes := List.replicate 12 0 ++ [0x86, 0xdd]
    let header : Bytes := [0x60, 0, 0, 0, 0, 32, 0, 64] ++ List.replicate 32 0
    let rest : Bytes := [60, 0] ++ List.replicate 6 0 ++ ([17, 1] ++ List.replicate 14 0) ++
      [0, 67, 0, 68, 0, 8, 0, 0]
    IPv6Link link ∧ IPv6Header header ∧
      (visited (big8 header 6) rest).map ExtHdr.currHdr = [IPv6Ext.hop, IPv6Ext.dest] ∧
      protocols (decode (link ++ (header ++ rest))) = 1 := by
  intro link header rest
  have linked : IPv6Link link := .inl (by decide)
  have headed : IPv6Header header := by decide
  exact ⟨linked, headed, by decide +kernel,
    (one_protocol_iff link header rest linked headed).mpr (by decide +kernel)⟩

/-- A hop-by-hop header of eight bytes that says it has forty-eight. -/
theorem no_protocol_overrun : ∃ link header rest, IPv6Link link ∧ IPv6Header header ∧
    protocols (decode (link ++ (header ++ rest))) = 0 := by
  let link : Bytes := List.replicate 12 0 ++ [0x86, 0xdd]
  let header : Bytes := [0x60, 0, 0, 0, 0, 8, 0, 64] ++ List.replicate 32 0
  let rest : Bytes := [6, 5, 0, 0, 0, 0, 0, 0]
  have linked : IPv6Link link := .inl (by decide)
  have headed : IPv6Header header := by decide
  refine ⟨link, header, rest, linked, headed, ?_⟩
  rw [protocols_decode linked headed, if_pos (by decide +kernel)]

end

end Libofp.Packet.ExtensionWalk
