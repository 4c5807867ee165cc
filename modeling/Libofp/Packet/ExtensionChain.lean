/- GID: Libofp/Packet/ExtensionChain
   digest: When the upper-layer header is found behind a chain of IPv6 extension headers, each of
     the length that its RFC gives it. -/

import Libofp.Packet.ExtensionWalk

set_option autoImplicit false

namespace Libofp.Packet.ExtensionChain

open Octets.ByteRange Octets.ByteList Octets.BigEndian
open Oxm.Range Oxm.FieldTable Decoder PacketList ExtensionWalk

inductive Kind where
  | hop
  | dest
  | router
  | fragment
  | auth
  | mobility
  | hostIdentity
  | shim6
  deriving DecidableEq, Repr

namespace Kind

def number : Kind → Nat
  | hop => IPv6Ext.hop
  | dest => IPv6Ext.dest
  | router => IPv6Ext.router
  | fragment => IPv6Ext.fragment
  | auth => IPv6Ext.auth
  | mobility => IPv6Ext.mobility
  | hostIdentity => IPv6Ext.hostIdentity
  | shim6 => IPv6Ext.shim6

def size (hdrLen : Nat) : Kind → Nat
  | fragment => 8
  | auth => (hdrLen + 2) * 4
  | _ => (hdrLen + 1) * 8

end Kind

/-- A complete extension header: behind the number of the next header come its second byte, the
length of most kinds, and as many bytes as its kind needs. -/
structure Extension where
  kind : Kind
  hdrLen : UInt8
  data : Bytes
  sized : 2 + data.length = kind.size hdrLen.toNat
  deriving DecidableEq, Repr

namespace Extension

def octets (e : Extension) (nextHdr : Nat) : Bytes := UInt8.ofNat nextHdr :: e.hdrLen :: e.data

end Extension

inductive Upper where
  | tcp
  | udp
  | icmpv6
  deriving DecidableEq, Repr

namespace Upper

def number : Upper → Nat
  | tcp => PROTOCOL_TCP
  | udp => PROTOCOL_UDP
  | icmpv6 => PROTOCOL_ICMPV6

def size : Upper → Nat
  | tcp => 20
  | udp => 8
  | icmpv6 => 4

def fields (header : Bytes) : Upper → List Item
  | tcp => [fieldItem .tcpSrc (window header 0 2), fieldItem .tcpDst (window header 2 2)]
  | udp => [fieldItem .udpSrc (window header 0 2), fieldItem .udpDst (window header 2 2)]
  | icmpv6 =>
    [fieldItem .icmpv6Type (window header 0 1), fieldItem .icmpv6Code (window header 1 1)]

def decode (pkt : Bytes) (s : MatchPacket) : Upper → MatchPacket
  | tcp => decodeTCP pkt s
  | udp => decodeUDP pkt s
  | icmpv6 => decodeICMPv6 pkt s

end Upper

def firstNumber (upper : Upper) : List Extension → Nat
  | [] => upper.number
  | e :: _ => e.kind.number

def chainOctets (upper : Upper) : List Extension → Bytes
  | [] => []
  | e :: chain => e.octets (firstNumber upper chain) ++ chainOctets upper chain

section

variable {upper : Upper} {chain : List Extension} {segment : Bytes} {w : HeaderWalk}

theorem firstNumber_lt (upper : Upper) (chain : List Extension) :
    firstNumber upper chain < 256 ∧ firstNumber upper chain ≠ IPv6Ext.noNextHeader := by
  cases chain with
  | nil => cases upper <;> decide
  | cons e chain =>
    rw [firstNumber]
    cases e.kind <;> decide

private theorem isExtension_number (kind : Kind) :
    ipv6NextHeaderIsExtension kind.number = true := by
  cases kind <;> decide

theorem length_octets (e : Extension) (nextHdr : Nat) :
    (e.octets nextHdr).length = e.kind.size e.hdrLen.toNat := by
  rw [← e.sized, Extension.octets, List.length_cons, List.length_cons]
  omega

private theorem extHdrLen_octets {e : Extension} (short : e.kind = .auth → e.hdrLen = 0)
    (nextHdr : Nat) (rest : Bytes) :
    extHdrLen e.kind.number (e.octets nextHdr ++ rest) = (e.octets nextHdr).length := by
  have second : big8 (e.octets nextHdr ++ rest) 1 = e.hdrLen.toNat := rfl
  rw [length_octets, extHdrLen, second]
  cases kind : e.kind with
  | auth =>
    rw [short kind]
    rfl
  | _ => rfl

theorem size_pos (e : Extension) : 8 ≤ e.kind.size e.hdrLen.toNat := by
  cases e.kind <;> simp only [Kind.size] <;> omega

/-- The decoder stops right behind a chain whose lengths it computes as the RFCs do. -/
private theorem landing_chain (short : ∀ e ∈ chain, e.kind = .auth → e.hdrLen = 0) :
    landing (firstNumber upper chain) (chainOctets upper chain) = ⟨upper.number, []⟩ := by
  induction chain with
  | nil => cases upper <;> exact landing_stop (by decide)
  | cons e chain ih =>
    obtain ⟨here, later⟩ := List.forall_mem_cons.mp short
    have length := extHdrLen_octets here (firstNumber upper chain) (chainOctets upper chain)
    have room := length_octets e (firstNumber upper chain)
    have enough := size_pos e
    have complete : (ExtHdr.mk e.kind.number (chainOctets upper (e :: chain))).Complete := by
      show 8 ≤ (e.octets _ ++ _).length ∧ extHdrLen _ (e.octets _ ++ _) ≤ (e.octets _ ++ _).length
      rw [length, List.length_append]
      omega
    have first : big8 (chainOctets upper (e :: chain)) 0 = firstNumber upper chain :=
      Nat.mod_eq_of_lt (firstNumber_lt upper chain).1
    rw [firstNumber, landing_complete (isExtension_number e.kind) complete, first, chainOctets,
      length, List.drop_left, ih later]

/-- Behind some bytes the walk goes on where it would have stopped at their end. -/
private theorem landing_append (nextHdr : Nat) (pkt rest : Bytes) : landing nextHdr (pkt ++ rest) =
    landing (landing nextHdr pkt).currHdr ((landing nextHdr pkt).pkt ++ rest) := by
  induction nextHdr, pkt using landing.induct with
  | case1 nextHdr pkt ahead ih =>
    obtain ⟨extension, room, within⟩ := ahead
    have first : big8 (pkt ++ rest) 0 = big8 pkt 0 := big8_append _ (by omega)
    have length : extHdrLen nextHdr (pkt ++ rest) = extHdrLen nextHdr pkt := by
      rw [extHdrLen, extHdrLen, big8_append _ (by omega)]
    have complete : (ExtHdr.mk nextHdr (pkt ++ rest)).Complete := by
      show 8 ≤ (pkt ++ rest).length ∧ extHdrLen nextHdr (pkt ++ rest) ≤ (pkt ++ rest).length
      rw [length, List.length_append]
      omega
    rw [landing_complete extension complete, landing_complete extension ⟨room, within⟩, first,
      length, List.drop_append_of_le_length within, ih]
  | case2 nextHdr pkt stop =>
    rw [@landing_stop nextHdr pkt fun extension complete => stop ⟨extension, complete⟩]

private theorem length_landing (nextHdr : Nat) (pkt : Bytes) :
    (landing nextHdr pkt).pkt.length ≤ pkt.length := by
  induction nextHdr, pkt using landing.induct with
  | case1 nextHdr pkt ahead ih =>
    rw [landing_complete ahead.1 ahead.2]
    rw [List.length_drop] at ih
    omega
  | case2 nextHdr pkt stop =>
    rw [landing_stop fun extension complete => stop ⟨extension, complete⟩]

private theorem landing_lt {nextHdr : Nat} (small : nextHdr < 256) (pkt : Bytes) :
    (landing nextHdr pkt).currHdr < 256 := by
  induction nextHdr, pkt using landing.induct with
  | case1 nextHdr pkt ahead ih =>
    rw [landing_complete ahead.1 ahead.2]
    exact ih (big8_lt ..)
  | case2 nextHdr pkt stop =>
    rwa [landing_stop fun extension complete => stop ⟨extension, complete⟩]

theorem upper_apart (upper : Upper) : upper.number ≠ IPv6Ext.noNextHeader ∧
    ipv6NextHeaderIsExtension upper.number = false := by
  cases upper <;> decide

private theorem walkHeaders_upper (kind : w.nextHdr = upper.number) : walkHeaders w =
    { w with nextHdr := IPv6Ext.noNextHeader, packet := upper.decode w.pkt w.addProtocol } := by
  rw [walkHeaders, if_neg (kind ▸ (upper_apart upper).1), kind]
  cases upper <;> rfl

theorem fieldItem_apart {id id' : InternalId} {value value' : Bytes} (types : id.type ≠ id'.type) :
    fieldItem id value ≠ fieldItem id' value' :=
  fun same => types (congrArg Item.type same)

/-- Nothing but a complete header adds fields of the upper layer. -/
private theorem mem_decode_iff {item : Item} {header : Bytes} (asked : item ∈ upper.fields header)
    (pkt : Bytes) (s : MatchPacket) : item ∈ (upper.decode pkt s).list ↔
      item ∈ s.list ∨ upper.size ≤ pkt.length ∧ item ∈ upper.fields pkt := by
  cases upper with
  | tcp =>
    rw [Upper.decode, decodeTCP]
    simp only [Upper.fields, Upper.size, List.mem_cons, List.not_mem_nil, or_false] at asked ⊢
    split
    · next short => simp [Nat.not_le.mpr short]
    · next room =>
      rcases asked with rfl | rfl <;>
        simp (disch := decide) only [mem_addUnchecked, list_advance, fieldItem_apart, or_false,
          false_or, Nat.le_of_not_lt room, true_and]
  | udp =>
    rw [Upper.decode, decodeUDP]
    simp only [Upper.fields, Upper.size, List.mem_cons, List.not_mem_nil, or_false] at asked ⊢
    split
    · next short => simp [Nat.not_le.mpr short]
    · next room => simp only [mem_addUnchecked, list_advance, or_assoc, Nat.le_of_not_lt room,
        true_and]
  | icmpv6 =>
    have discovery (type : Nat) (s' : MatchPacket) :
        item ∈ (decodeICMPv6ND (pkt.drop 4) type s').list ↔ item ∈ s'.list := by
      simp only [Upper.fields, List.mem_cons, List.not_mem_nil, or_false] at asked
      rcases asked with rfl | rfl
      · have upper : InternalId.icmpv6Type ∈ upperIds := by decide
        exact Leaves.mem_iff (leaves_decodeICMPv6ND upper ..) rfl
      · have upper : InternalId.icmpv6Code ∈ upperIds := by decide
        exact Leaves.mem_iff (leaves_decodeICMPv6ND upper ..) rfl
    rw [Upper.decode, decodeICMPv6]
    simp only [Upper.fields, Upper.size, List.mem_cons, List.not_mem_nil, or_false]
    split
    · next short => simp [Nat.not_le.mpr short]
    · next room =>
      split <;> simp only [discovery, mem_addUnchecked, list_advance, or_assoc,
        Nat.le_of_not_lt room, true_and]

private theorem fields_eq_of_subset {header header' : Bytes}
    (subset : ∀ item ∈ upper.fields header, item ∈ upper.fields header') :
    upper.fields header' = upper.fields header := by
  cases upper <;>
    · simp only [Upper.fields, List.forall_mem_cons] at subset ⊢
      simp (disch := decide) only [List.mem_cons, List.not_mem_nil, fieldItem_apart, or_false,
        false_or] at subset
      rw [subset.1, subset.2.1]

theorem typed_fields {item : Item} {header : Bytes} (asked : item ∈ upper.fields header) :
    ∃ id ∈ upperIds, InternalId.ipProto.type ≠ id.type ∧
      InternalId.ipv6Exthdr.type ≠ id.type ∧ item.type = id.type := by
  cases upper <;>
    · simp only [Upper.fields, List.mem_cons, List.not_mem_nil, or_false] at asked
      rcases asked with rfl | rfl <;> exact ⟨_, by decide, by decide, by decide, rfl⟩

/-- The upper layer of the packet is reported: its protocol, and no other, and its fields. -/
def Reported (upper : Upper) (segment : Bytes) (list : List Item) : Prop :=
  itemsOf .ipProto list = [fieldItem .ipProto (bigBytes 1 upper.number)] ∧
    ∀ item ∈ upper.fields segment, item ∈ list

/-- There is a header of the protocol with the fields of the segment. -/
def Lands (upper : Upper) (segment : Bytes) (h : ExtHdr) : Prop :=
  h.currHdr = upper.number ∧ upper.size ≤ h.pkt.length ∧
    upper.fields h.pkt = upper.fields segment

private theorem exists_landed (number : (landing w.nextHdr w.pkt).currHdr = upper.number) :
    ∃ w', walkHeaders w = walkHeaders w' ∧ front w' = landing w.nextHdr w.pkt ∧
      w'.packet.list = w.packet.list := by
  obtain ⟨more, other⟩ := upper_apart upper
  induction w using walk_induction with
  | last w last =>
    rw [landing_stop fun is => absurd (last.symm.trans is) (by decide)]
    exact ⟨w, rfl, rfl, rfl⟩
  | extension w extension ih =>
    by_cases complete : (front w).Complete
    · obtain ⟨flags, noted⟩ := exists_note extension (big8 w.pkt 0)
      rw [landing_complete extension complete] at number ⊢
      have going : big8 w.pkt 0 ≠ IPv6Ext.noNextHeader := by
        intro final
        rw [final, landing_stop fun is => absurd is (by decide)] at number
        exact more number.symm
      have next := next_complete complete noted going
      rw [walkHeaders_extension extension]
      rw [next] at ih ⊢
      exact ih number
    · rw [landing_stop fun _ => complete] at number
      have kind : w.nextHdr = upper.number := number
      rw [kind, other] at extension
      exact absurd extension (by decide)

private theorem reported_walkHeaders (more : w.nextHdr ≠ IPv6Ext.noNextHeader)
    (small : w.nextHdr < 256) (fresh : ∀ id ∈ upperIds, itemsOf id w.packet.list = []) :
    Reported upper segment (walkHeaders w).packet.list ↔
      Lands upper segment (landing w.nextHdr w.pkt) := by
  have landed (number : (landing w.nextHdr w.pkt).currHdr = upper.number) :
      itemsOf .ipProto (walkHeaders w).packet.list =
          [fieldItem .ipProto (bigBytes 1 upper.number)] ∧
        ∀ item ∈ upper.fields segment, item ∈ (walkHeaders w).packet.list ↔
          upper.size ≤ (landing w.nextHdr w.pkt).pkt.length ∧
            item ∈ upper.fields (landing w.nextHdr w.pkt).pkt := by
    obtain ⟨w', same, there, kept⟩ := exists_landed number
    rw [← there] at number ⊢
    have kind : w'.nextHdr = upper.number := number
    obtain ⟨more', last⟩ := upper_apart upper
    rw [same]
    constructor
    · rw [(leaves_walkHeaders (by decide) (kind ▸ last) (kind ▸ more')).1,
        itemsOf_addProtocol (kept ▸ fresh .ipProto (by decide)), kind]
    · intro item asked
      obtain ⟨id, is, apart, -, type⟩ := typed_fields asked
      have new : item ∉ w'.addProtocol.list := by
        intro old
        rw [HeaderWalk.addProtocol,
          Leaves.mem_iff (.addOrderedUnchecked (.refl id w'.packet) _ apart) type, kept] at old
        have listed : item ∈ itemsOf id w.packet.list :=
          List.mem_filter.mpr ⟨old, decide_eq_true type⟩
        rw [fresh id is] at listed
        exact absurd listed List.not_mem_nil
      rw [walkHeaders_upper kind]
      exact (mem_decode_iff asked _ _).trans (or_iff_right new)
  constructor
  · rintro ⟨protocol, fields⟩
    have number : (landing w.nextHdr w.pkt).currHdr = upper.number := by
      rw [protocol_walkHeaders more (fresh .ipProto (by decide))] at protocol
      split at protocol
      · cases protocol
      · have low := landing_lt small w.pkt
        have low' : upper.number < 256 := by cases upper <;> decide
        have payload : bigBytes 1 (landing w.nextHdr w.pkt).currHdr = bigBytes 1 upper.number :=
          congrArg Item.payload (List.cons.inj protocol).1
        have same := congrArg bigNat payload
        rwa [bigNat_bigBytes, bigNat_bigBytes, Nat.mod_eq_of_lt (by omega),
          Nat.mod_eq_of_lt (by omega)] at same
    have found := fun item asked => ((landed number).2 item asked).mp (fields item asked)
    refine ⟨number, ?_, fields_eq_of_subset fun item asked => (found item asked).2⟩
    obtain ⟨item, asked⟩ : ∃ item, item ∈ upper.fields segment := by
      cases upper <;> exact ⟨_, List.mem_cons_self⟩
    exact (found item asked).1
  · rintro ⟨number, enough, fields⟩
    refine ⟨(landed number).1, fun item asked => ((landed number).2 item asked).mpr ?_⟩
    exact ⟨enough, fields ▸ asked⟩

private theorem not_complete_landing (nextHdr : Nat) (pkt : Bytes)
    (extension : ipv6NextHeaderIsExtension (landing nextHdr pkt).currHdr = true) :
    ¬ (landing nextHdr pkt).Complete := by
  induction nextHdr, pkt using landing.induct with
  | case1 nextHdr pkt ahead ih =>
    rw [landing_complete ahead.1 ahead.2] at extension ⊢
    exact ih extension
  | case2 nextHdr pkt stop =>
    have here := landing_stop fun extension complete => stop ⟨extension, complete⟩
    rw [here] at extension ⊢
    exact fun complete => stop ⟨extension, complete⟩

/-- From inside an extension header that goes on in the segment, the walk comes out behind the
segment's start. -/
private theorem length_landing_lt {h : ExtHdr} (broken : ¬ h.Complete)
    (extension : ipv6NextHeaderIsExtension h.currHdr = true)
    (number : (landing h.currHdr (h.pkt ++ segment)).currHdr = upper.number) :
    (landing h.currHdr (h.pkt ++ segment)).pkt.length < segment.length := by
  by_cases complete : (ExtHdr.mk h.currHdr (h.pkt ++ segment)).Complete
  · have within : extHdrLen h.currHdr (h.pkt ++ segment) ≤ (h.pkt ++ segment).length := complete.2
    have beyond : h.pkt.length < extHdrLen h.currHdr (h.pkt ++ segment) := by
      by_cases short : h.pkt.length < 8
      · rw [extHdrLen]
        split <;> omega
      · have same : extHdrLen h.currHdr (h.pkt ++ segment) = extHdrLen h.currHdr h.pkt := by
          rw [extHdrLen, extHdrLen, big8_append _ (by omega)]
        rw [same]
        exact Nat.lt_of_not_le fun within => broken ⟨Nat.le_of_not_lt short, within⟩
    have less := length_landing (big8 (h.pkt ++ segment) 0)
      ((h.pkt ++ segment).drop (extHdrLen h.currHdr (h.pkt ++ segment)))
    rw [landing_complete extension complete]
    rw [List.length_drop] at less
    rw [List.length_append] at less within
    omega
  · rw [landing_stop fun _ => complete] at number
    have kind : h.currHdr = upper.number := number
    rw [kind, (upper_apart upper).2] at extension
    exact absurd extension (by decide)

private theorem first_byte {header header' : Bytes}
    (same : upper.fields header = upper.fields header') :
    big8 header 0 = big8 header' 0 := by
  have first : ∃ n, 0 < n ∧ window header 0 n = window header' 0 n := by
    cases upper with
    | tcp => exact ⟨2, by decide, congrArg Item.payload (List.cons.inj same).1⟩
    | udp => exact ⟨2, by decide, congrArg Item.payload (List.cons.inj same).1⟩
    | icmpv6 => exact ⟨1, by decide, congrArg Item.payload (List.cons.inj same).1⟩
  obtain ⟨n, positive, same⟩ := first
  rw [window, window, List.drop_zero, List.drop_zero] at same
  rw [← big8_take positive, same, big8_take positive]

/-- A walk that does not stop right behind the chain misses some segment. -/
private theorem lands_all_iff (nextHdr : Nat) (octets : Bytes) :
    (∀ segment, upper.size ≤ segment.length →
        Lands upper segment (landing nextHdr (octets ++ segment))) ↔
      landing nextHdr octets = ⟨upper.number, []⟩ := by
  have positive : 0 < upper.size := by cases upper <;> decide
  have final : ipv6NextHeaderIsExtension upper.number = false := (upper_apart upper).2
  simp only [landing_append nextHdr octets]
  have stopped := not_complete_landing nextHdr octets
  generalize landing nextHdr octets = h at stopped ⊢
  constructor
  · intro all
    by_cases extension : ipv6NextHeaderIsExtension h.currHdr = true
    · obtain ⟨number, enough, -⟩ := all (List.replicate upper.size 0) (by simp)
      have less := length_landing_lt (stopped extension) extension number
      rw [List.length_replicate] at less
      omega
    · have stay (segment : Bytes) := @landing_stop h.currHdr (h.pkt ++ segment)
        fun is => absurd is extension
      simp only [stay] at all
      have number := (all (List.replicate upper.size 0) (by simp)).1
      cases bytes : h.pkt with
      | nil =>
        exact congrArg₂ ExtHdr.mk number bytes
      | cons byte rest =>
        obtain ⟨-, -, fields⟩ := all (List.replicate upper.size (byte + 1)) (by simp)
        have same := first_byte fields
        obtain ⟨n, size⟩ := Nat.exists_eq_add_one.mpr positive
        rw [bytes, size, List.replicate_succ] at same
        have equal : byte = byte + 1 := UInt8.toNat.inj same
        exact absurd equal (by simp)
  · rintro rfl segment enough
    rw [landing_stop fun is => absurd (final.symm.trans is) (by decide)]
    exact ⟨rfl, enough, rfl⟩

end

/-- The upper layer behind a chain of complete extension headers is reported exactly when the
lengths that the decoder takes for the headers lead it to a header of the protocol with the same
fields. It is so whatever the segment exactly when they lead it to the end of the chain, and they
do when the authentication headers have the shortest length. -/
theorem upper_reported_iff (link header : Bytes) (upper : Upper) (chain : List Extension)
    (linked : IPv6Link link) (headed : IPv6Header header)
    (begins : big8 header 6 = firstNumber upper chain) :
    let list := fun segment =>
      (decode (link ++ (header ++ (chainOctets upper chain ++ segment)))).list
    (∀ segment, Reported upper segment (list segment) ↔ Lands upper segment
        (landing (firstNumber upper chain) (chainOctets upper chain ++ segment))) ∧
      ((∀ segment, upper.size ≤ segment.length → Reported upper segment (list segment)) ↔
        landing (firstNumber upper chain) (chainOctets upper chain) = ⟨upper.number, []⟩) ∧
      ((∀ e ∈ chain, e.kind = .auth → e.hdrLen = 0) →
        landing (firstNumber upper chain) (chainOctets upper chain) = ⟨upper.number, []⟩) := by
  intro list
  obtain ⟨small, more⟩ := firstNumber_lt upper chain
  have packet (segment : Bytes) : Reported upper segment (list segment) ↔ Lands upper segment
      (landing (firstNumber upper chain) (chainOctets upper chain ++ segment)) := by
    obtain ⟨s', fresh, position, same, typed⟩ :=
      decode_header linked headed (chainOctets upper chain ++ segment)
    have start : startWalk (chainOctets upper chain ++ segment) (big8 header 6) s' =
        ⟨firstNumber upper chain, chainOctets upper chain ++ segment, 0, s'⟩ := by
      rw [begins, startWalk, if_neg more]
    rw [← reported_walkHeaders
      (w := ⟨firstNumber upper chain, chainOctets upper chain ++ segment, 0, s'⟩) more small fresh]
    rw [decodeIPv6NextHdr, start] at same
    generalize walkHeaders _ = w at same ⊢
    have alike {id : InternalId} (is : id ∈ upperIds)
        (apart : InternalId.ipv6Exthdr.type ≠ id.type) :
        itemsOf id (list segment) = itemsOf id w.packet.list := by
      rw [show list segment = _ from same, itemsOf_decode is typed, leaves_reportFlags apart]
    refine and_congr (by rw [alike (by decide) (by decide)]) (forall₂_congr fun item asked => ?_)
    obtain ⟨id, is, -, apart, type⟩ := typed_fields asked
    have leaves : Leaves id w.packet ⟨list segment, 0⟩ := alike is apart
    exact leaves.mem_iff type
  refine ⟨packet, ?_, landing_chain⟩
  rw [← lands_all_iff]
  exact forall₂_congr fun segment _ => packet segment

/-- Behind a hop-by-hop header and a shortest authentication header, any UDP header. -/
theorem upper_reported_udp :
    let link : Bytes := List.replicate 12 0 ++ [0x86, 0xdd]
    let header : Bytes := [0x60, 0, 0, 0, 0, 24, 0, 64] ++ List.replicate 32 0
    let chain : List Extension := [⟨.hop, 0, List.replicate 6 0, rfl⟩,
      ⟨.auth, 0, List.replicate 6 0, rfl⟩]
    IPv6Link link ∧ IPv6Header header ∧ ∀ segment, 8 ≤ segment.length → Reported .udp segment
      (decode (link ++ (header ++ (chainOctets .udp chain ++ segment)))).list := by
  intro link header chain
  have linked : IPv6Link link := .inl (by decide)
  have headed : IPv6Header header := by decide
  obtain ⟨-, all, short⟩ := upper_reported_iff link header .udp chain linked headed (by decide)
  exact ⟨linked, headed, all.mpr (short (by decide))⟩

/-- An authentication header of twelve bytes: the decoder takes sixteen, and too little is left
for the TCP header. -/
theorem upper_missed : ∃ link header upper chain segment, IPv6Link link ∧ IPv6Header header ∧
    big8 header 6 = firstNumber upper chain ∧ upper.size ≤ segment.length ∧
    ∃ item ∈ upper.fields segment,
      item ∉ (decode (link ++ (header ++ (chainOctets upper chain ++ segment)))).list := by
  refine ⟨List.replicate 12 0 ++ [0x86, 0xdd],
    [0x60, 0, 0, 0, 0, 32, 51, 64] ++ List.replicate 32 0, .tcp,
    [⟨.auth, 1, List.replicate 10 0, rfl⟩], [0, 80] ++ List.replicate 18 0,
    .inl (by decide), by decide, by decide, by decide, fieldItem .tcpSrc [0, 80], by decide, ?_⟩
  decide +kernel

end Libofp.Packet.ExtensionChain
