/- GID: Libofp/Packet/WellFormed
   digest: Every byte string decodes to a list of fields that is well formed. -/

import Libofp.Packet.Decoder
import Libofp.Match.BlockSteps

set_option autoImplicit false

namespace Libofp.Packet.WellFormed

open Octets.ByteRange Octets.ByteList Octets.BigEndian
open Oxm.Range Oxm.FieldTable Oxm.FieldList Oxm.Prerequisites
open Oxm.PrerequisiteCheck Match.Builder Match.Needs Match.Blocks Match.BlockSteps Decoder

section

variable {list list' : List Item} {n : Need} {id : InternalId} {value : Bytes}

def Offers (list : List Item) (n : Need) : Prop :=
  ∃ value, fieldItem n.id value ∈ list ∧ n.accepts value = true

theorem Offers.mono (offer : Offers list n) (more : list ⊆ list') : Offers list' n := by
  obtain ⟨value, member, accepted⟩ := offer
  exact ⟨value, more member, accepted⟩

private theorem fieldItem_of_regular (regular : id.isExperimenter = false) :
    fieldItem id value = ⟨id.type, value⟩ := by
  rw [fieldItem, regular]
  rfl

theorem allMet_of_offers (all : ∀ n ∈ needs id, Offers list n) :
    AllMet id.prerequisites list := by
  intro preq listed
  rw [prerequisites_eq] at listed ⊢
  obtain ⟨n, needed, own⟩ := List.mem_flatMap.mp listed
  obtain ⟨value, member, accepted⟩ := all n needed
  rw [fieldItem_of_regular n.regular] at member
  obtain ⟨alternative, own', meets⟩ := metBy_value_iff.mpr ⟨rfl, accepted⟩
  refine ⟨alternative, List.mem_flatMap.mpr ⟨n, needed, own'⟩, ?_, _, member, meets⟩
  rw [type_of_mem_items own, type_of_mem_items own']

theorem eq_of_known {id' : InternalId} (known : Known (fieldItem id value) id') : id' = id := by
  obtain ⟨foreign, found⟩ := known
  have regular : id.isExperimenter = false := by
    rw [← isExperimenter_type]
    exact Bool.not_eq_true _ ▸ foreign
  exact Option.some.inj (found.symm.trans (lookupInfo_type regular))

end

section

variable {s s' : MatchPacket} {id : InternalId} {value : Bytes}

def valueSize (id : InternalId) : Nat := if id.isExperimenter then id.size - 4 else id.size

theorem sized_fieldItem (size : value.length = valueSize id) : Sized (fieldItem id value) := by
  have room : id.isExperimenter = true → 4 ≤ id.size := by cases id <;> decide
  rw [Sized, fieldItem, length_type]
  rw [valueSize] at size
  split
  · next foreign =>
    rw [if_pos foreign] at size
    have := room foreign
    rw [List.length_append, length_bigBytes, size]
    omega
  · next regular => rw [if_neg regular] at size; exact size

structure Sound (list : List Item) : Prop where
  typed : ∀ item ∈ list, item.type < 2 ^ 32 ∧ Sized item
  complete : ∀ before item after, list = before ++ item :: after → ∀ id, Known item id →
    AllMet id.prerequisites before

private theorem sound_nil : Sound [] where
  typed := by simp
  complete := by
    intro before item after split
    simp at split

private theorem allMet_mono {preqs list list' : List Item} (met : AllMet preqs list)
    (more : list ⊆ list') : AllMet preqs list' := by
  intro preq listed
  obtain ⟨alternative, alike, type, item, member, meets⟩ := met preq listed
  exact ⟨alternative, alike, type, item, more member, meets⟩

theorem Sound.insert {front back : List Item} (sound : Sound (front ++ back))
    (size : value.length = valueSize id) (offers : ∀ n ∈ needs id, Offers front n) :
    Sound (front ++ fieldItem id value :: back) where
  typed := by
    intro item member
    rcases List.mem_append.mp member with early | late
    · exact sound.typed item (List.mem_append_left _ early)
    · rcases List.mem_cons.mp late with rfl | late
      · exact ⟨(type_lt id).1, sized_fieldItem size⟩
      · exact sound.typed item (List.mem_append_right _ late)
  complete := by
    intro before item after split id' known
    rcases List.append_eq_append_iff.mp split with ⟨middle, rfl, tail⟩ | ⟨middle, rfl, tail⟩
    · cases middle with
      | nil =>
        obtain ⟨rfl, -⟩ := List.cons.inj tail
        rw [eq_of_known known, List.append_nil]
        exact allMet_of_offers offers
      | cons new middle =>
        -- The item came later already, with one item less before it.
        obtain ⟨rfl, rfl⟩ := List.cons.inj tail
        have older : AllMet id'.prerequisites (front ++ middle) :=
          sound.complete _ item after (by simp) id' known
        exact allMet_mono older (by simp)
    · cases middle with
      | nil =>
        obtain ⟨rfl, -⟩ := List.cons.inj tail
        rw [eq_of_known known]
        exact allMet_of_offers (by simpa using offers)
      | cons first middle =>
        obtain ⟨rfl, rfl⟩ := List.cons.inj tail
        exact sound.complete before _ (middle ++ back) (by simp) id' known

end

section

variable {s s' s'' : MatchPacket} {id : InternalId} {value : Bytes} {n m : Nat}

/-- What the decoders do with `n` bytes: the list grows and stays sound, and the offset moves
over at most as many bytes. -/
structure Reads (n : Nat) (s s' : MatchPacket) : Prop where
  kept : s.list ⊆ s'.list
  within : s'.offset ≤ s.offset + n
  sound : Sound s.list → Sound s'.list

namespace Reads

theorem refl (s : MatchPacket) : Reads 0 s s := ⟨List.Subset.refl _, Nat.le_refl _, id⟩

theorem trans (first : Reads n s s') (second : Reads m s' s'') : Reads (n + m) s s'' where
  kept := List.Subset.trans first.kept second.kept
  within := by
    have := first.within
    have := second.within
    omega
  sound := second.sound ∘ first.sound

theorem mono (reads : Reads n s s') (le : n ≤ m) : Reads m s s' :=
  { reads with within := by have := reads.within; omega }

theorem addUnchecked (reads : Reads n s s') (id : InternalId) (value : Bytes)
    (size : value.length = valueSize id) (offers : ∀ n ∈ needs id, Offers s.list n) :
    Reads n s (s'.addUnchecked id value) where
  kept := List.Subset.trans reads.kept (List.subset_append_left _ _)
  within := reads.within
  sound := by
    intro sound
    have whole : Sound (s'.list ++ []) := by
      rw [List.append_nil]
      exact reads.sound sound
    exact whole.insert size fun n needed => (offers n needed).mono reads.kept

theorem addNonzero (reads : Reads n s s') (id : InternalId) (number : Nat)
    (regular : id.isExperimenter = false)
    (offers : ∀ n ∈ needs id, Offers s.list n) : Reads n s (s'.addNonzero id number) := by
  rw [MatchPacket.addNonzero]
  split
  · exact reads.addUnchecked id _ (by simp [valueSize, regular]) offers
  · exact reads

theorem advance (reads : Reads n s s') (k : Nat) : Reads (n + k) s (s'.advance k) where
  kept := reads.kept
  within := by
    have := reads.within
    simp only [MatchPacket.advance]
    omega
  sound := reads.sound

end Reads

def low (item : Item) : Bool := item.type ≤ InternalId.ipProto.type

theorem reads_addProtocol {w : HeaderWalk} (early : Offers (w.packet.list.takeWhile low) ip) :
    Reads 0 w.packet w.addProtocol where
  kept := by
    intro item member
    rw [← List.takeWhile_append_dropWhile (p := low) (l := w.packet.list)] at member
    rcases List.mem_append.mp member with before | after
    · exact List.mem_append_left _ before
    · exact List.mem_append_right _ (List.mem_cons_of_mem _ after)
  within := Nat.le_refl _
  sound := by
    intro sound
    rw [← List.takeWhile_append_dropWhile (p := low) (l := w.packet.list)] at sound
    exact sound.insert (by simp [valueSize, InternalId.isExperimenter, InternalId.oxmClass,
      InternalId.size]) (by simpa [needs] using early)

end

section

variable {pkt : Bytes} {s : MatchPacket}

theorem reads_decodeTCP (offers : ∀ n ∈ [ip, protocol 6], Offers s.list n) :
    Reads pkt.length s (decodeTCP pkt s) := by
  rw [decodeTCP]
  split
  · exact (Reads.refl s).mono (Nat.zero_le _)
  · next room =>
    refine Reads.mono (n := 0 + 20) ?_ (by omega)
    refine Reads.advance (.addUnchecked (.addUnchecked (.addUnchecked (.refl s) .tcpSrc _ ?_ offers)
      .tcpDst _ ?_ offers) .nxTcpFlags _ ?_ offers) 20
    · exact length_window pkt (by omega)
    · exact length_window pkt (by omega)
    · exact length_bigBytes ..

theorem reads_decodeUDP (offers : ∀ n ∈ [ip, protocol 17], Offers s.list n) :
    Reads pkt.length s (decodeUDP pkt s) := by
  rw [decodeUDP]
  split
  · exact (Reads.refl s).mono (Nat.zero_le _)
  · next room =>
    refine Reads.mono (n := 0 + 8) ?_ (by omega)
    refine Reads.advance (.addUnchecked (.addUnchecked (.refl s) .udpSrc _ ?_ offers)
      .udpDst _ ?_ offers) 8
    all_goals exact length_window pkt (by omega)

private theorem reads_decodeICMPv4 (offers : ∀ n ∈ [ipv4, protocol 1], Offers s.list n) :
    Reads pkt.length s (decodeICMPv4 pkt s) := by
  rw [decodeICMPv4]
  split
  · exact (Reads.refl s).mono (Nat.zero_le _)
  · next room =>
    refine Reads.mono (n := 0 + 4) ?_ (by omega)
    refine Reads.advance (.addUnchecked (.addUnchecked (.refl s) .icmpv4Type _ ?_ offers)
      .icmpv4Code _ ?_ offers) 4
    all_goals exact length_window pkt (by omega)

private theorem length_findLLOption {ptr mac : Bytes} {option : Nat}
    (found : findLLOption ptr option = some mac) : mac.length = 6 := by
  fun_induction findLLOption ptr option with
  | case1 => cases found
  | case2 => cases found
  | case3 ptr room =>
    obtain rfl := Option.some.inj found
    exact length_window ptr (by omega)
  | case4 _ _ _ _ _ ih => exact ih found

private theorem reads_decodeLLOption (pkt : Bytes) (option : Nat) {id : InternalId}
    (size : valueSize id = 6) (offers : ∀ n ∈ needs id, Offers s.list n) :
    Reads pkt.length s (decodeLLOption pkt option id s) := by
  rw [decodeLLOption]
  split
  · next mac found =>
    have length : mac.length = valueSize id := (length_findLLOption found).trans size.symm
    exact (((Reads.refl s).addUnchecked id mac length offers).advance pkt.length).mono (by omega)
  · exact (Reads.refl s).mono (Nat.zero_le _)

private theorem reads_decodeICMPv6ND (pkt : Bytes) {type : Nat} (v6 : Offers s.list ipv6)
    (proto : Offers s.list (protocol 58)) (solicit : type = ICMPV6_TYPE_NEIGHBOR_SOLICIT ∨
      type = ICMPV6_TYPE_NEIGHBOR_ADVERTISE)
    (typed : fieldItem .icmpv6Type (bigBytes 1 type) ∈ s.list) :
    Reads pkt.length s (decodeICMPv6ND pkt type s) := by
  have target : ∀ n ∈ needs .ipv6NdTarget, Offers s.list n := by
    simp only [needs, List.forall_mem_cons]
    refine ⟨v6, proto, ⟨_, typed, ?_⟩, by simp⟩
    rcases solicit with rfl | rfl <;> decide
  rw [decodeICMPv6ND]
  split
  · exact (Reads.refl s).mono (Nat.zero_le _)
  · next room =>
    dsimp only
    generalize first : (if type = ICMPV6_TYPE_NEIGHBOR_ADVERTISE then
      s.addUnchecked .xIpv6NdRes (window pkt 0 4) else s) = s₁
    have reserved : Reads 0 s s₁ := by
      rw [← first]
      split
      · exact (Reads.refl s).addUnchecked _ _ (length_window pkt (by omega)) (by simp [needs])
      · exact .refl s
    have targeted := (reserved.addUnchecked .ipv6NdTarget (window pkt 4 16)
      (length_window pkt (by omega)) target).advance 20
    have link {option : Nat} {id : InternalId} (size : valueSize id = 6)
        (offers : ∀ n ∈ needs id, Offers s.list n) := targeted.trans
      (reads_decodeLLOption (pkt.drop 20) option size fun n needed =>
        (offers n needed).mono targeted.kept)
    have all : 0 + 20 + (pkt.drop 20).length ≤ pkt.length := by
      rw [List.length_drop]
      omega
    split
    · exact targeted.mono (by omega)
    · split
      · next is =>
        refine (link rfl ?_).mono all
        simp only [needs, List.forall_mem_cons]
        exact ⟨v6, proto, ⟨_, typed, by rw [is]; decide⟩, by simp⟩
      · split
        · next is =>
          refine (link rfl ?_).mono all
          simp only [needs, List.forall_mem_cons]
          exact ⟨v6, proto, ⟨_, typed, by rw [is]; decide⟩, by simp⟩
        · exact targeted.mono (by omega)

private theorem reads_decodeICMPv6 (v6 : Offers s.list ipv6) (proto : Offers s.list (protocol 58)) :
    Reads pkt.length s (decodeICMPv6 pkt s) := by
  have offers : ∀ n ∈ [ipv6, protocol 58], Offers s.list n := by
    simp only [List.forall_mem_cons]
    exact ⟨v6, proto, by simp⟩
  rw [decodeICMPv6]
  split
  · exact (Reads.refl s).mono (Nat.zero_le _)
  · next room =>
    have header : Reads (0 + 4) s (s |>.addUnchecked .icmpv6Type (window pkt 0 1)
        |>.addUnchecked .icmpv6Code (window pkt 1 1) |>.advance 4) := by
      refine .advance (.addUnchecked (.addUnchecked (.refl s) .icmpv6Type _ ?_ offers)
        .icmpv6Code _ ?_ offers) 4
      all_goals exact length_window pkt (by omega)
    dsimp only
    split
    · next discovery =>
      have typed : fieldItem .icmpv6Type (bigBytes 1 (big8 pkt 0)) ∈
          (s |>.addUnchecked .icmpv6Type (window pkt 0 1)
            |>.addUnchecked .icmpv6Code (window pkt 1 1) |>.advance 4).list := by
        rw [window_one (by omega)]
        simp [MatchPacket.addUnchecked, MatchPacket.advance]
      refine (header.trans (reads_decodeICMPv6ND (pkt.drop 4) (v6.mono header.kept)
        (proto.mono header.kept) discovery.2 typed)).mono ?_
      rw [List.length_drop]
      omega
    · exact header.mono (by omega)

end

section

variable {w : HeaderWalk}

theorem reads_nextIPv6ExtHdr (early : Offers (w.packet.list.takeWhile low) ip) :
    ∃ k, (nextIPv6ExtHdr w).pkt = w.pkt.drop k ∧ k ≤ w.pkt.length ∧
      Reads k w.packet (nextIPv6ExtHdr w).packet ∧
      ((nextIPv6ExtHdr w).nextHdr = IPv6Ext.noNextHeader ∨
        0 < k ∧ (nextIPv6ExtHdr w).packet.list = w.packet.list) := by
  rw [nextIPv6ExtHdr]
  split
  · exact ⟨0, rfl, Nat.zero_le _, reads_addProtocol early, .inl rfl⟩
  · next room =>
    dsimp only
    split
    · exact ⟨0, rfl, Nat.zero_le _, .refl _, .inl rfl⟩
    · next flags noted =>
      have positive := extHdrLen_pos w.nextHdr w.pkt
      generalize extHdrLen w.nextHdr w.pkt = k at positive ⊢
      split
      · exact ⟨0, rfl, Nat.zero_le _, .refl _, .inl rfl⟩
      · next inside =>
        have skipped := (Reads.refl w.packet).advance k
        split
        · next last =>
          refine ⟨k, rfl, by omega, ?_, .inl last⟩
          have added := skipped.trans (reads_addProtocol
            (w := ⟨big8 w.pkt 0, w.pkt.drop k, flags, w.packet.advance k⟩) early)
          exact added.mono (by omega)
        · exact ⟨k, rfl, by omega, skipped.mono (by omega), .inr ⟨positive, rfl⟩⟩

private theorem reads_walkHeaders (v6 : Offers w.packet.list ipv6)
    (early : w.nextHdr ≠ IPv6Ext.noNextHeader → Offers (w.packet.list.takeWhile low) ip) :
    Reads w.pkt.length w.packet (walkHeaders w).packet := by
  -- A transport header is decoded behind the protocol field that names it.
  have transport (w : HeaderWalk) (early : Offers (w.packet.list.takeWhile low) ip) :
      Reads 0 w.packet w.addProtocol ∧ Offers w.addProtocol.list ip ∧
        Offers w.addProtocol.list (protocol w.nextHdr) := by
    have added := reads_addProtocol early
    refine ⟨added, ?_, bigBytes 1 w.nextHdr, ?_, ?_⟩
    · exact (early.mono (List.takeWhile_subset _)).mono added.kept
    · simp [HeaderWalk.addProtocol, MatchPacket.addOrderedUnchecked, protocol, oneOf, Need.id]
    · simp [protocol, oneOf, Need.accepts, Choice.values, InternalId.size]
  fun_induction walkHeaders w with
  | case1 w done => exact (Reads.refl _).mono (Nat.zero_le _)
  | case2 w more tcp =>
    obtain ⟨added, isIp, proto⟩ := transport w (early more)
    rw [tcp] at proto
    refine (added.trans (reads_decodeTCP ?_)).mono (by omega)
    simp only [List.forall_mem_cons]
    exact ⟨isIp, proto, by simp⟩
  | case3 w more _ udp =>
    obtain ⟨added, isIp, proto⟩ := transport w (early more)
    rw [udp] at proto
    refine (added.trans (reads_decodeUDP ?_)).mono (by omega)
    simp only [List.forall_mem_cons]
    exact ⟨isIp, proto, by simp⟩
  | case4 w more _ _ icmp =>
    obtain ⟨added, -, proto⟩ := transport w (early more)
    rw [icmp] at proto
    exact (added.trans (reads_decodeICMPv6 (v6.mono added.kept) proto)).mono (by omega)
  | case5 w more _ _ _ extension shorter ih =>
    obtain ⟨k, rest, inside, reads, last⟩ := reads_nextIPv6ExtHdr (early more)
    have next := ih (v6.mono reads.kept) (by
      intro going
      rcases last with last | ⟨-, same⟩
      · exact absurd last going
      · rw [same]
        exact early more)
    refine (reads.trans next).mono ?_
    rw [rest, List.length_drop]
    omega
  | case6 w more _ _ _ extension stuck =>
    obtain ⟨k, -, inside, reads, -⟩ := reads_nextIPv6ExtHdr (early more)
    exact reads.mono inside
  | case7 w more => exact (reads_addProtocol (early more)).mono (Nat.zero_le _)

private theorem reads_reportFlags {flags : BitVec 32} {s : MatchPacket} (v6 : Offers s.list ipv6) :
    Reads 0 s (reportFlags flags s) := by
  rw [reportFlags]
  generalize (if flags &&& OFPIEH_DEST_ROUTER ≠ 0 then flags &&& 0x0ffff ||| OFPIEH_DEST
    else flags) = hdrFlags
  split
  · refine (Reads.refl s).addUnchecked .ipv6Exthdr _ (length_bigBytes ..) ?_
    simpa [needs] using v6
  · exact .refl s

private theorem reads_decodeIPv6NextHdr {pkt : Bytes} {nextHdr : Nat} {s : MatchPacket}
    (v6 : Offers s.list ipv6) (early : Offers (s.list.takeWhile low) ip) :
    Reads pkt.length s (decodeIPv6NextHdr pkt nextHdr s) := by
  have start : Reads 0 s (startWalk pkt nextHdr s).packet ∧
      (startWalk pkt nextHdr s).pkt = pkt ∧
      ((startWalk pkt nextHdr s).nextHdr ≠ IPv6Ext.noNextHeader →
        Offers ((startWalk pkt nextHdr s).packet.list.takeWhile low) ip) := by
    rw [startWalk]
    split
    · next last =>
      exact ⟨reads_addProtocol (w := ⟨nextHdr, pkt, 0, s⟩) early, rfl,
        fun going => absurd last going⟩
    · exact ⟨.refl s, rfl, fun _ => early⟩
  obtain ⟨started, rest, early⟩ := start
  have walked := started.trans (reads_walkHeaders (v6.mono started.kept) early)
  rw [rest, Nat.zero_add] at walked
  exact walked.trans (reads_reportFlags (v6.mono walked.kept))

end

section

variable {pkt : Bytes} {s : MatchPacket}

private theorem ip_of_ipv6 {list : List Item} (v6 : Offers list ipv6) : Offers list ip := by
  obtain ⟨value, member, accepted⟩ := v6
  refine ⟨value, member, ?_⟩
  simp [ipv6, ip, oneOf, Need.accepts, Choice.values] at accepted ⊢
  exact .inr accepted

theorem ip_of_ipv4 {list : List Item} (v4 : Offers list ipv4) : Offers list ip := by
  obtain ⟨value, member, accepted⟩ := v4
  refine ⟨value, member, ?_⟩
  simp [ipv4, ip, oneOf, Need.accepts, Choice.values] at accepted ⊢
  exact .inl accepted

private theorem early_of_prefix {list list' : List Item} {n : Need}
    (lows : ∀ item ∈ list, low item = true) (start : list <+: list') (offer : Offers list n) :
    Offers (list'.takeWhile low) n := by
  obtain ⟨more, rfl⟩ := start
  rw [List.takeWhile_append_of_pos lows]
  exact offer.mono (List.subset_append_left _ _)

theorem prefix_addUnchecked {list : List Item} (start : list <+: s.list) (id : InternalId)
    (value : Bytes) : list <+: (s.addUnchecked id value).list :=
  start.trans (List.prefix_append _ _)

theorem prefix_addNonzero {list : List Item} (start : list <+: s.list) (id : InternalId)
    (number : Nat) : list <+: (s.addNonzero id number).list := by
  rw [MatchPacket.addNonzero]
  split
  · exact prefix_addUnchecked start id _
  · exact start

private theorem reads_decodeIPv6 (v6 : Offers s.list ipv6)
    (lows : ∀ item ∈ s.list, low item = true) :
    Reads pkt.length s (decodeIPv6 pkt s) := by
  have isIp := ip_of_ipv6 v6
  have ips : ∀ n ∈ [ip], Offers s.list n := by simpa using isIp
  have v6s : ∀ n ∈ [ipv6], Offers s.list n := by simpa using v6
  rw [decodeIPv6]
  split
  · exact (Reads.refl s).mono (Nat.zero_le _)
  · next room =>
    dsimp only
    split
    · exact (Reads.refl s).mono (Nat.zero_le _)
    · generalize big32 pkt 0 = label
      have fields := Reads.refl s
        |>.addNonzero .ipDscp ((label >>> 20 &&& 0x0FF) >>> 2) rfl ips
        |>.addNonzero .ipEcn (label >>> 20 &&& 0x0FF &&& 0x03) rfl ips
        |>.addUnchecked .nxIpTtl (window pkt 7 1) (length_window pkt (by omega)) ips
        |>.addUnchecked .ipv6Src (window pkt 8 16) (length_window pkt (by omega)) v6s
        |>.addUnchecked .ipv6Dst (window pkt 24 16) (length_window pkt (by omega)) v6s
        |>.addNonzero .ipv6Flabel (label &&& 0x000FFFFF) rfl v6s
        |>.advance 40
      refine (fields.trans (reads_decodeIPv6NextHdr (v6.mono fields.kept) ?_)).mono ?_
      · refine early_of_prefix lows ?_ isIp
        exact prefix_addNonzero (prefix_addUnchecked (prefix_addUnchecked (prefix_addUnchecked
          (prefix_addNonzero (prefix_addNonzero List.prefix_rfl _ _) _ _) _ _) _ _) _ _) _ _
      · rw [List.length_drop]
        omega

private theorem reads_decodeIPv4NextHdr {nextHdr : Nat} (v4 : Offers s.list ipv4)
    (proto : fieldItem .ipProto (bigBytes 1 nextHdr) ∈ s.list) :
    Reads pkt.length s (decodeIPv4NextHdr pkt nextHdr s) := by
  have isIp := ip_of_ipv4 v4
  have named (k : Nat) (is : nextHdr = k) : Offers s.list (protocol k) := by
    subst is
    exact ⟨_, proto, by simp [protocol, oneOf, Need.accepts, Choice.values, InternalId.size]⟩
  rw [decodeIPv4NextHdr.eq_def]
  split
  · refine reads_decodeICMPv4 ?_
    simp only [List.forall_mem_cons]
    exact ⟨v4, named 1 rfl, by simp⟩
  · refine reads_decodeTCP ?_
    simp only [List.forall_mem_cons]
    exact ⟨isIp, named 6 rfl, by simp⟩
  · refine reads_decodeUDP ?_
    simp only [List.forall_mem_cons]
    exact ⟨isIp, named 17 rfl, by simp⟩
  · exact (Reads.refl s).mono (Nat.zero_le _)

private theorem reads_addIPv4Fields (frag : Nat) (room : 20 ≤ pkt.length)
    (v4 : Offers s.list ipv4) :
    Reads 0 s (addIPv4Fields pkt frag s) := by
  have ips : ∀ n ∈ [ip], Offers s.list n := by simpa using ip_of_ipv4 v4
  have v4s : ∀ n ∈ [ipv4], Offers s.list n := by simpa using v4
  have addresses := Reads.refl s
    |>.addNonzero .ipDscp (big8 pkt 1 >>> 2) rfl ips
    |>.addNonzero .ipEcn (big8 pkt 1 &&& 0x03) rfl ips
    |>.addUnchecked .ipProto (window pkt 9 1) (length_window pkt (by omega)) ips
    |>.addUnchecked .ipv4Src (window pkt 12 4) (length_window pkt (by omega)) v4s
    |>.addUnchecked .ipv4Dst (window pkt 16 4) (length_window pkt (by omega)) v4s
  refine Reads.addUnchecked ?_ .nxIpTtl _ (length_window pkt (by omega)) ips
  split
  · exact addresses.addUnchecked .nxIpFrag _ (length_bigBytes ..) ips
  · exact addresses

private theorem proto_mem_addIPv4Fields (frag : Nat) (s : MatchPacket) (room : 20 ≤ pkt.length) :
    fieldItem .ipProto (bigBytes 1 (big8 pkt 9)) ∈ (addIPv4Fields pkt frag s).list := by
  rw [← window_one (by omega), addIPv4Fields]
  split <;> simp [MatchPacket.addUnchecked]

private theorem reads_decodeIPv4 (v4 : Offers s.list ipv4) :
    Reads pkt.length s (decodeIPv4 pkt s) := by
  rw [decodeIPv4]
  have none := (Reads.refl s).mono (Nat.zero_le pkt.length)
  split
  · exact none
  · next room =>
    dsimp only
    generalize (big8 pkt 0 &&& 0x0F) * 4 = hdrLen
    generalize big16 pkt 6 &&& 0x3fff = frag
    split
    · exact none
    split
    · exact none
    split
    · exact none
    split
    · exact none
    · next inside whole =>
      have fields := (reads_addIPv4Fields frag (Nat.le_of_not_lt room) v4).advance hdrLen
      split
      · exact fields.mono (by omega)
      · refine (fields.trans (reads_decodeIPv4NextHdr (v4.mono fields.kept)
          (proto_mem_addIPv4Fields frag s (Nat.le_of_not_lt room)))).mono ?_
        rw [List.length_drop]
        split
        · rw [List.length_take]
          omega
        · omega

private theorem reads_decodeARP (arp : Offers s.list (oneOf .ethType rfl 0x0806 [])) :
    Reads pkt.length s (decodeARP pkt s) := by
  have arps : ∀ n ∈ [oneOf .ethType rfl 0x0806 []], Offers s.list n := by simpa using arp
  rw [decodeARP]
  split
  · exact (Reads.refl s).mono (Nat.zero_le _)
  · next room =>
    split
    · exact (Reads.refl s).mono (Nat.zero_le _)
    · have fields := Reads.refl s
        |>.addUnchecked .arpOp (window pkt 6 2) (length_window pkt (by omega)) arps
        |>.addUnchecked .arpSpa (window pkt 14 4) (length_window pkt (by omega)) arps
        |>.addUnchecked .arpTpa (window pkt 24 4) (length_window pkt (by omega)) arps
        |>.addUnchecked .arpSha (window pkt 8 6) (length_window pkt (by omega)) arps
        |>.addUnchecked .arpTha (window pkt 18 6) (length_window pkt (by omega)) arps
        |>.advance 28
      dsimp only
      split
      · refine (fields.advance (pkt.drop 28).length).mono ?_
        rw [List.length_drop]
        omega
      · exact fields.mono (by omega)

end

section

variable {pkt : Bytes} {s : MatchPacket}

theorem length_lldpValue (data : Bytes) : (lldpValue data).length = 64 := by
  simp only [lldpValue, List.length_cons, List.length_append, List.length_take,
    List.length_replicate]
  omega

private theorem length_lastTwo (data : Bytes) : (lastTwo data).length = 2 := by
  simp only [lastTwo, List.length_drop, List.length_append, List.length_cons, List.length_nil]
  omega

private theorem reads_addTlv (pkt : Bytes) (s : MatchPacket) : Reads 0 s (addTlv pkt s) := by
  have value {id : InternalId} (size : valueSize id = 64) (free : needs id = []) :
      Reads 0 s (s.addUnchecked id (lldpValue (LLDPTlv.value pkt))) :=
    (Reads.refl s).addUnchecked id _ ((length_lldpValue _).trans size.symm) (by simp [free])
  rw [addTlv.eq_def]
  split
  · exact value rfl rfl
  · exact value rfl rfl
  · exact (Reads.refl s).addUnchecked .xLldpTtl _ (length_lastTwo _) (by simp [needs])
  · exact value rfl rfl
  · exact value rfl rfl
  · exact value rfl rfl
  · exact .refl s

theorem reads_decodeLLDP : Reads pkt.length s (decodeLLDP pkt s) := by
  fun_induction decodeLLDP pkt s with
  | case1 | case2 | case3 => exact (Reads.refl _).mono (Nat.zero_le _)
  | case4 pkt s => exact ((Reads.refl s).advance pkt.length).mono (by omega)
  | case5 pkt s _ _ jumpSize inside _ ih =>
    have step := (reads_addTlv pkt s).advance jumpSize
    refine (step.trans ih).mono ?_
    rw [List.length_drop]
    omega

theorem offers_ethType (ethType : Nat) {others : List Nat} {first : Nat}
    (listed : ethType ∈ first :: others) :
    Offers (s.addUnchecked .ethType (bigBytes 2 ethType)).list
      (oneOf .ethType rfl first others) := by
  refine ⟨bigBytes 2 ethType, ?_, ?_⟩
  · simp [MatchPacket.addUnchecked, oneOf, Need.id]
  · simp only [oneOf, Need.accepts, Choice.values, InternalId.size, ← List.map_cons,
      List.contains_iff_mem]
    exact List.mem_map_of_mem listed

theorem low_addUnchecked (id : InternalId) (value : Bytes)
    (lows : ∀ item ∈ s.list, low item = true) (small : id.type ≤ InternalId.ipProto.type) :
    ∀ item ∈ (s.addUnchecked id value).list, low item = true := by
  intro item member
  rcases List.mem_append.mp member with old | new
  · exact lows item old
  · obtain rfl := List.mem_singleton.mp new
    exact decide_eq_true small

theorem reads_decodeEthType {ethType : Nat} (lows : ∀ item ∈ s.list, low item = true) :
    Reads pkt.length s (decodeEthType ethType pkt s) := by
  have typed : Reads 0 s (s.addUnchecked .ethType (bigBytes 2 ethType)) :=
    (Reads.refl s).addUnchecked .ethType _ (length_bigBytes ..) (by simp [needs])
  have then' {s' : MatchPacket}
      (next : Reads pkt.length (s.addUnchecked .ethType (bigBytes 2 ethType)) s') :
      Reads pkt.length s s' := (typed.trans next).mono (by omega)
  rw [decodeEthType.eq_def]
  split
  · exact then' (reads_decodeARP (offers_ethType _ (by simp)))
  · exact then' (reads_decodeIPv4 (offers_ethType _ (by simp)))
  · exact then' (reads_decodeIPv6 (offers_ethType _ (by simp))
      (low_addUnchecked _ _ lows (by decide)))
  · exact then' reads_decodeLLDP
  · exact then' reads_decodeLLDP
  · exact typed.mono (Nat.zero_le _)

theorem present_eq (tci : Nat) : (tci &&& 0x0FFF) ||| OFPVID_PRESENT = 4096 + tci % 4096 := by
  have masked : tci &&& 0x0FFF = tci % 4096 := Nat.and_two_pow_sub_one_eq_mod tci 12
  rw [masked, Nat.or_comm]
  exact (Nat.two_pow_add_eq_or_of_lt (i := 12) (Nat.mod_lt _ (by decide)) 1).symm

private theorem accepts_present (tci : Nat) :
    (under .vlanVid rfl 0x1000 0x1000).accepts
      (bigBytes 2 ((tci &&& 0x0FFF) ||| OFPVID_PRESENT)) = true := by
  have high : ∀ k < 16, UInt8.ofNat (16 + k) &&& 16 = 16 := by decide
  have byte : (4096 + tci % 4096) / 256 = 16 + tci % 4096 / 256 := by omega
  have present := high (tci % 4096 / 256) (by omega)
  rw [← byte] at present
  rw [present_eq]
  simp only [under, Need.accepts, InternalId.size, bigBytes, List.zipWith_cons_cons,
    List.zipWith_nil_left, Nat.pow_one, Nat.pow_zero, Nat.div_one, beq_iff_eq]
  refine congrArg₂ List.cons present (congrArg₂ List.cons ?_ rfl)
  exact UInt8.and_zero

private theorem reads_decodeVlan (lows : ∀ item ∈ s.list, low item = true) :
    Reads pkt.length s (decodeVlan pkt s) := by
  rw [decodeVlan]
  split
  · exact ((Reads.refl s).addUnchecked .ethType _ (length_bigBytes ..) (by simp [needs])).mono
      (Nat.zero_le _)
  · next room =>
    dsimp only
    generalize big16 pkt 0 = tci
    generalize tagged : s.addUnchecked .vlanVid
      (bigBytes 2 ((tci &&& 0x0FFF) ||| OFPVID_PRESENT)) = s₁
    have vid : Reads 0 s s₁ := by
      rw [← tagged]
      exact (Reads.refl s).addUnchecked .vlanVid _ (length_bigBytes ..) (by simp [needs])
    have offers : ∀ n ∈ needs .vlanPcp, Offers s₁.list n := by
      simp only [needs, List.mem_singleton, forall_eq]
      refine ⟨_, ?_, accepts_present tci⟩
      rw [← tagged]
      simp [MatchPacket.addUnchecked, under, Need.id]
    have tag := (vid.trans ((Reads.refl s₁).addNonzero .vlanPcp (tci >>> 13) rfl offers)).advance 4
    refine (tag.trans (reads_decodeEthType ?_)).mono ?_
    · have lows₁ : ∀ item ∈ s₁.list, low item = true := by
        rw [← tagged]
        exact low_addUnchecked _ _ lows (by decide)
      rw [MatchPacket.advance, MatchPacket.addNonzero]
      split
      · exact low_addUnchecked _ _ lows₁ (by decide)
      · exact lows₁
    · rw [List.length_drop]
      omega

private theorem reads_decodeEthernet (pkt : Bytes) :
    Reads pkt.length ⟨[], 0⟩ (decodeEthernet pkt ⟨[], 0⟩) := by
  rw [decodeEthernet]
  split
  · exact (Reads.refl _).mono (Nat.zero_le _)
  · next room =>
    have addresses := Reads.refl ⟨[], 0⟩
      |>.addUnchecked .ethDst (window pkt 0 6) (length_window pkt (by omega)) (by simp [needs])
      |>.addUnchecked .ethSrc (window pkt 6 6) (length_window pkt (by omega)) (by simp [needs])
      |>.advance 14
    have lows := low_addUnchecked .ethSrc (window pkt 6 6) (low_addUnchecked (s := ⟨[], 0⟩)
      .ethDst (window pkt 0 6) (by simp) (by decide)) (by decide)
    have all : 0 + 14 + (pkt.drop 14).length ≤ pkt.length := by
      rw [List.length_drop]
      omega
    dsimp only
    split
    · exact (addresses.trans (reads_decodeVlan lows)).mono all
    · exact (addresses.trans (reads_decodeEthType lows)).mono all

private theorem reads_decode (pkt : Bytes) : Reads pkt.length ⟨[], 0⟩ (decode pkt) := by
  have frame := reads_decodeEthernet pkt
  rw [decode]
  split
  · exact frame.addUnchecked .xPktPos _ (length_bigBytes ..) (by simp [needs])
  · exact frame

end

private theorem validateLoop_toRange {list : List Item}
    (typed : ∀ item ∈ list, item.type < 2 ^ 32 ∧ Sized item) {turns : Nat}
    (enough : (toRange list).length ≤ turns) : validateLoop turns (toRange list) = true := by
  induction list generalizing turns with
  | nil => cases turns <;> rfl
  | cons item list ih =>
    obtain ⟨⟨bound, size⟩, typed⟩ := List.forall_mem_cons.mp typed
    have encoded : toRange (item :: list) = item.encode ++ toRange list := rfl
    have header : 4 ≤ item.encode.length := by simp [Item.encode]
    rw [encoded, List.length_append] at enough
    cases turns with
    | zero => omega
    | succ turns =>
      have field : fieldSize (item.encode ++ toRange list) = item.encode.length := by
        rw [fieldSize, big8_append _ (by omega)]
        simp only [Sized, OXMType.length] at size
        simp [Item.encode, bigBytes, big8, size]
        omega
      rw [validateLoop, encoded, field, List.drop_left, List.length_append, if_neg, if_neg,
        if_neg, ih typed (by omega)]
      · omega
      · omega
      · simp [Item.encode, bigBytes]

/-- Every byte string decodes to an offset inside it and to a well-formed list, in which each
known field has all its prerequisites before it. -/
theorem decode_wellFormed (pkt : Bytes) :
    (decode pkt).offset ≤ pkt.length ∧
      validateInput (toRange (decode pkt).list) = true ∧
      ∀ before item, before ++ [item] <+: items (toRange (decode pkt).list) →
        ∀ id, Known item id → AllMet id.prerequisites before := by
  have reads := reads_decode pkt
  have sound : Sound (decode pkt).list := reads.sound sound_nil
  refine ⟨by simpa using reads.within, validateLoop_toRange sound.typed (Nat.le_refl _), ?_⟩
  rw [items_toRange (fun item member => (sound.typed item member).1)
    (fun item member => (sound.typed item member).2)]
  rintro before item ⟨after, split⟩ id known
  exact sound.complete before item after (by simpa using split.symm) id known

end Libofp.Packet.WellFormed
