/- GID: Libofp/Packet/ExtensionFlags
   digest: The summary of the IPv6 extension headers. -/

import Libofp.Base.RankedFlags
import Libofp.Packet.ExtensionWalk
import Mathlib.Tactic.IntervalCases

set_option autoImplicit false

namespace Libofp.Packet.ExtensionFlags

open Octets.ByteRange Octets.BigEndian
open Oxm.Range Decoder PacketList ExtensionWalk Base.RankedFlags

def kinds : List Nat := [IPv6Ext.hop, IPv6Ext.dest, IPv6Ext.router, IPv6Ext.fragment,
  IPv6Ext.auth, IPv6Ext.esp]

def flagOf : Nat → BitVec 32
  | IPv6Ext.hop => OFPIEH_HOP
  | IPv6Ext.dest => OFPIEH_DEST
  | IPv6Ext.router => OFPIEH_ROUTER
  | IPv6Ext.fragment => OFPIEH_FRAG
  | IPv6Ext.auth => OFPIEH_AUTH
  | _ => OFPIEH_ESP

/-- The place of a header in the order of RFC 2460. A destination header has two places, one
just before a routing header and one at the end. -/
def rank (kind : Nat) (routed : Bool) : Nat :=
  match kind with
  | IPv6Ext.hop => 1
  | IPv6Ext.dest => if routed then 2 else 7
  | IPv6Ext.router => 3
  | IPv6Ext.fragment => 4
  | IPv6Ext.auth => 5
  | _ => 6

def ranks : List Nat → List Nat
  | [] => []
  | kind :: later => rank kind (later.head? == some IPv6Ext.router) :: ranks later

/-- The value of the `IPV6_EXTHDR` field of a list, 0 without one. -/
def exthdr (list : List Item) : BitVec 32 :=
  match itemsOf .ipv6Exthdr list with
  | [] => 0
  | item :: _ => BitVec.ofNat 32 (big16 item.payload 0)

section

def place : Nat → Nat
  | 1 => 6
  | 2 => 31
  | 3 => 5
  | 4 => 4
  | 5 => 2
  | 6 => 1
  | _ => 3

def layout : Layout Nat 32 where
  valid r := 1 ≤ r ∧ r ≤ 7
  place := place
  twice := 7
  late := 8
  place_lt := by
    rintro r ⟨low, high⟩
    interval_cases r <;> decide
  twice_lt := by decide
  late_lt := by decide
  place_inj := by
    have table : ∀ r < 8, ∀ s < 8, 1 ≤ r → 1 ≤ s → place r = place s → r = s := by decide
    rintro r s ⟨lowR, highR⟩ ⟨lowS, highS⟩ same
    exact table r (by omega) s (by omega) lowR lowS same
  place_ne_twice := by
    rintro r ⟨low, high⟩
    interval_cases r <;> decide
  place_ne_late := by
    rintro r ⟨low, high⟩
    interval_cases r <;> decide
  twice_ne_late := by decide

private theorem below_of_table {r : Nat} {mask : BitVec 32}
    (table : ∀ s < 8, 1 ≤ s → (mask.getLsbD (place s) = true ↔ s < r)) : Below layout r mask where
  marks := fun s valid => table s (by have := valid.2; omega) valid.1

theorem valid_rank (kind : Nat) (routed : Bool) : layout.valid (rank kind routed) := by
  show 1 ≤ rank kind routed ∧ rank kind routed ≤ 7
  rw [rank.eq_def]
  split
  case h_2 => cases routed <;> decide
  all_goals decide

/-- The next header is known to come too late: a destination header that has its last place is
not the last one. -/
def Hastens (kind nextHdr : Nat) : Prop :=
  kind = IPv6Ext.dest ∧ nextHdr ≠ IPv6Ext.router ∧ ipv6NextHeaderIsExtension nextHdr = true

variable {seen : List Nat} {ahead : Prop} {flags flags' : BitVec 32} {kind nextHdr : Nat}

private theorem counted_note (counted : Counted layout seen ahead flags) (known : kind ∈ kinds)
    (noted : noteIPv6ExtHdr kind nextHdr flags = some flags') :
    Counted layout (seen ++ [rank kind (nextHdr == IPv6Ext.router)]) (Hastens kind nextHdr)
      flags' := by
  have quiet (r : Nat) {mask : BitVec 32} (low : 1 ≤ r) (high : r ≤ 7)
      (table : ∀ s < 8, 1 ≤ s → (mask.getLsbD (place s) = true ↔ s < r))
      (calm : ¬ Hastens kind nextHdr) :
      Counted layout (seen ++ [r]) (Hastens kind nextHdr) (layout.count mask flags r) := by
    rw [eq_false calm]
    exact counted.count ⟨low, high⟩ (below_of_table table)
  simp only [kinds, List.mem_cons, List.not_mem_nil, or_false] at known
  rcases known with rfl | rfl | rfl | rfl | rfl | rfl
  case inr.inl =>
    rw [noteIPv6ExtHdr] at noted
    split at noted
    · next routed =>
      obtain rfl := Option.some.inj noted
      subst routed
      exact quiet 2 (by decide) (by decide) (by decide) (fun is => is.2.1 rfl)
    · next other =>
      have plain : (nextHdr == IPv6Ext.router) = false := by simpa using other
      rw [plain]
      split at noted
      · next last =>
        obtain rfl := Option.some.inj noted
        exact quiet 7 (by decide) (by decide) (by decide) (fun is => last is.2.2)
      · next more =>
        obtain rfl := Option.some.inj noted
        exact counted.hasten (valid_rank IPv6Ext.dest false) ⟨rfl, other, not_not.mp more⟩
          fun s valid => valid.2
  all_goals obtain rfl := Option.some.inj noted
  · exact quiet 1 (by decide) (by decide) (by decide) (fun is => absurd is.1 (by decide))
  · exact quiet 3 (by decide) (by decide) (by decide) (fun is => absurd is.1 (by decide))
  · exact quiet 4 (by decide) (by decide) (by decide) (fun is => absurd is.1 (by decide))
  · exact quiet 5 (by decide) (by decide) (by decide) (fun is => absurd is.1 (by decide))
  · exact quiet 6 (by decide) (by decide) (by decide) (fun is => absurd is.1 (by decide))

end

section

variable {w : HeaderWalk} {seen : List Nat} {ahead : Prop}

def kindsAhead (w : HeaderWalk) : List Nat := (visits w).map ExtHdr.currHdr

theorem kindsAhead_extension (extension : ipv6NextHeaderIsExtension w.nextHdr = true) :
    kindsAhead w = w.nextHdr :: kindsAhead (nextIPv6ExtHdr w) := by
  rw [kindsAhead, visits_extension extension]
  rfl

private theorem head_kindsAhead (w : HeaderWalk) :
    ((kindsAhead w).head? == some IPv6Ext.router) = (w.nextHdr == IPv6Ext.router) := by
  cases extension : ipv6NextHeaderIsExtension w.nextHdr with
  | true =>
    rw [kindsAhead_extension extension]
    rfl
  | false =>
    have other : w.nextHdr ≠ IPv6Ext.router := by
      intro is
      rw [is] at extension
      exact absurd extension (by decide)
    rw [kindsAhead, visits_last extension, beq_eq_false_iff_ne.mpr other]
    rfl

private theorem nextHdr_next {flags : BitVec 32} (complete : (front w).Complete)
    (noted : noteIPv6ExtHdr w.nextHdr (big8 w.pkt 0) w.flags = some flags) :
    (nextIPv6ExtHdr w).nextHdr = big8 w.pkt 0 := by
  by_cases none : big8 w.pkt 0 = IPv6Ext.noNextHeader
  · rw [next_final complete noted none]
    rfl
  · rw [next_complete complete noted none]
    rfl

/-- The walk counts the ranks of the headers that it visits. At its end there may be the bit
for a chain without an upper layer. -/
private theorem counted_walkHeaders (all : ∀ h ∈ visits w, h.Complete ∧ h.currHdr ∈ kinds)
    (counted : Counted layout seen ahead w.flags)
    (going : ahead → ipv6NextHeaderIsExtension w.nextHdr = true)
    (more : w.nextHdr ≠ IPv6Ext.noNextHeader) :
    Leaves .ipv6Exthdr w.packet (walkHeaders w).packet ∧ ∃ flags nonext,
      (walkHeaders w).flags = flags ||| nonext ∧ (nonext = 0 ∨ nonext = OFPIEH_NONEXT) ∧
      Counted layout (seen ++ ranks (kindsAhead w)) False flags := by
  induction w using walk_induction generalizing seen ahead with
  | last w last =>
    obtain ⟨leaves, same⟩ := @leaves_walkHeaders w .ipv6Exthdr (by decide) last more
    have quiet : ahead = False := eq_false fun is => by
      rw [last] at going
      cases going is
    have added : Leaves .ipv6Exthdr w.packet w.addProtocol :=
      .addOrderedUnchecked (.refl _ _) _ (by decide)
    refine ⟨added.trans leaves, w.flags, 0, same.trans BitVec.or_zero.symm, .inl rfl, ?_⟩
    rw [kindsAhead, visits_last last, ← quiet]
    simpa [ranks] using counted
  | extension w extension ih =>
    rw [visits_extension extension, List.forall_mem_cons] at all
    obtain ⟨⟨complete, known⟩, later⟩ := all
    obtain ⟨flags, noted⟩ := exists_note extension (big8 w.pkt 0)
    have first : Counted layout (seen ++ [rank w.nextHdr (big8 w.pkt 0 == IPv6Ext.router)])
        (Hastens w.nextHdr (big8 w.pkt 0)) flags := counted_note counted known noted
    have ranked : seen ++ ranks (kindsAhead w) = seen ++
        [rank w.nextHdr (big8 w.pkt 0 == IPv6Ext.router)] ++
          ranks (kindsAhead (nextIPv6ExtHdr w)) := by
      rw [kindsAhead_extension extension, ranks, head_kindsAhead, nextHdr_next complete noted,
        List.append_assoc]
      rfl
    rw [walkHeaders_extension extension, ranked]
    by_cases none : big8 w.pkt 0 = IPv6Ext.noNextHeader
    · have ended := nextHdr_final complete noted none
      have nothing : kindsAhead (nextIPv6ExtHdr w) = [] := by
        rw [kindsAhead, visits_last (by rw [ended]; decide)]
        rfl
      have quiet : Hastens w.nextHdr (big8 w.pkt 0) = False := eq_false fun is => by
        rw [none] at is
        exact absurd is.2.2 (by decide)
      rw [walkHeaders_done ended, nothing, next_final complete noted none]
      refine ⟨.addOrderedUnchecked (.refl _ _) _ (by decide), flags, OFPIEH_NONEXT, rfl,
        .inr rfl, ?_⟩
      rw [quiet] at first
      simpa [ranks] using first
    · have next := next_complete complete noted none
      rw [next] at ih later ⊢
      exact ih later first (fun is => is.2.2) none

end

section

variable {flags nonext : BitVec 32} {seen : List Nat}

def reported (hdrFlags : BitVec 32) : BitVec 32 :=
  if hdrFlags &&& OFPIEH_DEST_ROUTER ≠ 0 then hdrFlags &&& 0x0ffff ||| OFPIEH_DEST else hdrFlags

theorem getLsbD_reported (hdrFlags : BitVec 32) {i : Nat} (low : i < 16) :
    (reported hdrFlags).getLsbD i = true ↔
      hdrFlags.getLsbD i = true ∨ i = 3 ∧ hdrFlags.getLsbD 31 = true := by
  have marker : OFPIEH_DEST_ROUTER = BitVec.twoPow 32 31 := by decide
  have flag : OFPIEH_DEST = BitVec.twoPow 32 3 := by decide
  have mask : ∀ i < 16, (0x0ffff : BitVec 32).getLsbD i = true := by decide
  rw [reported, marker]
  split
  · next nonzero =>
    have set := (and_twoPow_ne_zero_iff (by decide)).mp nonzero
    rw [getLsbD_or_iff, flag, getLsbD_twoPow_iff (by decide), BitVec.getLsbD_and, mask i low,
      Bool.and_true, set]
    simp
  · next zero =>
    have clear := mt (and_twoPow_ne_zero_iff (by decide)).mpr zero
    exact ⟨.inl, fun either => either.resolve_right fun both => clear both.2⟩

private theorem exthdr_reportFlags {s : MatchPacket} (fresh : itemsOf .ipv6Exthdr s.list = [])
    (hdrFlags : BitVec 32) : (itemsOf .ipv6Exthdr (reportFlags hdrFlags s).list).length ≤ 1 ∧
      ∀ i < 16, (exthdr (reportFlags hdrFlags s).list).getLsbD i =
        (reported hdrFlags).getLsbD i := by
  have unfolded : reportFlags hdrFlags s = if reported hdrFlags ≠ 0 then
      s.addUnchecked .ipv6Exthdr (bigBytes 2 (reported hdrFlags).toNat) else s := rfl
  rw [unfolded]
  generalize reported hdrFlags = word
  split
  · have only := itemsOf_addUnchecked .ipv6Exthdr (bigBytes 2 word.toNat) s
    rw [fresh, List.nil_append] at only
    rw [exthdr, only]
    refine ⟨Nat.le_refl 1, ?_⟩
    intro i low
    have value : big16 (fieldItem .ipv6Exthdr (bigBytes 2 word.toNat)).payload 0 =
        word.toNat % 2 ^ 16 := big16_bigBytes _
    show (BitVec.ofNat 32 (big16 (fieldItem .ipv6Exthdr (bigBytes 2 word.toNat)).payload 0)).getLsbD
      i = _
    rw [value, BitVec.getLsbD_ofNat, Nat.testBit_mod_two_pow]
    simp [low, BitVec.testBit_toNat]
    omega
  · next zero =>
    rw [exthdr, fresh]
    rw [not_not.mp zero]
    exact ⟨Nat.zero_le 1, fun i _ => rfl⟩

theorem getLsbD_nonext (is : nonext = 0 ∨ nonext = OFPIEH_NONEXT) {i : Nat} (positive : i ≠ 0) :
    (flags ||| nonext).getLsbD i = flags.getLsbD i := by
  have clear : nonext.getLsbD i = false := by
    have bit : OFPIEH_NONEXT = BitVec.twoPow 32 0 := by decide
    rcases is with rfl | rfl
    · exact BitVec.getLsbD_zero
    · rwa [Bool.eq_false_iff, ne_eq, bit, getLsbD_twoPow_iff (by decide)]
  rw [BitVec.getLsbD_or, clear, Bool.or_false]

private theorem rank_inj {kind kind' : Nat} (known : kind ∈ kinds) (known' : kind' ∈ kinds)
    {routed routed' : Bool} (same : rank kind routed = rank kind' routed') : kind = kind' := by
  have table : ∀ kind ∈ kinds, ∀ kind' ∈ kinds, ∀ routed routed',
    rank kind routed = rank kind' routed' → kind = kind' := by decide
  exact table kind known kind' known' routed routed' same

private theorem mem_iff_rank {list : List Nat} (all : ∀ kind ∈ list, kind ∈ kinds) {kind : Nat}
    (known : kind ∈ kinds) : kind ∈ list ↔ ∃ routed, rank kind routed ∈ ranks list := by
  induction list with
  | nil => simp [ranks]
  | cons first later ih =>
    obtain ⟨here, behind⟩ := List.forall_mem_cons.mp all
    rw [List.mem_cons, ih behind]
    simp only [ranks, List.mem_cons]
    constructor
    · rintro (rfl | ⟨routed, member⟩)
      · exact ⟨_, .inl rfl⟩
      · exact ⟨routed, .inr member⟩
    · rintro ⟨routed, same | member⟩
      · exact .inl (rank_inj known here same)
      · exact .inr ⟨routed, member⟩

private theorem flag_reported (is : nonext = 0 ∨ nonext = OFPIEH_NONEXT) {kind : Nat}
    (known : kind ∈ kinds) {word : BitVec 32}
    (bits : ∀ i < 16, word.getLsbD i = (reported (flags ||| nonext)).getLsbD i) :
    word &&& flagOf kind ≠ 0 ↔ ∃ routed, flags.getLsbD (place (rank kind routed)) = true := by
  have single (p : Nat) (low : p < 16) (positive : p ≠ 0) (other : p ≠ 3) :
      word &&& BitVec.twoPow 32 p ≠ 0 ↔ ∃ _ : Bool, flags.getLsbD p = true := by
    rw [and_twoPow_ne_zero_iff (by omega), bits p low, getLsbD_reported _ low,
      getLsbD_nonext is positive]
    simp [other]
  simp only [kinds, List.mem_cons, List.not_mem_nil, or_false] at known
  rcases known with rfl | rfl | rfl | rfl | rfl | rfl
  · exact single 6 (by decide) (by decide) (by decide)
  · have flag : flagOf IPv6Ext.dest = BitVec.twoPow 32 3 := by decide
    rw [flag, and_twoPow_ne_zero_iff (by decide), bits 3 (by decide),
      getLsbD_reported _ (by decide), getLsbD_nonext is (by decide),
      getLsbD_nonext is (by decide)]
    simp [rank, place]
  · exact single 5 (by decide) (by decide) (by decide)
  · exact single 4 (by decide) (by decide) (by decide)
  · exact single 2 (by decide) (by decide) (by decide)
  · exact single 1 (by decide) (by decide) (by decide)

theorem bit_reported (is : nonext = 0 ∨ nonext = OFPIEH_NONEXT) {word : BitVec 32}
    (bits : ∀ i < 16, word.getLsbD i = (reported (flags ||| nonext)).getLsbD i) {p : Nat}
    (low : 3 < p) (high : p < 16) :
    word &&& BitVec.twoPow 32 p ≠ 0 ↔ flags.getLsbD p = true := by
  rw [and_twoPow_ne_zero_iff (by omega), bits p high, getLsbD_reported _ high,
    getLsbD_nonext is (by omega)]
  simp [Nat.ne_of_gt low]

end

section

variable {link header rest : Bytes}

private theorem counted_startWalk {nextHdr : Nat}
    (all : ∀ h ∈ visited nextHdr rest, h.Complete ∧ h.currHdr ∈ kinds) (s : MatchPacket) :
    Leaves .ipv6Exthdr s (walkHeaders (startWalk rest nextHdr s)).packet ∧ ∃ flags nonext,
      (walkHeaders (startWalk rest nextHdr s)).flags = flags ||| nonext ∧
      (nonext = 0 ∨ nonext = OFPIEH_NONEXT) ∧
      Counted layout (ranks ((visited nextHdr rest).map ExtHdr.currHdr)) False flags := by
  rw [← visits_startWalk rest nextHdr s] at all ⊢
  by_cases none : nextHdr = IPv6Ext.noNextHeader
  · subst none
    have nothing : visits (startWalk rest IPv6Ext.noNextHeader s) = [] := visits_last rfl
    rw [walkHeaders_done rfl, nothing]
    exact ⟨.addOrderedUnchecked (.refl _ _) _ (by decide), 0, OFPIEH_NONEXT, rfl, .inr rfl,
      counted_nil layout⟩
  · have start : startWalk rest nextHdr s = ⟨nextHdr, rest, 0, s⟩ := by
      rw [startWalk, if_neg none]
    rw [start] at all ⊢
    exact counted_walkHeaders all (counted_nil layout) False.elim none

private theorem exthdr_decode (linked : IPv6Link link) (headed : IPv6Header header)
    (all : ∀ h ∈ visited (big8 header 6) rest, h.Complete ∧ h.currHdr ∈ kinds) :
    (itemsOf .ipv6Exthdr (decode (link ++ (header ++ rest))).list).length ≤ 1 ∧
      ∃ flags nonext, (nonext = 0 ∨ nonext = OFPIEH_NONEXT) ∧
      Counted layout (ranks ((visited (big8 header 6) rest).map ExtHdr.currHdr)) False flags ∧
      ∀ i < 16, (exthdr (decode (link ++ (header ++ rest))).list).getLsbD i =
        (reported (flags ||| nonext)).getLsbD i := by
  obtain ⟨s, fresh, position, same, typed⟩ := decode_header linked headed rest
  obtain ⟨leaves, flags, nonext, final, is, counted⟩ := counted_startWalk all s
  obtain ⟨one, bits⟩ := exthdr_reportFlags (Eq.trans leaves (fresh .ipv6Exthdr (by decide)))
    (flags ||| nonext)
  have whole : itemsOf .ipv6Exthdr (decode (link ++ (header ++ rest))).list =
      itemsOf .ipv6Exthdr (reportFlags (flags ||| nonext)
        (walkHeaders (startWalk rest (big8 header 6) s)).packet).list := by
    rw [same, itemsOf_decode (by decide) typed, decodeIPv6NextHdr, final]
  refine ⟨whole ▸ one, flags, nonext, is, counted, ?_⟩
  rwa [exthdr, whole]

private theorem exists_late_iff {list : List Nat} :
    (∃ a b, List.Sublist [a, b] list ∧ b < a) ↔ ¬ list.Pairwise (· ≤ ·) := by
  rw [List.pairwise_iff_forall_sublist]
  push Not
  rfl

end

/-- The summary of an IPv6 packet whose extension headers are complete and of the kinds that
have a flag. -/
theorem summary_flags (link header rest : Bytes) (linked : IPv6Link link)
    (headed : IPv6Header header)
    (all : ∀ h ∈ visited (big8 header 6) rest, h.Complete ∧ h.currHdr ∈ kinds) :
    let list := (decode (link ++ (header ++ rest))).list
    let flags := exthdr list
    let seen := (visited (big8 header 6) rest).map ExtHdr.currHdr
    (itemsOf .ipv6Exthdr list).length ≤ 1 ∧
      (∀ kind ∈ kinds, flags &&& flagOf kind ≠ 0 ↔ kind ∈ seen) ∧
      (flags &&& OFPIEH_UNREP ≠ 0 ↔ ∃ r, 2 ≤ (ranks seen).count r) ∧
      ((∃ a b, List.Sublist [a, b] (ranks seen) ∧ b < a) → flags &&& OFPIEH_UNSEQ ≠ 0) ∧
      ((ranks seen).Pairwise (· < ·) → flags &&& OFPIEH_UNSEQ = 0) := by
  intro list flags seen
  obtain ⟨one, word, nonext, is, counted, bits⟩ := exthdr_decode linked headed all
  have repeats : flags &&& OFPIEH_UNREP ≠ 0 ↔ word.getLsbD 7 = true :=
    bit_reported is bits (p := 7) (by decide) (by decide)
  have late : flags &&& OFPIEH_UNSEQ ≠ 0 ↔ word.getLsbD 8 = true :=
    bit_reported is bits (p := 8) (by decide) (by decide)
  have known : ∀ kind ∈ seen, kind ∈ kinds := by
    intro kind member
    obtain ⟨h, visited, rfl⟩ := List.mem_map.mp member
    exact (all h visited).2
  refine ⟨one, ?_, ?_, ?_, ?_⟩
  · intro kind isKind
    rw [flag_reported is isKind bits, mem_iff_rank known isKind]
    exact exists_congr fun routed => counted.marks _ (valid_rank kind routed)
  · rw [repeats]
    refine counted.repeated.trans ?_
    rw [List.nodup_iff_count_le_one]
    push Not
    rfl
  · intro someLate
    exact late.mpr (counted.disordered (exists_late_iff.mp someLate))
  · intro increasing
    by_contra nonzero
    have set : word.getLsbD layout.late = true := late.mp nonzero
    rw [counted.ordered increasing not_false] at set
    cases set

/-- A routing header behind two destination headers, one of which is late. -/
theorem summary_flags_routed :
    let link : Bytes := List.replicate 12 0 ++ [0x86, 0xdd]
    let header : Bytes := [0x60, 0, 0, 0, 0, 24, 60, 64] ++ List.replicate 32 0
    let rest : Bytes := [60, 0, 0, 0, 0, 0, 0, 0] ++ [43, 0, 0, 0, 0, 0, 0, 0] ++
      [17, 0, 0, 0, 0, 0, 0, 0]
    IPv6Link link ∧ IPv6Header header ∧
      (∀ h ∈ visited (big8 header 6) rest, h.Complete ∧ h.currHdr ∈ kinds) ∧
      exthdr (decode (link ++ (header ++ rest))).list &&& OFPIEH_UNSEQ ≠ 0 := by
  intro link header rest
  have linked : IPv6Link link := .inl (by decide)
  have headed : IPv6Header header := by decide
  have all : ∀ h ∈ visited (big8 header 6) rest, h.Complete ∧ h.currHdr ∈ kinds := by
    decide +kernel
  have order : ranks ((visited (big8 header 6) rest).map ExtHdr.currHdr) = [7, 2, 3] := by
    decide +kernel
  obtain ⟨-, -, -, late, -⟩ := summary_flags link header rest linked headed all
  refine ⟨linked, headed, all, late ⟨7, 2, ?_, by decide⟩⟩
  rw [order]
  decide

end Libofp.Packet.ExtensionFlags
