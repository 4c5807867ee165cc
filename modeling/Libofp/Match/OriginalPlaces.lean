/- GID: Libofp/Match/OriginalPlaces
   digest: What a version 1.0 match says, and what setting one of its places changes in that. -/

import Libofp.Match.StandardRoundTrip

set_option autoImplicit false

namespace Libofp.Match.OriginalPlaces

open Base.Recording
open Match.Original Places
open Match.Standard (StandardMatch standardWildcards wildcardMap)

/-- `!(wc & bit)`. -/
def Heeds (m : OriginalMatch) (bit : BitVec 32) : Prop := m.wildcards &&& bit = 0

instance (m : OriginalMatch) (bit : BitVec 32) : Decidable (Heeds m bit) :=
  inferInstanceAs (Decidable (_ = _))

section

variable (m : OriginalMatch)

def heededV1 {α : Type} (bit : BitVec 32) (value : α) : Option α :=
  if Heeds m bit then some value else none

def viewV1 : Content
  | .inPort => heededV1 m Wildcards.inPort (m.inPort.setWidth 32)
  | .dlSrc => heededV1 m Wildcards.dlSrc (m.dlSrc, BitVec.allOnes 48)
  | .dlDst => heededV1 m Wildcards.dlDst (m.dlDst, BitVec.allOnes 48)
  | .dlVlan => heededV1 m Wildcards.dlVlan m.dlVlan
  | .dlVlanPcp => heededV1 m Wildcards.dlVlanPcp m.dlVlanPcp
  | .dlType => heededV1 m Wildcards.dlType m.dlType
  | .nwTos => heededV1 m Wildcards.nwTos m.nwTos
  | .nwProto => heededV1 m Wildcards.nwProto m.nwProto
  | .nwSrc => underMask m.nwSrc m.nwSrcMask
  | .nwDst => underMask m.nwDst m.nwDstMask
  | .tpSrc => heededV1 m Wildcards.tpSrc m.tpSrc
  | .tpDst => heededV1 m Wildcards.tpDst m.tpDst
  | .metadata | .mplsLabel | .mplsTc => none

theorem or_and_eq_zero_iff {w : Nat} (x y bit : BitVec w) :
    (x ||| y) &&& bit = 0 ↔ x &&& bit = 0 ∧ y &&& bit = 0 := by
  rw [BitVec.and_or_distrib_right]
  exact BitVec.or_eq_zero_iff

private theorem foldl_or_and_eq_zero_iff (bit : BitVec 32) (l : List (BitVec 32 × BitVec 32))
    (start : BitVec 32) :
    l.foldl (fun result entry =>
        if m.wildcards &&& entry.1 ≠ 0 then result ||| entry.2 else result) start &&& bit = 0 ↔
      start &&& bit = 0 ∧ ∀ entry ∈ l, m.wildcards &&& entry.1 ≠ 0 → entry.2 &&& bit = 0 := by
  induction l generalizing start with
  | nil => simp
  | cons entry l ih =>
    rw [List.foldl_cons, ih, List.forall_mem_cons]
    by_cases ignored : m.wildcards &&& entry.1 ≠ 0
    · rw [if_pos ignored, or_and_eq_zero_iff, and_assoc]
      simp only [ignored, ne_eq, not_false_eq_true, true_implies]
    · rw [if_neg ignored]
      simp only [ignored, false_implies, true_and]

private theorem heeds_ofOriginal {own standard : BitVec 32} (pair : (own, standard) ∈ wildcardMap) :
    (StandardMatch.ofOriginal m).Heeds standard ↔ Heeds m own := by
  have apart : ∀ p ∈ wildcardMap, ∀ q ∈ wildcardMap, q.2 &&& p.2 = 0 ∨ q = p := by
    have all : (wildcardMap.all fun p => wildcardMap.all fun q =>
        decide (q.2 &&& p.2 = 0 ∨ q = p)) = true := by decide
    simpa only [List.all_eq_true, decide_eq_true_eq] using all
  have single : ∀ p ∈ wildcardMap, p.2 &&& p.2 ≠ 0 ∧
      (Standard.Wildcards.mplsTc ||| Standard.Wildcards.mplsLabel) &&& p.2 = 0 := by
    have all : (wildcardMap.all fun p => decide (p.2 &&& p.2 ≠ 0 ∧
        (Standard.Wildcards.mplsTc ||| Standard.Wildcards.mplsLabel) &&& p.2 = 0)) = true := by
      decide
    simpa only [List.all_eq_true, decide_eq_true_eq] using all
  show standardWildcards m &&& standard = 0 ↔ m.wildcards &&& own = 0
  rw [standardWildcards, or_and_eq_zero_iff, foldl_or_and_eq_zero_iff]
  constructor
  · rintro ⟨⟨-, clear⟩, -⟩
    by_contra ignored
    exact (single _ pair).1 (clear _ pair ignored)
  · intro heeds
    refine ⟨⟨BitVec.zero_and, ?_⟩, (single _ pair).2⟩
    intro entry listed ignored
    rcases apart _ pair entry listed with disjoint | rfl
    · exact disjoint
    · exact absurd heeds ignored

private theorem not_heeds_mpls {bit : BitVec 32}
    (mpls : (Standard.Wildcards.mplsTc ||| Standard.Wildcards.mplsLabel) &&& bit ≠ 0) :
    ¬ (StandardMatch.ofOriginal m).Heeds bit := by
  show ¬ standardWildcards m &&& bit = 0
  rw [standardWildcards, or_and_eq_zero_iff]
  exact fun heeds => mpls heeds.2

private theorem heeded_ofOriginal {α : Type} {own standard : BitVec 32}
    (pair : (own, standard) ∈ wildcardMap) (value : α) :
    heeded (StandardMatch.ofOriginal m) standard value = heededV1 m own value := by
  unfold heeded heededV1
  simp only [heeds_ofOriginal m pair]

private theorem underMask_ones {w : Nat} (value : BitVec w) (positive : 0 < w) (bit : BitVec 32) :
    underMask value (if m.wildcards &&& bit = 0 then BitVec.allOnes w else 0) =
      heededV1 m bit (value, BitVec.allOnes w) := by
  have solid : BitVec.allOnes w ≠ 0 := by
    intro zero
    have bit := congrArg (BitVec.getLsbD · 0) zero
    simp [positive] at bit
  unfold heededV1 underMask
  by_cases heeds : Heeds m bit
  · rw [if_pos heeds, if_pos (show m.wildcards &&& bit = 0 from heeds), if_neg solid]
  · rw [if_neg heeds, if_neg (show ¬ m.wildcards &&& bit = 0 from heeds)]
    rfl

theorem view_ofOriginal : view (StandardMatch.ofOriginal m) = viewV1 m := by
  funext s
  cases s <;> first
    | rfl
    | exact underMask_ones m _ (by decide) _
    | exact heeded_ofOriginal m (by decide) _
    | exact if_neg (not_heeds_mpls m (by decide))

end

def PrefixMask (mask : BitVec 32) : Prop :=
  ∃ bits, 1 ≤ bits ∧ bits ≤ 32 ∧ mask = BitVec.allOnes 32 <<< (32 - bits)

def Narrow : (s : Slot) → s.Value → Prop
  | .dlSrc, x => x.2 = BitVec.allOnes 48
  | .dlDst, x => x.2 = BitVec.allOnes 48
  | .nwSrc, x => PrefixMask x.2
  | .nwDst, x => PrefixMask x.2
  | .metadata, _ => False
  | .mplsLabel, _ => False
  | .mplsTc, _ => False
  | _, _ => True

def putV1 (m : OriginalMatch) : (s : Slot) → s.Value → OriginalMatch
  | .inPort, port => { m.heed Wildcards.inPort with inPort := BitVec.setWidth 16 port }
  | .dlSrc, x => { m.heed Wildcards.dlSrc with dlSrc := x.1 }
  | .dlDst, x => { m.heed Wildcards.dlDst with dlDst := x.1 }
  | .dlVlan, vlan => { m.heed Wildcards.dlVlan with dlVlan := vlan }
  | .dlVlanPcp, pcp => { m.heed Wildcards.dlVlanPcp with dlVlanPcp := pcp }
  | .dlType, type => { m.heed Wildcards.dlType with dlType := type }
  | .nwTos, tos => { m.heed Wildcards.nwTos with nwTos := tos }
  | .nwProto, proto => { m.heed Wildcards.nwProto with nwProto := proto }
  | .nwSrc, x => { m with nwSrc := x.1, wildcards := setNwSrcMask m.wildcards (ipv4Prefix x.2) }
  | .nwDst, x => { m with nwDst := x.1, wildcards := setNwDstMask m.wildcards (ipv4Prefix x.2) }
  | .tpSrc, port => { m.heed Wildcards.tpSrc with tpSrc := port }
  | .tpDst, port => { m.heed Wildcards.tpDst with tpDst := port }
  | .metadata, _ | .mplsLabel, _ | .mplsTc, _ => m

def narrowed : (s : Slot) → s.Value → s.Value
  | .inPort, port => (BitVec.setWidth 16 port).setWidth 32
  | _, v => v

private theorem ipv4Mask_eq : ∀ bits < 33, ipv4Mask bits = BitVec.allOnes 32 <<< (32 - bits) := by
  decide +kernel

private theorem ipv4Prefix_eq :
    ∀ bits < 33, ipv4Prefix (BitVec.allOnes 32 <<< (32 - bits)) = bits := by
  decide +kernel

private theorem addressMask_setAddressMask {field : BitVec 32} {shift : Nat}
    (room : ∀ count < 33, (BitVec.ofNat 32 count <<< shift &&& field) >>> shift =
      BitVec.ofNat 32 count) (wildcards : BitVec 32) {bits : Nat} (small : bits < 33) :
    addressMask (setAddressMask wildcards field shift bits) field shift = ipv4Mask bits := by
  have placed : setAddressMask wildcards field shift bits &&& field =
      BitVec.ofNat 32 (32 - bits) <<< shift &&& field := by
    rw [setAddressMask, Nat.min_eq_left (by omega), BitVec.and_or_distrib_right, BitVec.and_assoc]
    simp
  have read : (BitVec.ofNat 32 (32 - bits)).toNat = 32 - bits := by
    rw [BitVec.toNat_ofNat, Nat.mod_eq_of_lt (by omega)]
  rw [addressMask, placed, room _ (by omega), read, if_neg (by omega)]
  congr 1
  omega

theorem not_and_of_apart {w : Nat} {x y : BitVec w} (apart : x &&& y = 0) : ~~~x &&& y = y := by
  calc ~~~x &&& y = (~~~x &&& y) ||| (x &&& y) := by rw [apart]; exact BitVec.or_zero.symm
    _ = y := by rw [← BitVec.and_or_distrib_right]; simp

theorem setAddressMask_and {field bit : BitVec 32} {shift : Nat} (apart : field &&& bit = 0)
    (inside : ∀ count < 33, BitVec.ofNat 32 count <<< shift &&& field =
      BitVec.ofNat 32 count <<< shift) (wildcards : BitVec 32) (bits : Nat) :
    setAddressMask wildcards field shift bits &&& bit = wildcards &&& bit := by
  rw [setAddressMask, BitVec.and_or_distrib_right, BitVec.and_assoc, not_and_of_apart apart,
    ← inside _ (by omega), BitVec.and_assoc _ field, apart]
  simp

def wildcardBits : Slot → BitVec 32
  | .inPort => Wildcards.inPort
  | .dlSrc => Wildcards.dlSrc
  | .dlDst => Wildcards.dlDst
  | .dlVlan => Wildcards.dlVlan
  | .dlVlanPcp => Wildcards.dlVlanPcp
  | .dlType => Wildcards.dlType
  | .nwTos => Wildcards.nwTos
  | .nwProto => Wildcards.nwProto
  | .nwSrc => Wildcards.nwSrcMask
  | .nwDst => Wildcards.nwDstMask
  | .tpSrc => Wildcards.tpSrc
  | .tpDst => Wildcards.tpDst
  | .metadata | .mplsLabel | .mplsTc => 0

private theorem wildcardBits_apart {s t : Slot} (other : t ≠ s) :
    wildcardBits s &&& wildcardBits t = 0 := by
  cases s <;> cases t <;> first | exact absurd rfl other | decide

section

variable (m : OriginalMatch)

theorem heeds_heedV1 (bit : BitVec 32) : Heeds (m.heed bit) bit := by
  simp [Heeds, OriginalMatch.heed, BitVec.and_assoc]

private theorem heed_and {bit other : BitVec 32} (apart : bit &&& other = 0) :
    (m.heed bit).wildcards &&& other = m.wildcards &&& other := by
  rw [OriginalMatch.heed, BitVec.and_assoc, not_and_of_apart apart]

private theorem heededV1_congr {α : Type} {m m' : OriginalMatch} {bit : BitVec 32} (x : α)
    (same : m'.wildcards &&& bit = m.wildcards &&& bit) :
    heededV1 m' bit x = heededV1 m bit x := by
  have heeds : Heeds m' bit ↔ Heeds m bit := by rw [Heeds, Heeds, same]
  simp only [heededV1, heeds]

private theorem underMask_congr {w w' : BitVec 32} (value : BitVec 32) {field : BitVec 32}
    {shift : Nat} (same : w' &&& field = w &&& field) :
    underMask value (addressMask w' field shift) = underMask value (addressMask w field shift) := by
  rw [addressMask, addressMask, same]

theorem underMask_setAddressMask {field : BitVec 32} {shift : Nat}
    (room : ∀ count < 33, (BitVec.ofNat 32 count <<< shift &&& field) >>> shift =
      BitVec.ofNat 32 count) {x : BitVec 32 × BitVec 32} (leading : PrefixMask x.2) :
    underMask x.1 (addressMask (setAddressMask m.wildcards field shift (ipv4Prefix x.2)) field
      shift) = some x := by
  obtain ⟨value, mask⟩ := x
  obtain ⟨bits, positive, small, rfl⟩ := leading
  have solid : ∀ bits < 33, 1 ≤ bits → BitVec.allOnes 32 <<< (32 - bits) ≠ 0 := by
    decide +kernel
  rw [ipv4Prefix_eq bits (by omega), addressMask_setAddressMask room _ (by omega),
    ipv4Mask_eq bits (by omega), underMask, if_neg (solid bits (by omega) positive)]

private theorem viewV1_putV1_self (s : Slot) (v : s.Value) (narrow : Narrow s v) :
    viewV1 (putV1 m s v) s = some (narrowed s v) := by
  cases s
  case nwSrc => exact underMask_setAddressMask m (by decide +kernel) narrow
  case nwDst => exact underMask_setAddressMask m (by decide +kernel) narrow
  case dlSrc =>
    obtain ⟨value, mask⟩ := v
    obtain rfl : mask = BitVec.allOnes 48 := narrow
    exact if_pos (heeds_heedV1 m _)
  case dlDst =>
    obtain ⟨value, mask⟩ := v
    obtain rfl : mask = BitVec.allOnes 48 := narrow
    exact if_pos (heeds_heedV1 m _)
  case metadata => exact narrow.elim
  case mplsLabel => exact narrow.elim
  case mplsTc => exact narrow.elim
  all_goals exact if_pos (heeds_heedV1 m _)

private theorem wildcards_putV1 {s t : Slot} (other : t ≠ s) (v : s.Value) :
    (putV1 m s v).wildcards &&& wildcardBits t = m.wildcards &&& wildcardBits t := by
  have apart := wildcardBits_apart other
  cases s
  case nwSrc => exact setAddressMask_and apart (by decide +kernel) _ _
  case nwDst => exact setAddressMask_and apart (by decide +kernel) _ _
  case metadata => rfl
  case mplsLabel => rfl
  case mplsTc => rfl
  all_goals exact heed_and m apart

private theorem viewV1_putV1_of_ne {s t : Slot} (other : t ≠ s) (v : s.Value) :
    viewV1 (putV1 m s v) t = viewV1 m t := by
  have same := wildcards_putV1 m other v
  cases s <;> cases t <;> first
    | exact absurd rfl other
    | exact heededV1_congr _ same
    | exact underMask_congr _ same
    | rfl

theorem viewV1_putV1 (s : Slot) (v : s.Value) (narrow : Narrow s v) :
    viewV1 (putV1 m s v) = record (viewV1 m) (some ⟨s, narrowed s v⟩) := by
  funext t
  by_cases same : t = s
  · subst same
    rw [viewV1_putV1_self m t v narrow, record, Function.update_self]
  · rw [viewV1_putV1_of_ne m same, record, Function.update_of_ne same]

end

end Libofp.Match.OriginalPlaces
