/- GID: Libofp/Base/RankedFlags
   generality: G
   digest: A word that records which ranks have come, whether one of them came twice and
     whether they came out of order. -/

import Mathlib.Data.List.Nodup
import Mathlib.Order.Lattice

set_option autoImplicit false

namespace Libofp.Base.RankedFlags

section

variable {w : Nat} {x y : BitVec w}

theorem and_ne_zero_iff : x &&& y ≠ 0 ↔ ∃ i, x.getLsbD i = true ∧ y.getLsbD i = true := by
  constructor
  · intro nonzero
    by_contra none
    apply nonzero
    apply BitVec.eq_of_getLsbD_eq
    intro i _
    have clear : (0 : BitVec w).getLsbD i = false := BitVec.getLsbD_zero
    rw [BitVec.getLsbD_and, clear, Bool.eq_false_iff, ne_eq, Bool.and_eq_true]
    exact fun both => none ⟨i, both⟩
  · rintro ⟨i, both⟩ zero
    have bit := congrArg (BitVec.getLsbD · i) zero
    simp only [BitVec.getLsbD_and, both.1, both.2] at bit
    simp at bit

theorem getLsbD_twoPow_iff {p : Nat} (small : p < w) (i : Nat) :
    (BitVec.twoPow w p).getLsbD i = true ↔ i = p := by
  simp [small, eq_comm]

theorem and_twoPow_ne_zero_iff {p : Nat} (small : p < w) :
    x &&& BitVec.twoPow w p ≠ 0 ↔ x.getLsbD p = true := by
  rw [and_ne_zero_iff]
  simp only [getLsbD_twoPow_iff small, exists_eq_right]

theorem getLsbD_or_iff (i : Nat) :
    (x ||| y).getLsbD i = true ↔ x.getLsbD i = true ∨ y.getLsbD i = true := by
  rw [BitVec.getLsbD_or, Bool.or_eq_true]

theorem getLsbD_ite_or {c : Prop} [Decidable c] {p : Nat} (small : p < w) (i : Nat) :
    (if c then x ||| BitVec.twoPow w p else x).getLsbD i = true ↔
      x.getLsbD i = true ∨ i = p ∧ c := by
  split
  · next holds =>
    rw [getLsbD_or_iff, getLsbD_twoPow_iff small]
    simp [holds]
  · next fails => simp [fails]

end

section

variable {ι : Type} {seen : List ι} {r : ι}

theorem pairwise_concat {R : ι → ι → Prop} :
    (seen ++ [r]).Pairwise R ↔ seen.Pairwise R ∧ ∀ s ∈ seen, R s r := by
  simp [List.pairwise_append]

theorem nodup_concat_iff : ¬ (seen ++ [r]).Nodup ↔ ¬ seen.Nodup ∨ r ∈ seen := by
  rw [← List.concat_eq_append, List.nodup_concat]
  tauto

end

/-- The places of the bits for each rank, for a rank that comes twice and for one that comes
late. -/
structure Layout (ι : Type) (w : Nat) where
  valid : ι → Prop
  place : ι → Nat
  twice : Nat
  late : Nat
  place_lt : ∀ r, valid r → place r < w
  twice_lt : twice < w
  late_lt : late < w
  place_inj : ∀ r s, valid r → valid s → place r = place s → r = s
  place_ne_twice : ∀ r, valid r → place r ≠ twice
  place_ne_late : ∀ r, valid r → place r ≠ late
  twice_ne_late : twice ≠ late

namespace Layout

variable {ι : Type} {w : Nat} (L : Layout ι w)

def mark (r : ι) : BitVec w := BitVec.twoPow w (L.place r)

def repeating (flags : BitVec w) (r : ι) : BitVec w :=
  if flags &&& L.mark r ≠ 0 then flags ||| BitVec.twoPow w L.twice else flags

/-- A rank comes: it is late when the word has more than it and what may come before it. -/
def count (below flags : BitVec w) (r : ι) : BitVec w :=
  L.repeating (if flags &&& ~~~(L.mark r ||| below) ≠ 0 then flags ||| BitVec.twoPow w L.late
    else flags) r ||| L.mark r

/-- A rank comes, and it is known that another one comes behind it too late. -/
def hasten (flags : BitVec w) (r : ι) : BitVec w :=
  L.repeating flags r ||| (L.mark r ||| BitVec.twoPow w L.late)

end Layout

section

variable {ι : Type} {w : Nat} {L : Layout ι w} {flags below : BitVec w} {r : ι}

theorem getLsbD_repeating (valid : L.valid r) (i : Nat) :
    (L.repeating flags r).getLsbD i = true ↔
      flags.getLsbD i = true ∨ i = L.twice ∧ flags.getLsbD (L.place r) = true := by
  rw [Layout.repeating, getLsbD_ite_or L.twice_lt, Layout.mark,
    and_twoPow_ne_zero_iff (L.place_lt r valid)]

theorem getLsbD_count (valid : L.valid r) (i : Nat) :
    (L.count below flags r).getLsbD i = true ↔ flags.getLsbD i = true ∨ i = L.place r ∨
      (i = L.late ∧ flags &&& ~~~(L.mark r ||| below) ≠ 0) ∨
      (i = L.twice ∧ flags.getLsbD (L.place r) = true) := by
  rw [Layout.count, getLsbD_or_iff, getLsbD_repeating valid, getLsbD_ite_or L.late_lt,
    getLsbD_ite_or L.late_lt]
  simp only [L.place_ne_late r valid, false_and, or_false]
  rw [Layout.mark, getLsbD_twoPow_iff (L.place_lt r valid)]
  tauto

theorem getLsbD_hasten (valid : L.valid r) (i : Nat) :
    (L.hasten flags r).getLsbD i = true ↔ flags.getLsbD i = true ∨ i = L.place r ∨ i = L.late ∨
      (i = L.twice ∧ flags.getLsbD (L.place r) = true) := by
  rw [Layout.hasten, getLsbD_or_iff, getLsbD_or_iff, getLsbD_repeating valid, Layout.mark,
    getLsbD_twoPow_iff (L.place_lt r valid), getLsbD_twoPow_iff L.late_lt]
  tauto

end

section

variable {ι : Type} [LinearOrder ι] {w : Nat}

/-- The word for the ranks that have come. `ahead` says that the next one is known to come
late. -/
structure Counted (L : Layout ι w) (seen : List ι) (ahead : Prop) (flags : BitVec w) : Prop where
  valid : ∀ r ∈ seen, L.valid r
  marks : ∀ r, L.valid r → (flags.getLsbD (L.place r) = true ↔ r ∈ seen)
  repeated : flags.getLsbD L.twice = true ↔ ¬ seen.Nodup
  disordered : ¬ seen.Pairwise (· ≤ ·) → flags.getLsbD L.late = true
  ordered : seen.Pairwise (· < ·) → ¬ ahead → flags.getLsbD L.late = false
  others : ∀ i, flags.getLsbD i = true → i = L.twice ∨ i = L.late ∨ ∃ r ∈ seen, L.place r = i
  top : ahead → ∃ s ∈ seen, ∀ r, L.valid r → r ≤ s

structure Below (L : Layout ι w) (r : ι) (below : BitVec w) : Prop where
  marks : ∀ s, L.valid s → (below.getLsbD (L.place s) = true ↔ s < r)

variable {L : Layout ι w} {seen : List ι} {ahead : Prop} {flags below : BitVec w} {r : ι}

theorem counted_nil (L : Layout ι w) : Counted L [] False 0 where
  valid := by simp
  marks := by simp
  repeated := by simp
  disordered := by simp
  ordered := by simp
  others := by simp
  top := False.elim

section

variable (counted : Counted L seen ahead flags)

include counted

/-- What a step has in common, whether the rank is counted or hastened. -/
theorem Counted.extend (valid : L.valid r) {flags' : BitVec w} {lateness : Prop}
    (bits : ∀ i, flags'.getLsbD i = true ↔ flags.getLsbD i = true ∨ i = L.place r ∨
      (i = L.late ∧ lateness) ∨ (i = L.twice ∧ flags.getLsbD (L.place r) = true))
    {ahead' : Prop} (late : (∃ s ∈ seen, r < s) → lateness)
    (early : (∀ s ∈ seen, s < r) → seen.Pairwise (· < ·) → ¬ ahead → ¬ ahead' → ¬ lateness)
    (top : ahead' → ∀ s, L.valid s → s ≤ r) : Counted L (seen ++ [r]) ahead' flags' where
  valid := by
    intro s member
    rcases List.mem_append.mp member with old | new
    · exact counted.valid s old
    · exact List.mem_singleton.mp new ▸ valid
  marks := by
    intro s valid'
    have same : L.place s = L.place r ↔ s = r :=
      ⟨L.place_inj s r valid' valid, fun equal => equal ▸ rfl⟩
    rw [bits, counted.marks s valid', same]
    simp [L.place_ne_late s valid', L.place_ne_twice s valid']
  repeated := by
    rw [bits, counted.repeated, counted.marks r valid, nodup_concat_iff]
    simp [(L.place_ne_twice r valid).symm, L.twice_ne_late]
  disordered := by
    intro disordered
    rw [pairwise_concat, not_and_or] at disordered
    rw [bits]
    rcases disordered with before | now
    · exact .inl (counted.disordered before)
    · refine .inr (.inr (.inl ⟨rfl, late ?_⟩))
      simpa using now
  ordered := by
    intro ordered notAhead
    obtain ⟨before, below⟩ := pairwise_concat.mp ordered
    have quiet : ¬ ahead := by
      intro is
      obtain ⟨s, member, highest⟩ := counted.top is
      exact absurd (highest r valid) (not_le.mpr (below s member))
    rw [Bool.eq_false_iff, ne_eq, bits]
    rintro (old | own | ⟨-, lateness⟩ | ⟨same, -⟩)
    · rw [counted.ordered before quiet] at old
      cases old
    · exact L.place_ne_late r valid own.symm
    · exact early below before quiet notAhead lateness
    · exact L.twice_ne_late same.symm
  others := by
    intro i set
    rcases (bits i).mp set with old | own | ⟨isLate, -⟩ | ⟨isTwice, -⟩
    · rcases counted.others i old with isTwice | isLate | ⟨s, member, place⟩
      · exact .inl isTwice
      · exact .inr (.inl isLate)
      · exact .inr (.inr ⟨s, List.mem_append_left _ member, place⟩)
    · exact .inr (.inr ⟨r, by simp, own.symm⟩)
    · exact .inr (.inl isLate)
    · exact .inl isTwice
  top := fun is => ⟨r, by simp, top is⟩

theorem Counted.count (valid : L.valid r)
    (mask : Below L r below) : Counted L (seen ++ [r]) False (L.count below flags r) := by
  refine counted.extend valid (getLsbD_count valid) ?_ ?_ False.elim
  · rintro ⟨s, member, above⟩
    have valid' := counted.valid s member
    have other : L.place s ≠ L.place r :=
      fun same => above.ne' (L.place_inj s r valid' valid same)
    refine and_ne_zero_iff.mpr ⟨L.place s, (counted.marks s valid').mpr member, ?_⟩
    have out : (L.mark r ||| below).getLsbD (L.place s) = false := by
      rw [Bool.eq_false_iff, ne_eq, getLsbD_or_iff, Layout.mark,
        getLsbD_twoPow_iff (L.place_lt r valid), mask.marks s valid']
      exact not_or.mpr ⟨other, not_lt.mpr above.le⟩
    rw [BitVec.getLsbD_not, out]
    simp [L.place_lt s valid']
  · intro lower before quiet _ hit
    obtain ⟨i, set, clear⟩ := and_ne_zero_iff.mp hit
    rcases counted.others i set with rfl | rfl | ⟨s, member, rfl⟩
    · exact counted.repeated.mp set (before.imp fun less => less.ne)
    · rw [counted.ordered before quiet] at set
      cases set
    · have covered := (mask.marks s (counted.valid s member)).mpr (lower s member)
      simp [covered] at clear

theorem Counted.hasten (valid : L.valid r)
    {ahead' : Prop} (is : ahead') (top : ∀ s, L.valid s → s ≤ r) :
    Counted L (seen ++ [r]) ahead' (L.hasten flags r) := by
  have bits (i : Nat) : (L.hasten flags r).getLsbD i = true ↔ flags.getLsbD i = true ∨
      i = L.place r ∨ (i = L.late ∧ True) ∨
      (i = L.twice ∧ flags.getLsbD (L.place r) = true) := by
    rw [getLsbD_hasten valid, and_true]
  refine counted.extend valid bits (fun _ => trivial) ?_ (fun _ => top)
  intro _ _ _ not
  exact absurd is not

end

end

end Libofp.Base.RankedFlags
