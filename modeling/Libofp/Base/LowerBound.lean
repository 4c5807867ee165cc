/- GID: Libofp/Base/LowerBound
   generality: G
   digest: Binary search for the first element of a partitioned list that is not less. -/

import Mathlib.Data.List.Basic
import Mathlib.Tactic.Common

set_option autoImplicit false

namespace Libofp.Base.LowerBound

variable {α : Type}

/-- The search among `count` elements from `first` on. It halves the count with every turn. -/
def search (less : α → Bool) (list : List α) : Nat → Nat → Nat → Nat
  | 0, first, _ => first
  | turns + 1, first, count =>
    if count = 0 then first
    else
      let half := count / 2
      match list[first + half]? with
      | none => first
      | some x =>
        if less x then search less list turns (first + half + 1) (count - half - 1)
        else search less list turns first half

/-- `std::lower_bound`. -/
def lowerBound (less : α → Bool) (list : List α) : Nat := search less list list.length 0 list.length

variable {less : α → Bool} {list : List α} {k : Nat}

theorem search_eq (split : ∀ i x, list[i]? = some x → (less x = true ↔ i < k)) {turns : Nat}
    {first count : Nat} (enough : count ≤ turns) (inside : first + count ≤ list.length)
    (below : first ≤ k) (above : k ≤ first + count) : search less list turns first count = k := by
  induction turns generalizing first count with
  | zero =>
    rw [search]
    omega
  | succ turns ih =>
    rw [search]
    split
    · omega
    · next more =>
      have found : list[first + count / 2]? = some (list.get ⟨first + count / 2, by omega⟩) := by
        simp
      simp only [found]
      have side := split _ _ found
      split
      · next smaller =>
        have := side.mp smaller
        exact ih (by omega) (by omega) (by omega) (by omega)
      · next other =>
        have : ¬ first + count / 2 < k := fun small => other (side.mpr small)
        exact ih (by omega) (by omega) below (by omega)

theorem lowerBound_eq (split : ∀ i x, list[i]? = some x → (less x = true ↔ i < k))
    (inside : k ≤ list.length) : lowerBound less list = k :=
  search_eq split (Nat.le_refl _) (by omega) (Nat.zero_le _) (by omega)

/-- When no element that is less comes behind one that is not, the search separates them. -/
theorem lowerBound_spec (sorted : list.Pairwise fun x y => less y = true → less x = true) :
    ∀ i x, list[i]? = some x → (less x = true ↔ i < lowerBound less list) := by
  let k := list.findIdx fun x => !less x
  have split : ∀ i x, list[i]? = some x → (less x = true ↔ i < k) := by
    intro i x found
    obtain ⟨inside, rfl⟩ := List.getElem?_eq_some_iff.mp found
    constructor
    · intro smaller
      by_contra late
      have inner : k < list.length := by omega
      have other : (!less list[k]) = true := List.findIdx_getElem (w := inner)
      rcases Nat.eq_or_lt_of_le (Nat.le_of_not_lt late) with same | later
      · simp only [same, smaller] at other
        exact absurd other (by decide)
      · have earlier := List.pairwise_iff_getElem.mp sorted k i inner inside later smaller
        rw [earlier] at other
        exact absurd other (by decide)
    · intro early
      have here := List.not_of_lt_findIdx early
      simpa using here
  have stop : lowerBound less list = k := lowerBound_eq split List.findIdx_le_length
  rwa [stop]

end Libofp.Base.LowerBound
