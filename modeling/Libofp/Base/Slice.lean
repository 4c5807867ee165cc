/- GID: Libofp/Base/Slice
   generality: G
   digest: Half-open slices of a list and how they are cut and joined. -/

import Mathlib.Data.List.Basic
import Mathlib.Tactic.Common

set_option autoImplicit false

namespace Libofp.Base.Slice

variable {α : Type}

/-- The elements of `S` at the positions `a ≤ i < b`. -/
def slice (S : List α) (a b : Nat) : List α := (S.drop a).take (b - a)

theorem length_slice {S : List α} {a b : Nat} (hb : b ≤ S.length) :
    (slice S a b).length = b - a := by
  simp only [slice, List.length_take, List.length_drop]
  omega

theorem slice_zero (S : List α) (b : Nat) : slice S 0 b = S.take b := by
  simp [slice]

theorem slice_append_slice (S : List α) {a b c : Nat} (hab : a ≤ b) (hbc : b ≤ c) :
    slice S a b ++ slice S b c = slice S a c := by
  have tail : S.drop b = (S.drop a).drop (b - a) := by
    rw [List.drop_drop, Nat.add_sub_cancel' hab]
  have width : c - a = (b - a) + (c - b) := by omega
  simp only [slice]
  rw [tail, width, List.take_add]

theorem drop_slice (S : List α) (a b k : Nat) :
    (slice S a b).drop k = slice S (a + k) b := by
  simp only [slice, List.drop_take, List.drop_drop]
  congr 1
  omega

theorem take_slice (S : List α) {a b k : Nat} (h : a + k ≤ b) :
    (slice S a b).take k = slice S a (a + k) := by
  simp only [slice, List.take_take]
  congr 1
  omega

theorem slice_eq_nil_iff {S : List α} {a b : Nat} (hb : b ≤ S.length) :
    slice S a b = [] ↔ b ≤ a := by
  rw [← List.length_eq_zero_iff, length_slice hb]
  omega

end Libofp.Base.Slice
