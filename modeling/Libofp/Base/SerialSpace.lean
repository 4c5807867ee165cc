/- GID: Libofp/Base/SerialSpace
   generality: G
   digest: Positions of a stream numbered modulo a power of two, and their wrap-safe order. -/

import Mathlib.Data.BitVec
import Mathlib.Tactic.Common

/-!
A stream position `p` is numbered by the serial `s + p` modulo `2 ^ w`. As long as
two positions are closer than `2 ^ w` the serial determines the position, and the
serial difference read as an unsigned number tells which one comes first.
-/

set_option autoImplicit false

namespace Libofp.Base.SerialSpace

variable {w : Nat}

/-- The serial of position `p` of a stream whose position zero has serial `s`. -/
def serialAt (s : BitVec w) (p : Nat) : BitVec w := s + BitVec.ofNat w p

section

variable (s : BitVec w)

@[simp] theorem serialAt_zero : serialAt s 0 = s := by
  simp [serialAt]

theorem serialAt_add (p n : Nat) : serialAt s p + BitVec.ofNat w n = serialAt s (p + n) := by
  simp only [serialAt, BitVec.ofNat_add, BitVec.add_assoc]

theorem serialAt_sub {p n : Nat} (h : n ≤ p) :
    serialAt s p - BitVec.ofNat w n = serialAt s (p - n) := by
  have split : serialAt s p = serialAt s (p - n) + BitVec.ofNat w n := by
    rw [serialAt_add, Nat.sub_add_cancel h]
  rw [split, BitVec.add_sub_cancel]

/-- Going forward by less than the whole serial space, the difference is the distance. -/
theorem toNat_serialAt_sub_of_le {p q : Nat} (h : p ≤ q)
    (near : q - p < 2 ^ w) : (serialAt s q - serialAt s p).toNat = q - p := by
  have step : serialAt s q = serialAt s p + BitVec.ofNat w (q - p) := by
    rw [serialAt_add, Nat.add_sub_cancel' h]
  have difference : serialAt s q - serialAt s p = BitVec.ofNat w (q - p) := by
    rw [step, BitVec.add_comm, BitVec.add_sub_cancel]
  rw [difference, BitVec.toNat_ofNat, Nat.mod_eq_of_lt near]

theorem toNat_serialAt_sub_of_lt {p q : Nat} (h : q < p)
    (near : p - q < 2 ^ w) : (serialAt s q - serialAt s p).toNat = 2 ^ w - (p - q) := by
  have forward := toNat_serialAt_sub_of_le s (Nat.le_of_lt h) near
  have negated : serialAt s q - serialAt s p = -(serialAt s p - serialAt s q) :=
    (neg_sub (serialAt s p) (serialAt s q)).symm
  rw [negated, BitVec.toNat_neg, forward]
  exact Nat.mod_eq_of_lt (by omega)

/-- Positions closer than the serial space are told apart by their serials. -/
theorem serialAt_eq_iff {p q : Nat} (hp : p < 2 ^ w) (hq : q < 2 ^ w) :
    serialAt s p = serialAt s q ↔ p = q := by
  constructor
  · intro same
    rcases Nat.le_total p q with le | le
    all_goals
      have distance := toNat_serialAt_sub_of_le s le (by omega)
      rw [same, BitVec.sub_self, BitVec.toNat_zero] at distance
      omega
  · rintro rfl
    rfl

end

end Libofp.Base.SerialSpace
