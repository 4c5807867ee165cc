/- GID: Libofp/Text/TimeOrder
   digest: The order and the sum of timestamps, as numbers of nanoseconds. -/

import Libofp.Text.Timestamp

set_option autoImplicit false

namespace Libofp.Text.TimeOrder

open Timestamp

def valid (t : Timestamp) : Bool := !(t.seconds == 0 && t.nanoseconds == 0)

def kInfinity : Timestamp := ⟨0xFFFFFFFFFFFFFFFF, 999999999⟩

/-- `operator<=`, the order of `std::pair`. -/
def le (a b : Timestamp) : Bool :=
  a.seconds < b.seconds || (a.seconds == b.seconds && a.nanoseconds ≤ b.nanoseconds)

/-- `operator>=`. -/
def ge (a b : Timestamp) : Bool := le b a

/-- `operator+`. -/
def add (a b : Timestamp) : Timestamp :=
  let seconds := a.seconds + b.seconds
  let nanoseconds := a.nanoseconds + b.nanoseconds
  if nanoseconds.toNat ≥ NANO_UNITS then
    ⟨seconds + 1, nanoseconds - UInt32.ofNat NANO_UNITS⟩
  else ⟨seconds, nanoseconds⟩

abbrev Time := { t : Timestamp // t.nanoseconds.toNat < NANO_UNITS }

def nanos (t : Timestamp) : Nat := t.seconds.toNat * NANO_UNITS + t.nanoseconds.toNat

section

variable {a b : Timestamp}

section

variable (first : a.nanoseconds.toNat < NANO_UNITS) (second : b.nanoseconds.toNat < NANO_UNITS)

include first second

theorem le_iff : le a b = true ↔ nanos a ≤ nanos b := by
  have seconds : a.seconds = b.seconds ↔ a.seconds.toNat = b.seconds.toNat := UInt64.toNat_inj.symm
  simp only [le, Bool.or_eq_true, Bool.and_eq_true, decide_eq_true_eq, beq_iff_eq,
    UInt64.lt_iff_toNat_lt, UInt32.le_iff_toNat_le, seconds, nanos, NANO_UNITS] at first second ⊢
  omega

private theorem nanos_inj : nanos a = nanos b ↔ a = b := by
  constructor
  · intro same
    obtain ⟨seconds, nanoseconds⟩ := a
    obtain ⟨seconds', nanoseconds'⟩ := b
    simp only [nanos, NANO_UNITS] at first second same
    have whole : seconds = seconds' := UInt64.toNat_inj.mp (by omega)
    have part : nanoseconds = nanoseconds' := UInt32.toNat_inj.mp (by omega)
    rw [whole, part]
  · intro same
    rw [same]

theorem nanos_add (room : nanos a + nanos b < 2 ^ 64 * NANO_UNITS) :
    nanos (add a b) = nanos a + nanos b ∧ (add a b).nanoseconds.toNat < NANO_UNITS := by
  have units : (UInt32.ofNat NANO_UNITS).toNat = 1000000000 := rfl
  have part : (a.nanoseconds + b.nanoseconds).toNat =
      a.nanoseconds.toNat + b.nanoseconds.toNat := by
    rw [UInt32.toNat_add]
    simp only [NANO_UNITS] at first second
    omega
  have whole : (a.seconds + b.seconds).toNat = a.seconds.toNat + b.seconds.toNat := by
    rw [UInt64.toNat_add]
    simp only [nanos, NANO_UNITS] at room
    omega
  simp only [nanos, NANO_UNITS] at first second room
  by_cases carry : (a.nanoseconds + b.nanoseconds).toNat ≥ NANO_UNITS
  · have sum : add a b = ⟨a.seconds + b.seconds + 1,
        a.nanoseconds + b.nanoseconds - UInt32.ofNat NANO_UNITS⟩ := if_pos carry
    have fits : UInt32.ofNat NANO_UNITS ≤ a.nanoseconds + b.nanoseconds :=
      UInt32.le_iff_toNat_le.mpr carry
    have rest : (a.nanoseconds + b.nanoseconds - UInt32.ofNat NANO_UNITS).toNat =
        a.nanoseconds.toNat + b.nanoseconds.toNat - 1000000000 := by
      rw [UInt32.toNat_sub_of_le _ _ fits, units, part]
    have next : (a.seconds + b.seconds + 1).toNat = a.seconds.toNat + b.seconds.toNat + 1 := by
      rw [part, NANO_UNITS] at carry
      simp
      omega
    rw [part, NANO_UNITS] at carry
    simp only [sum, nanos, next, rest]
    simp only [NANO_UNITS]
    omega
  · have sum : add a b = ⟨a.seconds + b.seconds, a.nanoseconds + b.nanoseconds⟩ := if_neg carry
    rw [part, NANO_UNITS] at carry
    simp only [sum, nanos, whole, part, NANO_UNITS]
    omega

end

theorem ge_kInfinity_iff (normal : a.nanoseconds.toNat < NANO_UNITS) :
    ge a kInfinity = true ↔ a = kInfinity := by
  have bound := a.seconds.toNat_lt
  have limit : kInfinity.nanoseconds.toNat < NANO_UNITS := by decide
  have last : nanos kInfinity = 18446744073709551615 * 1000000000 + 999999999 := rfl
  rw [ge, le_iff limit normal, ← nanos_inj normal limit, last]
  simp only [nanos, NANO_UNITS] at normal ⊢
  omega

end

end Libofp.Text.TimeOrder
