/- GID: Libofp/Base/Digits
   generality: G
   digest: Characters as bytes, the digits among them, and the numbers that strings of digits
     stand for. -/

import Mathlib.Data.Nat.Digits.Lemmas
import Mathlib.Tactic.Common

set_option autoImplicit false

namespace Libofp.Base.Digits

instance decidableForallByte {p : UInt8 → Prop} [DecidablePred p] : Decidable (∀ b, p b) :=
  decidable_of_iff (∀ i : Fin 256, p (UInt8.ofFin i))
    ⟨fun all b => all b.toFin, fun all i => all (UInt8.ofFin i)⟩

def digitValue (c : UInt8) : Nat :=
  if '0'.toUInt8 ≤ c ∧ c ≤ '9'.toUInt8 then (c - '0'.toUInt8).toNat
  else if 'a'.toUInt8 ≤ c ∧ c ≤ 'z'.toUInt8 then (c - 'a'.toUInt8).toNat + 10
  else if 'A'.toUInt8 ≤ c ∧ c ≤ 'Z'.toUInt8 then (c - 'A'.toUInt8).toNat + 10
  else 36

theorem digitValue_le : ∀ c : UInt8, digitValue c ≤ 36 := by
  decide +kernel

def IsDigit (radix : Nat) (c : UInt8) : Prop := digitValue c < radix

instance (radix : Nat) (c : UInt8) : Decidable (IsDigit radix c) :=
  inferInstanceAs (Decidable (_ < _))

def IsNumeral (radix : Nat) (s : List UInt8) : Prop := s ≠ [] ∧ ∀ c ∈ s, IsDigit radix c

/-- The number that a string of digits stands for, the first digit being the highest. -/
def numeral (radix : Nat) (s : List UInt8) : Nat := Nat.ofDigits radix (s.map digitValue).reverse

section

variable {radix : Nat} {s t : List UInt8} {c : UInt8}

@[simp]
theorem numeral_nil : numeral radix [] = 0 := rfl

theorem numeral_append : numeral radix (s ++ t) = numeral radix s * radix ^ t.length +
    numeral radix t := by
  rw [numeral, List.map_append, List.reverse_append, Nat.ofDigits_append, List.length_reverse,
    List.length_map, Nat.mul_comm, Nat.add_comm, numeral, numeral]

@[simp]
theorem numeral_singleton : numeral radix [c] = digitValue c := Nat.ofDigits_singleton

theorem numeral_concat : numeral radix (s ++ [c]) = numeral radix s * radix + digitValue c := by
  rw [numeral_append, numeral_singleton, List.length_singleton, Nat.pow_one]

theorem numeral_lt (more : 1 < radix) (digits : ∀ c ∈ s, IsDigit radix c) :
    numeral radix s < radix ^ s.length := by
  have bound := Nat.ofDigits_lt_base_pow_length (l := (s.map digitValue).reverse) more
    fun d member => by
      obtain ⟨c, inside, rfl⟩ := List.mem_map.mp (List.mem_reverse.mp member)
      exact digits c inside
  rwa [List.length_reverse, List.length_map] at bound

theorem numeral_cons :
    numeral radix (c :: s) = digitValue c * radix ^ s.length + numeral radix s := by
  rw [← List.singleton_append, numeral_append, numeral_singleton]

theorem numeral_zeros (n : Nat) : numeral radix (List.replicate n '0'.toUInt8) = 0 := by
  induction n with
  | zero => rfl
  | succ n ih =>
    rw [List.replicate_succ, numeral_cons, ih]
    exact Nat.zero_mul _

end

def digitChar (d : Nat) : UInt8 :=
  if d < 10 then '0'.toUInt8 + UInt8.ofNat d else 'a'.toUInt8 + UInt8.ofNat (d - 10)

def printNat (radix n : Nat) : List UInt8 :=
  if n = 0 then ['0'.toUInt8] else (Nat.digits radix n).reverse.map digitChar

section

variable {radix : Nat}

theorem digitValue_digitChar : ∀ d : Fin 36, digitValue (digitChar d) = d := by
  decide +kernel

theorem printNat_digits (more : 1 < radix) (most : radix ≤ 36) (n : Nat) :
    ∀ c ∈ printNat radix n, IsDigit radix c := by
  intro c member
  rw [printNat] at member
  split at member
  · rw [List.mem_singleton.mp member]
    exact Nat.lt_trans Nat.zero_lt_one more
  · obtain ⟨d, inside, rfl⟩ := List.mem_map.mp member
    have small := Nat.digits_lt_base more (List.mem_reverse.mp inside)
    have same := digitValue_digitChar ⟨d, Nat.lt_of_lt_of_le small most⟩
    rwa [IsDigit, same]

theorem numeral_printNat (more : 1 < radix) (most : radix ≤ 36) (n : Nat) :
    numeral radix (printNat radix n) = n := by
  rw [printNat]
  split
  · next zero => rw [numeral_singleton, zero]; rfl
  · have same : ((Nat.digits radix n).reverse.map digitChar).map digitValue =
        (Nat.digits radix n).reverse := by
      rw [List.map_map]
      refine (List.map_congr_left fun d inside => ?_).trans (List.map_id _)
      have small := Nat.digits_lt_base more (List.mem_reverse.mp inside)
      exact digitValue_digitChar ⟨d, Nat.lt_of_lt_of_le small most⟩
    rw [numeral, same, List.reverse_reverse, Nat.ofDigits_digits]

theorem printNat_ne_nil (n : Nat) : printNat radix n ≠ [] := by
  rw [printNat]
  split
  · exact List.cons_ne_nil _ _
  · next positive => simp [Nat.digits_eq_nil_iff_eq_zero, positive]

theorem isNumeral_printNat (more : 1 < radix) (most : radix ≤ 36) (n : Nat) :
    IsNumeral radix (printNat radix n) :=
  ⟨printNat_ne_nil n, printNat_digits more most n⟩

theorem length_printNat (more : 1 < radix) {n size : Nat} (small : n < radix ^ size)
    (positive : 0 < size) : (printNat radix n).length ≤ size := by
  rw [printNat]
  split
  · exact positive
  · rw [List.length_map, List.length_reverse]
    exact (Nat.digits_length_le_iff more n).mpr small

end

end Libofp.Base.Digits
