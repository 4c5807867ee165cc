/- GID: Libofp/Base/OnesComplement
   generality: G
   digest: Sums of 16-bit words with the carry added at the low end, and the numbers that such
     sums stand for. -/

import Mathlib.Data.List.Basic
import Mathlib.Tactic.Common

set_option autoImplicit false

namespace Libofp.Base.OnesComplement

/-- The word that a natural number comes to: only zero comes to zero, and a multiple of 65535
to 65535. -/
def reduce (n : Nat) : Nat := if n = 0 then 0 else (n - 1) % 65535 + 1

theorem reduce_le (n : Nat) : reduce n ≤ 65535 := by
  rw [reduce]
  split <;> omega

theorem reduce_mod (n : Nat) : reduce n % 65535 = n % 65535 := by
  rw [reduce]
  split <;> omega

@[simp] theorem reduce_eq_zero {n : Nat} : reduce n = 0 ↔ n = 0 := by
  rw [reduce]
  split <;> omega

theorem reduce_of_le {n : Nat} (small : n ≤ 65535) : reduce n = n := by
  rw [reduce]
  split <;> omega

/-- Numbers that agree modulo 65535 come to the same word, unless one of them alone is zero. -/
theorem reduce_congr {m n : Nat} (same : m % 65535 = n % 65535) (zero : m = 0 ↔ n = 0) :
    reduce m = reduce n := by
  rw [reduce, reduce]
  split <;> split <;> omega

theorem reduce_add_left (m n : Nat) : reduce (reduce m + n) = reduce (m + n) := by
  have word := reduce_mod m
  have none := @reduce_eq_zero m
  apply reduce_congr <;> omega

theorem reduce_mul_right (k m : Nat) : reduce (k * reduce m) = reduce (k * m) := by
  apply reduce_congr
  · rw [Nat.mul_mod, reduce_mod, ← Nat.mul_mod]
  · rw [Nat.mul_eq_zero, Nat.mul_eq_zero, reduce_eq_zero]

def addAround (a b : Nat) : Nat := if a + b < 65536 then a + b else a + b - 65535

theorem addAround_reduce {b : Nat} (m : Nat) (word : b ≤ 65535) :
    addAround (reduce m) b = reduce (m + b) := by
  have small := reduce_le m
  rw [← reduce_add_left, addAround]
  split
  · exact (reduce_of_le (by omega)).symm
  · have less : reduce m + b - 65535 ≤ 65535 := by
      omega
    rw [← reduce_of_le less]
    apply reduce_congr <;> omega

/-- The words of a byte string, with a zero behind the last byte of an odd one. -/
def words : List UInt8 → List Nat
  | first :: second :: rest => (256 * first.toNat + second.toNat) :: words rest
  | [last] => [256 * last.toNat]
  | [] => []

def wordSum (data : List UInt8) : Nat := (words data).foldl addAround 0

def internetChecksum (data : List UInt8) : Nat := 65535 - wordSum data

/-- The bytes of a string counted as high and low halves of words, in turns. -/
def weigh (low : Bool) : List UInt8 → Nat
  | [] => 0
  | byte :: rest => (if low then byte.toNat else 256 * byte.toNat) + weigh (!low) rest

theorem weigh_append (low : Bool) (x y : List UInt8) :
    weigh low (x ++ y) = weigh low x + weigh (low ^^ decide (x.length % 2 = 1)) y := by
  induction x generalizing low with
  | nil => simp [weigh]
  | cons byte x ih =>
    have turn : (!low ^^ decide (x.length % 2 = 1)) =
        (low ^^ decide ((byte :: x).length % 2 = 1)) := by
      rcases Nat.mod_two_eq_zero_or_one x.length with even | odd
      · have next : (x.length + 1) % 2 = 1 := by
          omega
        simp [even, next]
      · have next : (x.length + 1) % 2 = 0 := by
          omega
        simp [odd, next]
    rw [List.cons_append, weigh, weigh, ih, turn, Nat.add_assoc]

theorem weigh_le (low : Bool) (x : List UInt8) : weigh low x ≤ 65280 * x.length := by
  induction x generalizing low with
  | nil => simp [weigh]
  | cons byte x ih =>
    have rest := ih (!low)
    have small := byte.toNat_lt
    rw [weigh, List.length_cons]
    split <;> omega

/-- Bytes that change places in their words count 256 times as much, or as little. -/
theorem reduce_weigh_not (low : Bool) (x : List UInt8) :
    reduce (256 * weigh low x) = reduce (weigh (!low) x) := by
  have both : (256 * weigh low x) % 65535 = weigh (!low) x % 65535 ∧
      (weigh low x = 0 ↔ weigh (!low) x = 0) := by
    induction x generalizing low with
    | nil => simp [weigh]
    | cons byte x ih =>
      obtain ⟨same, zero⟩ := ih (!low)
      rw [weigh, weigh]
      cases low with
      | false =>
        simp only [Bool.not_false, Bool.not_true, Bool.false_eq_true, if_false, if_true] at *
        omega
      | true =>
        simp only [Bool.not_false, Bool.not_true, Bool.false_eq_true, if_false, if_true] at *
        omega
  apply reduce_congr both.1
  omega

theorem foldl_words (data : List UInt8) (m : Nat) :
    (words data).foldl addAround (reduce m) = reduce (m + weigh false data) := by
  induction data using words.induct generalizing m with
  | case1 first second rest ih =>
    have high := first.toNat_lt
    have low := second.toNat_lt
    rw [words, List.foldl_cons, addAround_reduce m (by omega), ih]
    simp only [weigh, Bool.not_false, Bool.not_true, Bool.false_eq_true, if_false, if_true,
      Nat.add_assoc]
  | case2 last =>
    have high := last.toNat_lt
    rw [words, List.foldl_cons, List.foldl_nil, addAround_reduce m (by omega)]
    simp [weigh]
  | case3 => simp [words, weigh]

theorem wordSum_eq (data : List UInt8) : wordSum data = reduce (weigh false data) := by
  have start := foldl_words data 0
  rwa [Nat.zero_add, reduce_of_le (by omega)] at start

theorem weigh_word {high low : UInt8} {word : Nat} (is : 256 * high.toNat + low.toNat = word)
    (rest : List UInt8) : weigh false (high :: low :: rest) = word + weigh false rest := by
  simp [weigh, ← is, Nat.add_assoc]

theorem wordSum_with_checksum {x : List UInt8} (even : x.length % 2 = 0) (y : List UInt8)
    {high low : UInt8} (is : 256 * high.toNat + low.toNat = internetChecksum (x ++ 0 :: 0 :: y)) :
    wordSum (x ++ high :: low :: y) = 65535 := by
  have half : decide (x.length % 2 = 1) = false := by
    rw [decide_eq_false_iff_not]
    omega
  have blank : weigh false (0 :: 0 :: y) = weigh false y := by
    simp [weigh]
  have word := reduce_le (weigh false x + weigh false y)
  have same := reduce_mod (weigh false x + weigh false y)
  rw [internetChecksum, wordSum_eq, weigh_append, half, Bool.xor_false, blank] at is
  rw [wordSum_eq, weigh_append, half, Bool.xor_false, weigh_word is y]
  have none := @reduce_eq_zero (weigh false x + weigh false y)
  refine Eq.trans ?_ (reduce_of_le (Nat.le_refl 65535))
  apply reduce_congr <;> omega

/-- What stands before a string that sums to 65535 decides whether the whole does. -/
theorem wordSum_append_full {x y : List UInt8} (even : x.length % 2 = 0)
    (full : wordSum y = 65535) : wordSum (x ++ y) = 65535 ↔ weigh false x % 65535 = 0 := by
  have half : decide (x.length % 2 = 1) = false := by
    rw [decide_eq_false_iff_not]
    omega
  have back := reduce_mod (weigh false y)
  have whole := reduce_mod (weigh false x + weigh false y)
  have bound := reduce_le (weigh false x + weigh false y)
  have none := @reduce_eq_zero (weigh false y)
  have none' := @reduce_eq_zero (weigh false x + weigh false y)
  rw [wordSum_eq] at full
  rw [wordSum_eq, weigh_append, half, Bool.xor_false]
  omega

end Libofp.Base.OnesComplement
