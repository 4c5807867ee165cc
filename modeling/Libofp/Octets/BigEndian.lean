/- GID: Libofp/Octets/BigEndian
   digest: Big-endian integers read from byte strings and written to them. -/

import Libofp.Octets.ByteRange
import Mathlib.Data.List.GetD
import Mathlib.Tactic.Ring

set_option autoImplicit false

namespace Libofp.Octets.BigEndian

open ByteRange

/-- The value of the byte at an offset. Callers read inside the byte string. -/
def big8 (data : Bytes) (offset : Nat) : Nat := (data.getD offset 0).toNat

/-- `Big16_unaligned` and the aligned reads of a `Big16` field. -/
def big16 (data : Bytes) (offset : Nat) : Nat :=
  big8 data offset * 256 + big8 data (offset + 1)

/-- `Big32_unaligned` and the aligned reads of a `Big32` field. -/
def big32 (data : Bytes) (offset : Nat) : Nat :=
  big16 data offset * 65536 + big16 data (offset + 2)

/-- The number that a whole byte string spells, most significant byte first. -/
def bigNat (data : Bytes) : Nat := data.foldl (fun n byte => n * 256 + byte.toNat) 0

/-- The low `width` bytes of a number, most significant byte first. -/
def bigBytes : Nat → Nat → Bytes
  | 0, _ => []
  | width + 1, n => UInt8.ofNat (n / 256 ^ width) :: bigBytes width n

@[simp] theorem length_bigBytes (width n : Nat) : (bigBytes width n).length = width := by
  induction width with
  | zero => rfl
  | succ width ih => simp [bigBytes, ih]

theorem big8_lt (data : Bytes) (offset : Nat) : big8 data offset < 256 :=
  UInt8.toNat_lt _

theorem big16_lt (data : Bytes) (offset : Nat) : big16 data offset < 65536 := by
  have high := big8_lt data offset
  have low := big8_lt data (offset + 1)
  simp only [big16]
  omega

variable {offset : Nat} {x : Bytes}

theorem big8_append (y : Bytes) (inside : offset < x.length) :
    big8 (x ++ y) offset = big8 x offset := by
  simp only [big8, List.getD_append _ _ _ _ inside]

theorem big16_append (y : Bytes) (inside : offset + 2 ≤ x.length) :
    big16 (x ++ y) offset = big16 x offset := by
  rw [big16, big16, big8_append y (by omega), big8_append y (by omega)]

theorem big8_take {k : Nat} (inside : offset < k) :
    big8 (x.take k) offset = big8 x offset := by
  simp [big8, List.getElem?_take_of_lt inside]

theorem big16_take {k : Nat} (inside : offset + 2 ≤ k) :
    big16 (x.take k) offset = big16 x offset := by
  rw [big16, big16, big8_take (by omega), big8_take (by omega)]

theorem big8_drop (x : Bytes) (k offset : Nat) : big8 (x.drop k) offset = big8 x (k + offset) := by
  simp [big8, List.getElem?_drop]

theorem big16_drop (x : Bytes) (k offset : Nat) :
    big16 (x.drop k) offset = big16 x (k + offset) := by
  rw [big16, big16, big8_drop, big8_drop, Nat.add_assoc]

theorem big32_append (y : Bytes) (inside : offset + 4 ≤ x.length) :
    big32 (x ++ y) offset = big32 x offset := by
  rw [big32, big32, big16_append y (by omega), big16_append y (by omega)]

theorem big32_take {k : Nat} (inside : offset + 4 ≤ k) :
    big32 (x.take k) offset = big32 x offset := by
  rw [big32, big32, big16_take (by omega), big16_take (by omega)]

theorem big32_drop (x : Bytes) (k offset : Nat) :
    big32 (x.drop k) offset = big32 x (k + offset) := by
  rw [big32, big32, big16_drop, big16_drop, Nat.add_assoc]

theorem big16_bigBytes (n : Nat) : big16 (bigBytes 2 n) 0 = n % 65536 := by
  simp [big16, big8, bigBytes]
  omega

theorem big32_bigBytes (n : Nat) : big32 (bigBytes 4 n) 0 = n % 4294967296 := by
  simp [big32, big16, big8, bigBytes]
  omega

/-! Reading behind the first part of a string, or at its start. With the lengths of the parts
as simp lemmas these take a read at a fixed offset to the part that it is in. -/

section

variable {x : Bytes} (y : Bytes) {pos : Nat} (behind : x.length ≤ pos)

include behind

theorem big8_skip : big8 (x ++ y) pos = big8 y (pos - x.length) := by
  obtain ⟨k, rfl⟩ := Nat.exists_eq_add_of_le behind
  rw [← big8_drop, List.drop_left, Nat.add_sub_cancel_left]

theorem big16_skip : big16 (x ++ y) pos = big16 y (pos - x.length) := by
  obtain ⟨k, rfl⟩ := Nat.exists_eq_add_of_le behind
  rw [← big16_drop, List.drop_left, Nat.add_sub_cancel_left]

theorem big32_skip : big32 (x ++ y) pos = big32 y (pos - x.length) := by
  obtain ⟨k, rfl⟩ := Nat.exists_eq_add_of_le behind
  rw [← big32_drop, List.drop_left, Nat.add_sub_cancel_left]

end

theorem big8_here (n : Nat) (y : Bytes) : big8 (bigBytes 1 n ++ y) 0 = n % 256 := by
  simp [big8, bigBytes]

theorem big16_here (n : Nat) (y : Bytes) : big16 (bigBytes 2 n ++ y) 0 = n % 65536 := by
  rw [big16_append _ (by simp), big16_bigBytes]

theorem big32_here (n : Nat) (y : Bytes) : big32 (bigBytes 4 n ++ y) 0 = n % 4294967296 := by
  rw [big32_append _ (by simp), big32_bigBytes]

section

variable {x : Bytes} (y : Bytes) {n pos : Nat} (front : x.length = pos)

include front

theorem big8_within : big8 (x ++ (bigBytes 1 n ++ y)) pos = n % 256 := by
  rw [big8_skip _ front.le, front, Nat.sub_self, big8_here]

theorem big16_within : big16 (x ++ (bigBytes 2 n ++ y)) pos = n % 65536 := by
  rw [big16_skip _ front.le, front, Nat.sub_self, big16_here]

theorem big32_within : big32 (x ++ (bigBytes 4 n ++ y)) pos = n % 4294967296 := by
  rw [big32_skip _ front.le, front, Nat.sub_self, big32_here]

end

theorem foldl_bigBytes (width n start : Nat) :
    (bigBytes width n).foldl (fun n byte => n * 256 + byte.toNat) start =
      start * 256 ^ width + n % 256 ^ width := by
  induction width generalizing start with
  | zero => simp [bigBytes, Nat.mod_one]
  | succ width ih =>
    rw [bigBytes, List.foldl_cons, ih, Nat.mod_pow_succ, UInt8.toNat_ofNat']
    ring

theorem bigNat_bigBytes (width n : Nat) : bigNat (bigBytes width n) = n % 256 ^ width := by
  rw [bigNat, foldl_bigBytes, Nat.zero_mul, Nat.zero_add]

theorem bigBytes_add_mul (width n k : Nat) :
    bigBytes width (n + k * 256 ^ width) = bigBytes width n := by
  induction width generalizing k with
  | zero => rfl
  | succ width ih =>
    have shift : n + k * 256 ^ (width + 1) = n + k * 256 * 256 ^ width := by ring
    have low : UInt8.ofNat (n / 256 ^ width + k * 256) = UInt8.ofNat (n / 256 ^ width) := by
      apply UInt8.toNat_inj.mp
      rw [UInt8.toNat_ofNat', UInt8.toNat_ofNat', Nat.add_mul_mod_self_right]
    rw [shift, bigBytes, bigBytes, Nat.add_mul_div_right _ _ (Nat.pow_pos (by decide)), low, ih]

theorem bigBytes_mod (width n : Nat) : bigBytes width (n % 256 ^ width) = bigBytes width n := by
  rw [← bigBytes_add_mul width (n % 256 ^ width) (n / 256 ^ width), Nat.mul_comm, Nat.mod_add_div]

theorem foldl_start (data : Bytes) (start : Nat) :
    data.foldl (fun n byte => n * 256 + byte.toNat) start =
      start * 256 ^ data.length + bigNat data := by
  induction data generalizing start with
  | nil => rw [List.length_nil, pow_zero, Nat.mul_one]; rfl
  | cons byte data ih =>
    rw [bigNat, List.foldl_cons, List.foldl_cons, ih, ih, List.length_cons]
    ring

theorem bigNat_cons (byte : UInt8) (data : Bytes) :
    bigNat (byte :: data) = byte.toNat * 256 ^ data.length + bigNat data := by
  rw [bigNat, List.foldl_cons, foldl_start, Nat.zero_mul, Nat.zero_add]

theorem bigNat_lt (data : Bytes) : bigNat data < 256 ^ data.length := by
  induction data with
  | nil => exact Nat.one_pos
  | cons byte data ih =>
    have small : byte.toNat + 1 ≤ 256 := UInt8.toNat_lt byte
    calc bigNat (byte :: data) = byte.toNat * 256 ^ data.length + bigNat data := bigNat_cons ..
      _ < byte.toNat * 256 ^ data.length + 256 ^ data.length := Nat.add_lt_add_left ih _
      _ = (byte.toNat + 1) * 256 ^ data.length := (Nat.succ_mul ..).symm
      _ ≤ 256 * 256 ^ data.length := Nat.mul_le_mul_right _ small
      _ = 256 ^ (byte :: data).length := by rw [List.length_cons, pow_succ, Nat.mul_comm]

theorem bigBytes_bigNat (data : Bytes) : bigBytes data.length (bigNat data) = data := by
  induction data with
  | nil => rfl
  | cons byte data ih =>
    have less := bigNat_lt data
    have first : UInt8.ofNat ((byte.toNat * 256 ^ data.length + bigNat data) / 256 ^ data.length) =
        byte := by
      rw [Nat.add_comm, Nat.add_mul_div_right _ _ (Nat.pow_pos (by decide)), Nat.div_eq_of_lt less,
        Nat.zero_add, UInt8.ofNat_toNat]
    rw [List.length_cons, bigNat_cons, bigBytes, first, Nat.add_comm, bigBytes_add_mul, ih]

theorem bigBytes_inj {width x y : Nat} (small : x < 256 ^ width) (small' : y < 256 ^ width)
    (same : bigBytes width x = bigBytes width y) : x = y := by
  have numbers := congrArg bigNat same
  rwa [bigNat_bigBytes, bigNat_bigBytes, Nat.mod_eq_of_lt small, Nat.mod_eq_of_lt small'] at numbers

end Libofp.Octets.BigEndian
