/- GID: Libofp/Text/Base64
   digest: Raw data in hexadecimal and in Base64, read back by the library's own reader and by the
     decoding of RFC 4648. -/

import Libofp.Text.Hex

set_option autoImplicit false

namespace Libofp.Text.Base64

open Octets.ByteRange Hex

def Base64Digits : Bytes :=
  literal "ABCDEFGHIJKLMNOPQRSTUVWXYZabcdefghijklmnopqrstuvwxyz0123456789+/"

def toBase64 (value : UInt32) : UInt8 := Base64Digits.getD value.toNat 0

/-- The loop of `RawDataToBase64` over whole blocks and its two ends, with the characters that
are written so far. -/
def rawDataToBase64Loop : Bytes → Bytes → Bytes
  | dst, a :: b :: c :: src =>
    let block24 := a.toUInt32 <<< 16 ||| b.toUInt32 <<< 8 ||| c.toUInt32
    rawDataToBase64Loop
      (dst ++ [toBase64 (block24 >>> 18 &&& 0x03F), toBase64 (block24 >>> 12 &&& 0x03F),
        toBase64 (block24 >>> 6 &&& 0x03F), toBase64 (block24 &&& 0x03F)]) src
  | dst, [a, b] =>
    let block24 := a.toUInt32 <<< 16 ||| b.toUInt32 <<< 8
    dst ++ [toBase64 (block24 >>> 18 &&& 0x03F), toBase64 (block24 >>> 12 &&& 0x03F),
      toBase64 (block24 >>> 6 &&& 0x03F), '='.toUInt8]
  | dst, [a] =>
    let block24 := a.toUInt32 <<< 16
    dst ++ [toBase64 (block24 >>> 18 &&& 0x03F), toBase64 (block24 >>> 12 &&& 0x03F),
      '='.toUInt8, '='.toUInt8]
  | dst, [] => dst

/-- `RawDataToBase64`: the characters are written over the zeros of a string that has its
length from the beginning. -/
def rawDataToBase64 (data : Bytes) : Bytes :=
  if data.length > kTwoGigabytes then literal "== base64 too big =="
  else
    let len := (data.length + 2) / 3 * 4
    let dst := rawDataToBase64Loop [] data
    dst ++ List.replicate (len - dst.length) 0

def sextet (c : UInt8) : Option Nat :=
  if 'A'.toUInt8 ≤ c ∧ c ≤ 'Z'.toUInt8 then some (c - 'A'.toUInt8).toNat
  else if 'a'.toUInt8 ≤ c ∧ c ≤ 'z'.toUInt8 then some ((c - 'a'.toUInt8).toNat + 26)
  else if '0'.toUInt8 ≤ c ∧ c ≤ '9'.toUInt8 then some ((c - '0'.toUInt8).toNat + 52)
  else if c = '+'.toUInt8 then some 62
  else if c = '/'.toUInt8 then some 63
  else none

/-- The bytes that a string of whole quanta stands for. Padding is accepted in the last quantum
only, and with zeros in the bits that it leaves. -/
def decode : Bytes → Option Bytes
  | [] => some []
  | a :: b :: c :: d :: rest => do
    let x ← sextet a
    let y ← sextet b
    if c = '='.toUInt8 ∧ d = '='.toUInt8 ∧ rest = [] then
      if y % 16 = 0 then some [UInt8.ofNat (x * 4 + y / 16)] else none
    else
      let z ← sextet c
      if d = '='.toUInt8 ∧ rest = [] then
        if z % 4 = 0 then
          some [UInt8.ofNat (x * 4 + y / 16), UInt8.ofNat (y % 16 * 16 + z / 4)]
        else none
      else
        let w ← sextet d
        let later ← decode rest
        some (UInt8.ofNat (x * 4 + y / 16) :: UInt8.ofNat (y % 16 * 16 + z / 4) ::
          UInt8.ofNat (z % 4 * 64 + w) :: later)
  | _ => none

section

private theorem sextet_digits : ∀ i : Fin 64, sextet (Base64Digits.getD i 0) = some i.val := by
  decide +kernel

private theorem sextet_toBase64 {value : UInt32} (small : value.toNat < 64) :
    sextet (toBase64 value) = some value.toNat :=
  sextet_digits ⟨value.toNat, small⟩

private theorem toNat_and_63 (n : UInt32) : (n &&& 0x03F).toNat = n.toNat % 64 := by
  exact Nat.and_two_pow_sub_one_eq_mod n.toNat 6

theorem sextet_low (n : UInt32) : sextet (toBase64 (n &&& 0x03F)) = some (n.toNat % 64) := by
  have small := Nat.mod_lt n.toNat (show 0 < 64 by decide)
  rw [← toNat_and_63] at small ⊢
  exact sextet_toBase64 small

theorem toNat_block (a b c : UInt8) :
    (a.toUInt32 <<< 16 ||| b.toUInt32 <<< 8 ||| c.toUInt32).toNat =
      a.toNat * 65536 + b.toNat * 256 + c.toNat := by
  have first := a.toNat_lt
  have second := b.toNat_lt
  have third := c.toNat_lt
  have high : (a.toUInt32 <<< 16).toNat = a.toNat <<< 16 := by
    rw [UInt32.toNat_shiftLeft, UInt8.toNat_toUInt32]
    refine Nat.mod_eq_of_lt ?_
    rw [Nat.shiftLeft_eq]
    exact Nat.lt_of_le_of_lt (Nat.mul_le_mul_right _ (Nat.le_of_lt_succ first)) (by decide)
  have middle : (b.toUInt32 <<< 8).toNat = b.toNat <<< 8 := by
    rw [UInt32.toNat_shiftLeft, UInt8.toNat_toUInt32]
    refine Nat.mod_eq_of_lt ?_
    rw [Nat.shiftLeft_eq]
    exact Nat.lt_of_le_of_lt (Nat.mul_le_mul_right _ (Nat.le_of_lt_succ second)) (by decide)
  have words : a.toNat <<< 16 ||| b.toNat <<< 8 = (a.toNat * 256 + b.toNat) <<< 8 := by
    rw [← Nat.shiftLeft_add_eq_or_of_lt (by rw [Nat.shiftLeft_eq]; omega), Nat.shiftLeft_eq,
      Nat.shiftLeft_eq, Nat.shiftLeft_eq]
    omega
  rw [UInt32.toNat_or, UInt32.toNat_or, high, middle, words, UInt8.toNat_toUInt32,
    ← Nat.shiftLeft_add_eq_or_of_lt third, Nat.shiftLeft_eq]
  omega

theorem sextets_of_block {n : UInt32} {number : Nat} (value : n.toNat = number) :
    sextet (toBase64 (n >>> 18 &&& 0x03F)) = some (number / 2 ^ 18 % 64) ∧
      sextet (toBase64 (n >>> 12 &&& 0x03F)) = some (number / 2 ^ 12 % 64) ∧
      sextet (toBase64 (n >>> 6 &&& 0x03F)) = some (number / 2 ^ 6 % 64) ∧
      sextet (toBase64 (n &&& 0x03F)) = some (number % 64) := by
  subst value
  rw [sextet_low, sextet_low, sextet_low, sextet_low, UInt32.toNat_shiftRight,
    UInt32.toNat_shiftRight, UInt32.toNat_shiftRight, Nat.shiftRight_eq_div_pow,
    Nat.shiftRight_eq_div_pow, Nat.shiftRight_eq_div_pow]
  exact ⟨rfl, rfl, rfl, rfl⟩

theorem ne_pad_of_sextet {c : UInt8} {v : Nat} (value : sextet c = some v) : c ≠ '='.toUInt8 := by
  rintro rfl
  have none : sextet '='.toUInt8 = none := by decide
  exact Option.some_ne_none v (value.symm.trans none)

variable {a b c d : UInt8} {x y z w : Nat} {rest later : Bytes}

private theorem decode_quantum (first : sextet a = some x) (second : sextet b = some y)
    (third : sextet c = some z) (fourth : sextet d = some w)
    (following : decode rest = some later) :
    decode (a :: b :: c :: d :: rest) =
      some (UInt8.ofNat (x * 4 + y / 16) :: UInt8.ofNat (y % 16 * 16 + z / 4) ::
        UInt8.ofNat (z % 4 * 64 + w) :: later) := by
  simp [decode, first, second, third, fourth, following, ne_pad_of_sextet third,
    ne_pad_of_sextet fourth]

private theorem decode_two (first : sextet a = some x) (second : sextet b = some y)
    (third : sextet c = some z) (zeros : z % 4 = 0) :
    decode [a, b, c, '='.toUInt8] =
      some [UInt8.ofNat (x * 4 + y / 16), UInt8.ofNat (y % 16 * 16 + z / 4)] := by
  simp [decode, first, second, third, zeros, ne_pad_of_sextet third]

private theorem decode_one (first : sextet a = some x) (second : sextet b = some y)
    (zeros : y % 16 = 0) :
    decode [a, b, '='.toUInt8, '='.toUInt8] = some [UInt8.ofNat (x * 4 + y / 16)] := by
  simp [decode, first, second, zeros]

end

/-- The text is in whole quanta, stands for the data, and has as many padding characters at its
end, and only there, as bytes are missing from the last block. -/
structure Encodes (text data : Bytes) : Prop where
  length : text.length = (data.length + 2) / 3 * 4
  decoded : decode text = some data
  padding : ∃ body, text = body ++ List.replicate ((3 - data.length % 3) % 3) '='.toUInt8 ∧
    '='.toUInt8 ∉ body

theorem Encodes.nil : Encodes [] [] := ⟨rfl, rfl, [], rfl, List.not_mem_nil⟩

theorem Encodes.block {a b c : UInt8} {text data : Bytes} {n : UInt32}
    (value : n.toNat = a.toNat * 65536 + b.toNat * 256 + c.toNat) (following : Encodes text data) :
    Encodes ([toBase64 (n >>> 18 &&& 0x03F), toBase64 (n >>> 12 &&& 0x03F),
      toBase64 (n >>> 6 &&& 0x03F), toBase64 (n &&& 0x03F)] ++ text) (a :: b :: c :: data) := by
  have low := a.toNat_lt
  have middle := b.toNat_lt
  have high := c.toNat_lt
  obtain ⟨first, second, third, fourth⟩ := sextets_of_block value
  refine ⟨?_, ?_, ?_⟩
  · rw [List.length_append, following.length]
    simp only [List.length_cons, List.length_nil]
    omega
  · refine (decode_quantum first second third fourth following.decoded).trans ?_
    congr
    all_goals
      apply UInt8.toNat_inj.mp
      rw [UInt8.toNat_ofNat']
      omega
  · obtain ⟨body, same, clean⟩ := following.padding
    have missing : (a :: b :: c :: data).length % 3 = data.length % 3 := by
      simp only [List.length_cons]
      omega
    rw [same, missing]
    refine ⟨_, (List.append_assoc _ _ _).symm, ?_⟩
    simp [clean, (ne_pad_of_sextet first).symm, (ne_pad_of_sextet second).symm,
      (ne_pad_of_sextet third).symm, (ne_pad_of_sextet fourth).symm]

theorem Encodes.two {a b : UInt8} {n : UInt32} (value : n.toNat = a.toNat * 65536 + b.toNat * 256) :
    Encodes [toBase64 (n >>> 18 &&& 0x03F), toBase64 (n >>> 12 &&& 0x03F),
      toBase64 (n >>> 6 &&& 0x03F), '='.toUInt8] [a, b] := by
  have low := a.toNat_lt
  have middle := b.toNat_lt
  obtain ⟨first, second, third, -⟩ := sextets_of_block value
  refine ⟨by simp, ?_, ?_⟩
  · refine (decode_two first second third (by omega)).trans ?_
    congr
    all_goals
      apply UInt8.toNat_inj.mp
      rw [UInt8.toNat_ofNat']
      omega
  · refine ⟨[_, _, _], rfl, ?_⟩
    simp [(ne_pad_of_sextet first).symm, (ne_pad_of_sextet second).symm,
      (ne_pad_of_sextet third).symm]

theorem Encodes.one {a : UInt8} {n : UInt32} (value : n.toNat = a.toNat * 65536) :
    Encodes [toBase64 (n >>> 18 &&& 0x03F), toBase64 (n >>> 12 &&& 0x03F), '='.toUInt8,
      '='.toUInt8] [a] := by
  have low := a.toNat_lt
  obtain ⟨first, second, -, -⟩ := sextets_of_block value
  refine ⟨by simp, ?_, ?_⟩
  · refine (decode_one first second (by omega)).trans ?_
    congr
    apply UInt8.toNat_inj.mp
    rw [UInt8.toNat_ofNat']
    omega
  · refine ⟨[_, _], rfl, ?_⟩
    simp [(ne_pad_of_sextet first).symm, (ne_pad_of_sextet second).symm]

private theorem rawDataToBase64Loop_encodes (dst data : Bytes) :
    ∃ text, rawDataToBase64Loop dst data = dst ++ text ∧ Encodes text data := by
  have zero : (0 : UInt8).toNat = 0 := rfl
  have zero32 : (0 : UInt8).toUInt32 = 0 := rfl
  fun_induction rawDataToBase64Loop dst data with
  | case1 dst a b c src block24 ih =>
    obtain ⟨text, written, following⟩ := ih
    exact ⟨_, by rw [written, List.append_assoc], following.block (toNat_block a b c)⟩
  | case2 dst a b block24 =>
    have value := toNat_block a b 0
    rw [zero32, UInt32.or_zero, zero, Nat.add_zero] at value
    exact ⟨_, rfl, .two value⟩
  | case3 dst a block24 =>
    have value := toNat_block a 0 0
    rw [zero32, UInt32.or_zero, UInt32.zero_shiftLeft, UInt32.or_zero, zero, Nat.zero_mul,
      Nat.add_zero] at value
    exact ⟨_, rfl, .one value⟩
  | case4 dst => exact ⟨[], (List.append_nil dst).symm, .nil⟩

private theorem rawDataToBase64_encodes {data : Bytes} (small : data.length ≤ kTwoGigabytes) :
    Encodes (rawDataToBase64 data) data := by
  obtain ⟨text, written, encodes⟩ := rawDataToBase64Loop_encodes [] data
  rw [List.nil_append] at written
  simp only [rawDataToBase64, if_neg (Nat.not_lt.mpr small), written]
  rwa [encodes.length, Nat.sub_self, List.replicate_zero, List.append_nil]

/-- Up to the limit, both ways of writing hexadecimal text give the same characters, which are
read back, and the Base64 text is a padded encoding of the data. -/
theorem rawData_encodings (d : Bytes) (small : d.length ≤ 2 ^ 31 - 1) :
    (∀ os, rawDataToHexStream os d = os ++ rawDataToHex d) ∧ hexToRawData (rawDataToHex d) = d ∧
      Encodes (rawDataToBase64 d) d := by
  have below : d.length ≤ kTwoGigabytes := Nat.le_trans small (by decide)
  refine ⟨fun os => ?_, ?_, rawDataToBase64_encodes below⟩
  · rw [rawDataToHexStream_eq below, rawDataToHex_eq below]
  · rw [rawDataToHex_eq below, hexToRawData_flatMap]

theorem rawData_encodings_four :
    hexToRawData (rawDataToHex [0, 0x9F, 0xFF, 1]) = [0, 0x9F, 0xFF, 1] ∧
      decode (rawDataToBase64 [0, 0x9F, 0xFF, 1]) = some [0, 0x9F, 0xFF, 1] :=
  have encodings := rawData_encodings [0, 0x9F, 0xFF, 1] (by decide)
  ⟨encodings.2.1, encodings.2.2.decoded⟩

end Libofp.Text.Base64
