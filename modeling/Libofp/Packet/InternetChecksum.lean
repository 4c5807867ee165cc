/- GID: Libofp/Packet/InternetChecksum
   digest: The checksum of data in several parts is that of the data as a whole. -/

import Libofp.Base.OnesComplement
import Libofp.Packet.FrameBuilder

set_option autoImplicit false

namespace Libofp.Packet.InternetChecksum

open Octets.ByteRange Octets.BigEndian Base.OnesComplement FrameBuilder
open Oxm.Field (Host)

section

variable (host : Host)

def lowFirst : Host → Bool
  | .little => true
  | .big => false

theorem toNat_native16 (first second : UInt8) :
    (native16 host first second).toNat = weigh (lowFirst host) [first, second] := by
  have high := first.toNat_lt
  have low := second.toNat_lt
  cases host with
  | little =>
    simp [native16, lowFirst, weigh]
    omega
  | big =>
    simp [native16, lowFirst, weigh]
    omega

theorem toNat_to16_zero (byte : UInt8) :
    (to16 host byte 0).toNat = weigh (lowFirst host) [byte] := by
  rw [to16, if_pos rfl, toNat_native16]
  simp [weigh]

theorem toNat_to16_one (byte : UInt8) :
    (to16 host byte 1).toNat = weigh (!lowFirst host) [byte] := by
  rw [to16, if_neg (by decide), toNat_native16]
  simp [weigh]

theorem toNat_sumWords (sum : UInt32) (data : Bytes)
    (room : sum.toNat + weigh (lowFirst host) data < 2 ^ 32) :
    (sumWords host sum data).toNat = sum.toNat + weigh (lowFirst host) data := by
  fun_induction sumWords host sum data with
  | case1 sum first second rest ih =>
    have pair := toNat_native16 host first second
    have split : weigh (lowFirst host) (first :: second :: rest) =
        weigh (lowFirst host) [first, second] + weigh (lowFirst host) rest := by
      simp [weigh, Nat.add_assoc]
    have next : (sum + (native16 host first second).toUInt32).toNat =
        sum.toNat + weigh (lowFirst host) [first, second] := by
      rw [UInt32.toNat_add, UInt16.toNat_toUInt32, pair]
      omega
    rw [ih (by omega), next, split, Nat.add_assoc]
  | case2 sum last =>
    have final := toNat_to16_zero host last
    rw [UInt32.toNat_add, UInt16.toNat_toUInt32, final]
    omega
  | case3 sum => simp [weigh]

theorem toNat_fold (n : UInt32) : (fold n).toNat = reduce n.toNat := by
  have small := n.toNat_lt
  have low (k : Nat) : k &&& 65535 = k % 65536 := Nat.and_two_pow_sub_one_eq_mod _ 16
  have once : reduce n.toNat = reduce (n.toNat % 65536 + n.toNat / 65536) := by
    apply reduce_congr <;> omega
  have bound : n.toNat % 65536 + n.toNat / 65536 ≤ 131070 := by
    omega
  simp only [fold, UInt32.toNat_toUInt16, UInt32.toNat_add, UInt32.toNat_and,
    UInt32.toNat_shiftRight, UInt32.reduceToNat, low, Nat.shiftRight_eq_div_pow, Nat.reduceMod,
    Nat.reducePow, once]
  generalize n.toNat % 65536 + n.toNat / 65536 = m at bound ⊢
  rw [Nat.mod_eq_of_lt (by omega : m < 4294967296)]
  -- The second addition adds the carry of the first one, if there is one.
  by_cases carry : m < 65536
  · have none : m / 65536 = 0 := by
      omega
    rw [none, reduce_of_le (by omega)]
    omega
  · have one : m / 65536 = 1 := by
      omega
    rw [one, reduce]
    split <;> omega

theorem swapByteOrder_halves (n : UInt16) :
    (swapByteOrder n).toNat = 256 * (n.toNat % 256) + n.toNat / 256 := by
  have small := n.toNat_lt
  have high : n.toNat <<< 8 % 65536 = (n.toNat % 256) <<< 8 := by
    omega
  have either : n.toNat <<< 8 % 65536 ||| n.toNat >>> 8 =
      256 * (n.toNat % 256) + n.toNat / 256 := by
    rw [high, ← Nat.shiftLeft_add_eq_or_of_lt, Nat.shiftLeft_eq, Nat.shiftRight_eq_div_pow]
    · omega
    · omega
  simp [swapByteOrder, either]

theorem toNat_swapByteOrder (n : UInt16) :
    (swapByteOrder n).toNat = reduce (256 * n.toNat) := by
  have small := n.toNat_lt
  rw [swapByteOrder_halves, reduce]
  split <;> omega

variable {data : Bytes}

theorem weigh_lt (short : data.length ≤ 65535) (low : Bool) :
    weigh low data < 2 ^ 32 := by
  have bound := weigh_le low data
  omega

def turn (odd : Bool) (sum : UInt32) : UInt16 :=
  if odd then swapByteOrder (fold sum) else fold sum

theorem toNat_turn {sum : UInt32} {low : Bool} (is : sum.toNat = weigh low data)
    (odd : Bool) : (turn odd sum).toNat = reduce (weigh (low ^^ odd) data) := by
  cases odd with
  | false => simp [turn, toNat_fold, is]
  | true => simp [turn, toNat_fold, toNat_swapByteOrder, is, reduce_mul_right, reduce_weigh_not]

private theorem sum1c_zero_aligned (data : Bytes) (odd : Bool) :
    sum1c host 0 data true odd = turn odd (sumWords host 0 data) := by
  cases data <;> rfl

private theorem sum1c_zero_unaligned (first : UInt8) (rest : Bytes) (odd : Bool) :
    sum1c host 0 (first :: rest) false odd =
      turn (!odd) (sumWords host (to16 host first 1).toUInt32 rest) := rfl

private theorem sum1c_eq {accum : UInt16} (some : accum ≠ 0) (data : Bytes) (aligned odd : Bool) :
    sum1c host accum data aligned odd =
      fold (accum.toUInt32 + (sum1c host 0 data aligned odd).toUInt32) := by
  simp only [sum1c, if_neg some, if_true]

/-- What `sum1c` makes of one part: the bytes by their places in memory, which change when the
part has an odd offset in the data. -/
private theorem toNat_sum1c_zero (short : data.length ≤ 65535) (aligned odd : Bool) :
    (sum1c host 0 data aligned odd).toNat = reduce (weigh (lowFirst host ^^ odd) data) := by
  have loop (data : Bytes) (short : data.length ≤ 65535) :
      (sumWords host 0 data).toNat = weigh (lowFirst host) data := by
    have room := weigh_lt short (lowFirst host)
    rw [toNat_sumWords]
    · exact Nat.zero_add _
    · simpa using room
  cases aligned with
  | true => rw [sum1c_zero_aligned, toNat_turn (loop data short)]
  | false =>
    cases data with
    | nil =>
      have same : sum1c host 0 [] false odd = turn odd (sumWords host 0 []) := rfl
      rw [same, toNat_turn (loop [] short)]
    | cons first rest =>
      have room := weigh_lt short (!lowFirst host)
      have start := toNat_to16_one host first
      have split : weigh (!lowFirst host) (first :: rest) =
          weigh (!lowFirst host) [first] + weigh (lowFirst host) rest := by
        simp [weigh]
      have sum : (sumWords host (to16 host first 1).toUInt32 rest).toNat =
          weigh (!lowFirst host) (first :: rest) := by
        rw [toNat_sumWords, UInt16.toNat_toUInt32, start, split]
        rwa [UInt16.toNat_toUInt32, start, ← split]
      have twice : (!lowFirst host ^^ !odd) = (lowFirst host ^^ odd) := by
        cases lowFirst host <;> cases odd <;> rfl
      rw [sum1c_zero_unaligned, toNat_turn sum, twice]

private theorem toNat_sum1c (accum : UInt16) (short : data.length ≤ 65535)
    (aligned odd : Bool) : (sum1c host accum data aligned odd).toNat =
      reduce (accum.toNat + weigh (lowFirst host ^^ odd) data) := by
  have alone := toNat_sum1c_zero host short aligned odd
  by_cases none : accum = 0
  · subst none
    rw [alone, UInt16.toNat_zero, Nat.zero_add]
  · have word := accum.toNat_lt
    have part := reduce_le (weigh (lowFirst host ^^ odd) data)
    have sum : (accum.toUInt32 + (sum1c host 0 data aligned odd).toUInt32).toNat =
        reduce (weigh (lowFirst host ^^ odd) data) + accum.toNat := by
      rw [UInt32.toNat_add, UInt16.toNat_toUInt32, UInt16.toNat_toUInt32, alone]
      omega
    rw [sum1c_eq host none, toNat_fold, sum, reduce_add_left, Nat.add_comm]

end

section

variable (host : Host)

/-- One part of `pkt::Checksum`, with the sum and the size of those before it. -/
def addPart (before : UInt16 × Nat) (part : Part) : UInt16 × Nat :=
  (sum1c host before.1 part.data part.aligned (before.2 % 2 ≠ 0), before.2 + part.data.length)

variable {parts : List Part}

private theorem toNat_addParts (short : ∀ part ∈ parts, part.data.length ≤ 65535)
    (before : UInt16 × Nat) : (parts.foldl (addPart host) before).1.toNat =
      reduce (before.1.toNat +
        weigh (lowFirst host ^^ decide (before.2 % 2 = 1)) (parts.flatMap Part.data)) := by
  induction parts generalizing before with
  | nil =>
    have word := before.1.toNat_lt
    rw [List.foldl_nil, List.flatMap_nil, weigh, Nat.add_zero, reduce_of_le (by omega)]
  | cons part parts ih =>
    obtain ⟨here, later⟩ := List.forall_mem_cons.mp short
    have odd : decide (before.2 % 2 ≠ 0) = decide (before.2 % 2 = 1) := by
      rw [decide_eq_decide]
      omega
    have turned : (lowFirst host ^^ decide ((before.2 + part.data.length) % 2 = 1)) =
        (lowFirst host ^^ decide (before.2 % 2 = 1) ^^ decide (part.data.length % 2 = 1)) := by
      rw [Bool.xor_assoc]
      congr 1
      rcases Nat.mod_two_eq_zero_or_one before.2 with first | first <;>
        rcases Nat.mod_two_eq_zero_or_one part.data.length with second | second <;>
        simp [Nat.add_mod, first, second]
    rw [List.foldl_cons, ih later, List.flatMap_cons, weigh_append, addPart,
      toNat_sum1c host before.1 here, odd, turned, reduce_add_left, Nat.add_assoc]

private theorem reduce_complement {word : Nat} (small : word ≤ 65535) :
    reduce (256 * (65535 - word)) = 65535 - reduce (256 * word) := by
  simp only [reduce]
  split <;> split <;> omega

private theorem bytes_checksum (parts : List Part) : (checksum host parts).bytes =
    bigBytes 2 (if lowFirst host then
      65535 - reduce (256 * (parts.foldl (addPart host) (0, 0)).1.toNat)
      else 65535 - (parts.foldl (addPart host) (0, 0)).1.toNat) := by
  have stored (sum : UInt16) : (~~~ sum).toNat = 65535 - sum.toNat := by
    simp
  have halves (sum : UInt16) : bigBytes 2 sum.toNat =
      [(sum >>> (8 : UInt16)).toUInt8, sum.toUInt8] := by
    have high : UInt8.ofNat (sum.toNat / 256) = (sum >>> (8 : UInt16)).toUInt8 := by
      apply UInt8.toNat_inj.mp
      simp [Nat.shiftRight_eq_div_pow]
    have low : UInt8.ofNat sum.toNat = sum.toUInt8 := by
      apply UInt8.toNat_inj.mp
      simp
    simp [bigBytes, high, low]
  have turned (sum : UInt16) : bigBytes 2 (reduce (256 * sum.toNat)) =
      [sum.toUInt8, (sum >>> (8 : UInt16)).toUInt8] := by
    have word := sum.toNat_lt
    have swap := swapByteOrder_halves sum
    have none : sum.toNat / 256 / 256 = 0 := by
      omega
    have high : (swapByteOrder sum >>> (8 : UInt16)).toUInt8 = sum.toUInt8 := by
      apply UInt8.toNat_inj.mp
      simp [Nat.shiftRight_eq_div_pow, swap, Nat.mul_add_div, none]
    have low : (swapByteOrder sum).toUInt8 = (sum >>> (8 : UInt16)).toUInt8 := by
      apply UInt8.toNat_inj.mp
      simp [Nat.shiftRight_eq_div_pow, swap]
    rw [← toNat_swapByteOrder, halves, high, low]
  cases host with
  | little =>
    have word := ((parts.foldl (addPart .little) (0, 0)).1).toNat_lt
    rw [lowFirst, if_pos rfl, ← reduce_complement (by omega), ← stored, turned]
    rfl
  | big =>
    rw [lowFirst, if_neg (by decide), ← stored, halves]
    rfl

theorem checksum_eq (short : ∀ part ∈ parts, part.data.length ≤ 65535) :
    (checksum host parts).bytes = bigBytes 2 (internetChecksum (parts.flatMap Part.data)) := by
  have sum := toNat_addParts host short (0, 0)
  rw [bytes_checksum, internetChecksum, wordSum_eq, sum]
  cases host with
  | little =>
    simp [lowFirst, reduce_mul_right, reduce_weigh_not]
  | big => simp [lowFirst]

theorem wordSum_stored (short : ∀ part ∈ parts, part.data.length ≤ 65535)
    {x y : Bytes} (whole : parts.flatMap Part.data = x ++ 0 :: 0 :: y) (even : x.length % 2 = 0) :
    wordSum (x ++ ((checksum host parts).bytes ++ y)) = 65535 := by
  have small : internetChecksum (x ++ 0 :: 0 :: y) < 65536 := by
    rw [internetChecksum]
    omega
  have pair (sum : Nat) (small : sum < 65536) :
      256 * (UInt8.ofNat (sum / 256 ^ 1)).toNat + (UInt8.ofNat (sum / 256 ^ 0)).toNat = sum := by
    simp
    omega
  rw [checksum_eq host short, whole]
  exact wordSum_with_checksum even y (pair _ small)

end

section

variable (host : Host)

/-- The values of the 32-bit sum in the loop, one for each addition and without a bound. -/
def runningSums (sum : Nat) : Bytes → List Nat
  | first :: second :: rest =>
    (sum + (native16 host first second).toNat) ::
      runningSums (sum + (native16 host first second).toNat) rest
  | [last] => [sum + (to16 host last 0).toNat]
  | [] => []

/-- The values of the two additions of `fold`. -/
def foldSums (n : Nat) : List Nat :=
  let once := n % 65536 + n / 65536
  [once, once + once / 65536]

/-- The values of all additions of `sum1c`, without a bound. -/
def additions (accum : UInt16) (part : Part) (odd : Bool) : List Nat :=
  let (sum, rest) : UInt16 × Bytes :=
    match part.data, part.aligned with
    | first :: rest, false => (to16 host first 1, rest)
    | data, _ => (0, data)
  let result := sum1c host 0 part.data part.aligned odd
  runningSums host sum.toNat rest ++ (foldSums (sumWords host sum.toUInt32 rest).toNat ++
    (accum.toNat + result.toNat) :: foldSums (accum.toNat + result.toNat))

private theorem runningSums_le (sum : Nat) (data : Bytes) :
    ∀ n ∈ runningSums host sum data, n ≤ sum + weigh (lowFirst host) data := by
  fun_induction runningSums host sum data with
  | case1 sum first second rest ih =>
    have split : weigh (lowFirst host) (first :: second :: rest) =
        (native16 host first second).toNat + weigh (lowFirst host) rest := by
      simp [toNat_native16, weigh, Nat.add_assoc]
    intro n listed
    rcases List.mem_cons.mp listed with rfl | later
    · omega
    · have bound := ih n later
      omega
  | case2 sum last =>
    intro n listed
    rw [List.mem_singleton.mp listed, toNat_to16_zero]
  | case3 sum => simp

theorem foldSums_lt {n : Nat} (small : n < 2 ^ 32) : ∀ m ∈ foldSums n, m < 2 ^ 32 := by
  intro m listed
  simp only [foldSums, List.mem_cons, List.not_mem_nil, or_false] at listed
  omega

private theorem additions_lt {part : Part} (short : part.data.length ≤ 65535) (accum : UInt16)
    (odd : Bool) : ∀ n ∈ additions host accum part odd, n < 2 ^ 32 := by
  have word := accum.toNat_lt
  have result := (sum1c host 0 part.data part.aligned odd).toNat_lt
  -- The loop stays below the weight of the bytes by their places in memory.
  have loop (sum : UInt16) (rest : Bytes) (room : sum.toNat + weigh (lowFirst host) rest < 2 ^ 32) :
      ∀ n ∈ runningSums host sum.toNat rest, n < 2 ^ 32 :=
    fun n listed => lt_of_le_of_lt (runningSums_le host _ _ n listed) room
  have all (sum : UInt16) (rest : Bytes) (room : sum.toNat + weigh (lowFirst host) rest < 2 ^ 32) :
      ∀ n ∈ runningSums host sum.toNat rest ++
        (foldSums (sumWords host sum.toUInt32 rest).toNat ++
          (accum.toNat + (sum1c host 0 part.data part.aligned odd).toNat) ::
            foldSums (accum.toNat + (sum1c host 0 part.data part.aligned odd).toNat)),
        n < 2 ^ 32 := by
    simp only [List.forall_mem_append, List.forall_mem_cons]
    refine ⟨loop sum rest room, foldSums_lt (UInt32.toNat_lt _), ?_, foldSums_lt ?_⟩ <;> omega
  obtain ⟨data, aligned⟩ := part
  have here := weigh_lt short (lowFirst host)
  have there := weigh_lt short (!lowFirst host)
  cases data with
  | nil => exact all 0 [] (by simpa using here)
  | cons first rest =>
    cases aligned with
    | true => exact all 0 (first :: rest) (by simpa using here)
    | false =>
      refine all (to16 host first 1) rest ?_
      rw [toNat_to16_one]
      simpa [weigh] using there

end

/-- For data in parts of at most 65535 bytes, at any addresses, the stored checksum is the
Internet checksum of the whole, and no addition leaves the 32 bits of its sum. -/
theorem checksum_of_parts (host : Host) (parts : List Part)
    (short : ∀ part ∈ parts, part.data.length ≤ 65535) :
    (checksum host parts).bytes = bigBytes 2 (internetChecksum (parts.flatMap Part.data)) ∧
      ∀ part ∈ parts, ∀ accum odd, ∀ n ∈ additions host accum part odd, n < 2 ^ 32 := by
  refine ⟨checksum_eq host short, ?_⟩
  intro part listed accum odd
  exact additions_lt host (short part listed) accum odd

/-- Three parts, two of them of odd length and at odd addresses. -/
theorem checksum_of_three_parts :
    let parts : List Part := [⟨[1, 2, 3], true⟩, ⟨[4], false⟩, ⟨[5, 6], false⟩]
    (∀ part ∈ parts, part.data.length ≤ 65535) ∧
      (checksum .little parts).bytes = bigBytes 2 (internetChecksum [1, 2, 3, 4, 5, 6]) ∧
      ∀ part ∈ parts, ∀ accum odd, ∀ n ∈ additions .little accum part odd, n < 2 ^ 32 :=
  ⟨by decide, checksum_of_parts .little [⟨[1, 2, 3], true⟩, ⟨[4], false⟩, ⟨[5, 6], false⟩]
    (by decide)⟩

end Libofp.Packet.InternetChecksum
