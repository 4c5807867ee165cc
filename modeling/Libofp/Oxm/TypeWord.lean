/- GID: Libofp/Oxm/TypeWord
   digest: The 32-bit word of an OXM type: the parts of it, and the types with and without a
     mask. -/

import Libofp.Oxm.Field

set_option autoImplicit false

namespace Libofp.Oxm.TypeWord

open Oxm.Field (Host)

def swapFourBytes (n : BitVec 32) : BitVec 32 :=
  n.extractLsb' 0 8 ++ n.extractLsb' 8 8 ++ n.extractLsb' 16 8 ++ n.extractLsb' 24 8

/-- `BigEndianFromNative` and `BigEndianToNative` of a `UInt32`. -/
def bigEndian (host : Host) (n : BitVec 32) : BitVec 32 :=
  match host with
  | .little => swapFourBytes n
  | .big => n

/-- `OXMType`: the word in the byte order of the network. -/
structure OXMType where
  value32 : BitVec 32
  deriving DecidableEq

namespace OXMType

variable (host : Host)

def oxmNative (t : OXMType) : BitVec 32 := bigEndian host t.value32

def oxmClass (t : OXMType) : BitVec 16 := (t.oxmNative host >>> 16).setWidth 16

def oxmField (t : OXMType) : BitVec 8 := (t.oxmNative host >>> 9 &&& 0x7F#32).setWidth 8

def oxmSize (t : OXMType) : BitVec 8 := (t.oxmNative host &&& 0xFF#32).setWidth 8

def maskBits : BitVec 32 := bigEndian host 0x0100#32

def hasMask (t : OXMType) : Bool := t.value32 &&& maskBits host != 0#32

def isExperimenter (t : OXMType) : Bool := t.oxmClass host == 0xffff#16

def expSize (t : OXMType) : BitVec 8 := if t.isExperimenter host then 4 else 0

def make (oxmClass : BitVec 16) (oxmField : BitVec 8) (oxmSize : BitVec 16) (oxmMask : Bool) :
    BitVec 32 :=
  bigEndian host
    (oxmClass.setWidth 32 <<< 16 ||| (oxmField &&& 0x7F#8).setWidth 32 <<< 9 |||
      (if oxmMask then 0x0100#32 else 0x0000#32) ||| oxmSize.setWidth 32)

/-- The length of `withMask`. The sum is an `int`, and `make` takes a `UInt16`. -/
def doubled (t : OXMType) : BitVec 16 :=
  BitVec.ofInt 16 (((t.oxmSize host).toNat - (t.expSize host).toNat : Int) * 2 +
    (t.expSize host).toNat)

/-- The length of `withoutMask`. -/
def halved (t : OXMType) : BitVec 16 :=
  BitVec.ofInt 16 (((t.oxmSize host).toNat - (t.expSize host).toNat : Int).tdiv 2 +
    (t.expSize host).toNat)

def withMask (t : OXMType) : OXMType :=
  if t.hasMask host then t
  else ⟨make host (t.oxmClass host) (t.oxmField host) (t.doubled host) true⟩

def withoutMask (t : OXMType) : OXMType :=
  if ¬t.hasMask host then t
  else ⟨make host (t.oxmClass host) (t.oxmField host) (t.halved host) false⟩

end OXMType

open OXMType

section

variable (host : Host)

theorem getLsbD_swapFourBytes (n : BitVec 32) {i : Nat} (within : i < 32) :
    (swapFourBytes n).getLsbD i = n.getLsbD ((3 - i / 8) * 8 + i % 8) := by
  simp only [swapFourBytes, BitVec.getLsbD_append, BitVec.getLsbD_extractLsb']
  by_cases first : i < 8
  · have place : (3 - i / 8) * 8 + i % 8 = 24 + i := by omega
    simp [first, place]
  · by_cases second : i < 16
    · have place : (3 - i / 8) * 8 + i % 8 = 16 + (i - 8) := by omega
      have inside : i - 8 < 8 := by omega
      simp [first, inside, place]
    · by_cases third : i < 24
      · have place : (3 - i / 8) * 8 + i % 8 = 8 + (i - 8 - 8) := by omega
        have inside : i - 8 - 8 < 8 := by omega
        have outside : ¬i - 8 < 8 := by omega
        simp [first, outside, inside, place]
      · have place : (3 - i / 8) * 8 + i % 8 = i - 8 - 8 - 8 := by omega
        have inside : i - 8 - 8 - 8 < 8 := by omega
        have outside : ¬i - 8 < 8 := by omega
        have further : ¬i - 8 - 8 < 8 := by omega
        simp [first, outside, further, inside, place]

theorem bigEndian_bigEndian (n : BitVec 32) : bigEndian host (bigEndian host n) = n := by
  cases host with
  | big => rfl
  | little =>
    apply BitVec.eq_of_getLsbD_eq
    intro i within
    have inside : (3 - i / 8) * 8 + i % 8 < 32 := by omega
    have back : (3 - ((3 - i / 8) * 8 + i % 8) / 8) * 8 + ((3 - i / 8) * 8 + i % 8) % 8 = i := by
      omega
    rw [bigEndian, bigEndian, getLsbD_swapFourBytes _ within, getLsbD_swapFourBytes _ inside, back]

theorem hasMask_eq (t : OXMType) : t.hasMask host = (t.oxmNative host).getLsbD 8 := by
  have bit (n : BitVec 32) {i : Nat} (within : i < 32) :
      (n &&& BitVec.twoPow 32 i != 0#32) = n.getLsbD i := by
    rw [BitVec.and_twoPow]
    by_cases set : n.getLsbD i
    · have nonzero : BitVec.twoPow 32 i ≠ 0#32 := by
        intro zero
        have one := congrArg (BitVec.getLsbD · i) zero
        simp [within] at one
      simp [set, nonzero]
    · simp [set]
  cases host with
  | big =>
    have eighth : 8 < 32 := by decide
    exact bit t.value32 eighth
  | little =>
    have sixteenth : 16 < 32 := by decide
    rw [oxmNative, bigEndian, getLsbD_swapFourBytes _ (by decide)]
    exact bit t.value32 sixteenth

theorem getLsbD_low (w k : Nat) (fits : k ≤ w) (i : Nat) :
    (BitVec.ofNat w (2 ^ k - 1)).getLsbD i = decide (i < k) := by
  rw [BitVec.getLsbD_ofNat, Nat.testBit_two_pow_sub_one]
  by_cases low : i < k
  · simp [low, Nat.lt_of_lt_of_le low fits]
  · simp [low]

section

variable (t : OXMType) {i : Nat}

private theorem getLsbD_oxmClass (within : i < 16) :
    (t.oxmClass host).getLsbD i = (t.oxmNative host).getLsbD (16 + i) := by
  simp [oxmClass, within]

theorem getLsbD_oxmField (within : i < 8) :
    (t.oxmField host).getLsbD i = ((t.oxmNative host).getLsbD (9 + i) && decide (i < 7)) := by
  have low : (0x7F#32).getLsbD i = decide (i < 7) := getLsbD_low 32 7 (by decide) i
  rw [oxmField, BitVec.getLsbD_setWidth, BitVec.getLsbD_and, BitVec.getLsbD_ushiftRight, low,
    decide_eq_true within, Bool.true_and]

private theorem getLsbD_oxmSize (within : i < 8) :
    (t.oxmSize host).getLsbD i = (t.oxmNative host).getLsbD i := by
  have low : (0xFF#32).getLsbD i = decide (i < 8) := getLsbD_low 32 8 (by decide) i
  rw [oxmSize, BitVec.getLsbD_setWidth, BitVec.getLsbD_and, low, decide_eq_true within,
    Bool.and_true, Bool.true_and]

end

theorem toNat_oxmNative (t : OXMType) :
    (t.oxmNative host).toNat = (t.oxmClass host).toNat * 65536 + (t.oxmField host).toNat * 512 +
      (t.hasMask host).toNat * 256 + (t.oxmSize host).toNat := by
  have low (n k : Nat) : n &&& (2 ^ k - 1) = n % 2 ^ k := Nat.and_two_pow_sub_one_eq_mod n k
  have field := low ((t.oxmNative host).toNat / 512) 7
  have size := low (t.oxmNative host).toNat 8
  rw [hasMask_eq, BitVec.getLsbD, Nat.toNat_testBit]
  simp only [oxmClass, oxmField, oxmSize, BitVec.toNat_setWidth, BitVec.toNat_ushiftRight,
    BitVec.toNat_and, BitVec.toNat_ofNat, Nat.shiftRight_eq_div_pow]
  norm_num at field size ⊢
  omega

private theorem eq_of_parts {t u : OXMType} (oxmClass : t.oxmClass host = u.oxmClass host)
    (oxmField : t.oxmField host = u.oxmField host) (hasMask : t.hasMask host = u.hasMask host)
    (oxmSize : t.oxmSize host = u.oxmSize host) : t = u := by
  have native : t.oxmNative host = u.oxmNative host := by
    apply BitVec.eq_of_toNat_eq
    rw [toNat_oxmNative, toNat_oxmNative, oxmClass, oxmField, hasMask, oxmSize]
  have word := congrArg (bigEndian host) native
  rw [oxmNative, oxmNative, bigEndian_bigEndian, bigEndian_bigEndian] at word
  exact congrArg OXMType.mk word

section

variable (c : BitVec 16) (f : BitVec 8) (s : BitVec 16) (m : Bool)

theorem getLsbD_make {i : Nat} (within : i < 32) :
    (oxmNative host ⟨make host c f s m⟩).getLsbD i =
      if i < 16 then decide (9 ≤ i) && f.getLsbD (i - 9) || decide (i = 8) && m || s.getLsbD i
      else c.getLsbD (i - 16) := by
  have low : (0x7F#8).getLsbD (i - 9) = decide (i - 9 < 7) := getLsbD_low 8 7 (by decide) _
  have flag : (if m then 0x0100#32 else 0x0000#32).getLsbD i = (decide (i = 8) && m) := by
    cases m with
    | false => simp
    | true =>
      have power : 0x0100#32 = BitVec.twoPow 32 8 := by decide
      rw [if_pos rfl, Bool.and_true, power, BitVec.getLsbD_twoPow]
      simp [eq_comm]
  rw [oxmNative, make, bigEndian_bigEndian]
  simp only [BitVec.getLsbD_or, flag, BitVec.getLsbD_shiftLeft, BitVec.getLsbD_setWidth,
    BitVec.getLsbD_and, low]
  split
  · rename_i below
    have field : i - 9 < 7 := by omega
    have wide : i - 9 < 32 := by omega
    have border : (!decide (i < 9)) = decide (9 ≤ i) := by
      simp only [← decide_not, Nat.not_lt]
    simp [within, below, field, wide, border]
  · rename_i above
    have field : ¬i - 9 < 7 := by omega
    have other : i ≠ 8 := by omega
    have wide : i - 16 < 32 := by omega
    have size : s.getLsbD i = false := BitVec.getLsbD_of_ge s i (by omega)
    simp [within, above, field, other, wide, size]

theorem oxmClass_make : oxmClass host ⟨make host c f s m⟩ = c := by
  apply BitVec.eq_of_getLsbD_eq
  intro i within
  rw [getLsbD_oxmClass host _ within, getLsbD_make host c f s m (by omega), if_neg (by omega),
    Nat.add_sub_cancel_left]

theorem oxmField_make :
    oxmField host ⟨make host c f s m⟩ = (f &&& 0x7F#8) ||| (s >>> 9).setWidth 8 := by
  apply BitVec.eq_of_getLsbD_eq
  intro i within
  have low : (0x7F#8).getLsbD i = decide (i < 7) := getLsbD_low 8 7 (by decide) i
  rw [getLsbD_oxmField host _ within, getLsbD_make host c f s m (by omega), BitVec.getLsbD_or,
    BitVec.getLsbD_and, low, BitVec.getLsbD_setWidth, BitVec.getLsbD_ushiftRight]
  by_cases field : i < 7
  · simp [field, within, show 9 + i < 16 by omega, show 9 + i ≠ 8 by omega]
  · have size : s.getLsbD (9 + i) = false := BitVec.getLsbD_of_ge s _ (by omega)
    simp [field, size]

theorem hasMask_make : hasMask host ⟨make host c f s m⟩ = (m || s.getLsbD 8) := by
  rw [hasMask_eq, getLsbD_make host c f s m (by decide), if_pos (by decide)]
  rfl

theorem oxmSize_make : oxmSize host ⟨make host c f s m⟩ = s.setWidth 8 := by
  apply BitVec.eq_of_getLsbD_eq
  intro i within
  rw [getLsbD_oxmSize host _ within, getLsbD_make host c f s m (by omega), if_pos (by omega),
    BitVec.getLsbD_setWidth, decide_eq_true within]
  simp [show ¬9 ≤ i by omega, show i ≠ 8 by omega]

end

end

section

variable (host : Host) (t : OXMType)

theorem expSize_cases : t.isExperimenter host = true ∧ (t.expSize host).toNat = 4 ∨
    t.isExperimenter host = false ∧ (t.expSize host).toNat = 0 := by
  cases kind : t.isExperimenter host with
  | true => exact Or.inl ⟨rfl, by rw [expSize, kind]; rfl⟩
  | false => exact Or.inr ⟨rfl, by rw [expSize, kind]; rfl⟩

/-- The length of `withMask` is negative for an experimenter's type without its whole id, and then
it takes the upper end of the 16 bits. -/
theorem toNat_doubled : (t.doubled host).toNat =
    if t.isExperimenter host = true ∧ (t.oxmSize host).toNat < 2 then
      65532 + 2 * (t.oxmSize host).toNat
    else 2 * (t.oxmSize host).toNat - (t.expSize host).toNat := by
  rw [doubled, BitVec.toNat_ofInt]
  rcases expSize_cases host t with ⟨kind, size⟩ | ⟨kind, size⟩
  · rw [kind, size]
    split
    · obtain none | one : (t.oxmSize host).toNat = 0 ∨ (t.oxmSize host).toNat = 1 := by omega
      · rw [none]
        rfl
      · rw [one]
        rfl
    · rename_i long
      have least : 2 ≤ (t.oxmSize host).toNat := Nat.not_lt.mp fun short => long ⟨rfl, short⟩
      omega
  · rw [kind, size, if_neg (by simp)]
    omega

theorem toNat_halved : (t.halved host).toNat =
    if (t.expSize host).toNat ≤ (t.oxmSize host).toNat then
      ((t.oxmSize host).toNat - (t.expSize host).toNat) / 2 + (t.expSize host).toNat
    else (t.expSize host).toNat - ((t.expSize host).toNat - (t.oxmSize host).toNat) / 2 := by
  rw [halved, BitVec.toNat_ofInt]
  split
  · rw [Int.tdiv_eq_ediv_of_nonneg (by omega)]
    omega
  · rw [← Int.neg_sub, Int.neg_tdiv, Int.tdiv_eq_ediv_of_nonneg (by omega)]
    omega

private theorem oxmField_and : t.oxmField host &&& 0x7F#8 = t.oxmField host := by
  apply BitVec.eq_of_getLsbD_eq
  intro i within
  have low : (0x7F#8).getLsbD i = decide (i < 7) := getLsbD_low 8 7 (by decide) i
  rw [BitVec.getLsbD_and, getLsbD_oxmField host t within, low, Bool.and_assoc, Bool.and_self]

theorem oxmField_make_of_lt {s : BitVec 16} (small : s.toNat < 512) (m : Bool) :
    oxmField host ⟨make host (t.oxmClass host) (t.oxmField host) s m⟩ = t.oxmField host := by
  have none : s >>> 9 = 0#16 := by
    apply BitVec.eq_of_toNat_eq
    rw [BitVec.toNat_ushiftRight, Nat.shiftRight_eq_div_pow, Nat.div_eq_of_lt small]
    rfl
  rw [oxmField_make, none, oxmField_and]
  exact BitVec.or_zero

theorem oxmClass_withMask : (t.withMask host).oxmClass host = t.oxmClass host := by
  rw [withMask]
  split
  · rfl
  · exact oxmClass_make host _ _ _ _

theorem oxmClass_withoutMask : (t.withoutMask host).oxmClass host = t.oxmClass host := by
  rw [withoutMask]
  split
  · rfl
  · exact oxmClass_make host _ _ _ _

theorem oxmField_withoutMask : (t.withoutMask host).oxmField host = t.oxmField host := by
  rw [withoutMask]
  split
  · rfl
  · have small : (t.halved host).toNat < 512 := by
      rw [toNat_halved]
      rcases expSize_cases host t with ⟨_, size⟩ | ⟨_, size⟩ <;> rw [size] <;> split <;> omega
    exact oxmField_make_of_lt host t small false

/-- `withMask` keeps the field, but for an experimenter's type of a length below two: there the
length is negative, and its sign sets all the bits of the field. -/
theorem oxmField_withMask : (t.withMask host).oxmField host =
    if t.hasMask host = false ∧ t.isExperimenter host = true ∧ (t.oxmSize host).toNat < 2 then
      0x7F#8
    else t.oxmField host := by
  rw [withMask]
  cases masked : t.hasMask host with
  | true => rw [if_pos rfl, if_neg (by simp)]
  | false =>
    have length := toNat_doubled host t
    rw [if_neg Bool.false_ne_true]
    by_cases short : t.isExperimenter host = true ∧ (t.oxmSize host).toNat < 2
    · rw [if_pos short] at length
      have sign : t.doubled host >>> 9 = 0x7F#16 := by
        apply BitVec.eq_of_toNat_eq
        rw [BitVec.toNat_ushiftRight, Nat.shiftRight_eq_div_pow, length]
        change _ = 127
        omega
      rw [if_pos ⟨rfl, short⟩, oxmField_make, sign]
      apply BitVec.eq_of_getLsbD_eq
      intro i _
      rw [BitVec.getLsbD_or, BitVec.getLsbD_and]
      exact Bool.or_eq_right_iff_imp.mpr (fun both => (Bool.and_eq_true_iff.mp both).2)
    · rw [if_neg short] at length
      rw [if_neg (fun exception => short exception.2)]
      exact oxmField_make_of_lt host t (by omega) true

private theorem withoutMask_withMask (plain : t.hasMask host = false)
    (least : (t.expSize host).toNat + 1 ≤ (t.oxmSize host).toNat)
    (most : (t.oxmSize host).toNat ≤ (t.expSize host).toNat + 125) :
    (t.withMask host).hasMask host = true ∧ (t.withMask host).withoutMask host = t := by
  have long : ¬(t.isExperimenter host = true ∧ (t.oxmSize host).toNat < 2) := by
    rcases expSize_cases host t with ⟨_, size⟩ | ⟨kind, _⟩
    · omega
    · simp [kind]
  have double := toNat_doubled host t
  rw [if_neg long] at double
  have kept : (t.withMask host).oxmField host = t.oxmField host := by
    rw [oxmField_withMask, if_neg (fun exception => long exception.2)]
  have small : (t.expSize host).toNat ≤ 4 := by
    rcases expSize_cases host t with ⟨_, size⟩ | ⟨_, size⟩ <;> omega
  have word : t.withMask host =
      ⟨make host (t.oxmClass host) (t.oxmField host) (t.doubled host) true⟩ := by
    rw [withMask, plain, if_neg Bool.false_ne_true]
  have masked : (t.withMask host).hasMask host = true := by
    rw [word, hasMask_make, Bool.true_or]
  have size : ((t.withMask host).oxmSize host).toNat = 2 * (t.oxmSize host).toNat -
      (t.expSize host).toNat := by
    rw [word, oxmSize_make, BitVec.toNat_setWidth, double]
    omega
  have exp : (t.withMask host).expSize host = t.expSize host := by
    rw [expSize, isExperimenter, oxmClass_withMask]
    rfl
  have half := toNat_halved host (t.withMask host)
  rw [exp, size, if_pos (by omega)] at half
  have back : (t.withMask host).withoutMask host =
      ⟨make host (t.oxmClass host) (t.oxmField host) ((t.withMask host).halved host) false⟩ := by
    rw [withoutMask, masked, if_neg (by simp), oxmClass_withMask, kept]
  refine ⟨masked, ?_⟩
  apply eq_of_parts host
  · rw [oxmClass_withoutMask, oxmClass_withMask]
  · rw [oxmField_withoutMask, kept]
  · rw [back, hasMask_make, plain, Bool.false_or, BitVec.getLsbD, Nat.testBit_lt_two_pow]
    omega
  · apply BitVec.eq_of_toNat_eq
    rw [back, oxmSize_make, BitVec.toNat_setWidth, half]
    omega

/-- Adding and removing the mask keeps the field that the type denotes, and removing it again gives
the type back. -/
def MaskSafe : Prop :=
  ((t.withMask host).oxmClass host = t.oxmClass host ∧
      (t.withMask host).oxmField host = t.oxmField host) ∧
    ((t.withoutMask host).oxmClass host = t.oxmClass host ∧
      (t.withoutMask host).oxmField host = t.oxmField host) ∧
    (t.hasMask host = false → (t.expSize host).toNat + 1 ≤ (t.oxmSize host).toNat →
      (t.oxmSize host).toNat ≤ (t.expSize host).toNat + 125 →
      (t.withMask host).hasMask host = true ∧ (t.withMask host).withoutMask host = t)

/-- The types that a mask is safe for: all but the unmasked experimenter's types of a length below
two, whose field becomes 0x7F. -/
theorem maskSafe_iff : MaskSafe host t ↔
    ¬(t.hasMask host = false ∧ t.isExperimenter host = true ∧ (t.oxmSize host).toNat < 2 ∧
      t.oxmField host ≠ 0x7F#8) := by
  have field := oxmField_withMask host t
  constructor
  · rintro ⟨⟨_, kept⟩, _⟩ ⟨plain, kind, short, other⟩
    rw [kept, if_pos ⟨plain, kind, short⟩] at field
    exact other field
  · intro proper
    refine ⟨⟨oxmClass_withMask host t, ?_⟩,
      ⟨oxmClass_withoutMask host t, oxmField_withoutMask host t⟩, withoutMask_withMask host t⟩
    rw [field]
    split
    · rename_i exception
      by_contra other
      exact proper ⟨exception.1, exception.2.1, exception.2.2, fun same => other same.symm⟩
    · rfl

/-- The experimenter's type with the field 0 and the length 0. -/
theorem withMask_changes_field :
    oxmNative .little ⟨0x0000FFFF#32⟩ = 0xFFFF0000#32 ∧
      oxmField .little ⟨0x0000FFFF#32⟩ = 0x00#8 ∧
      oxmField .little (withMask .little ⟨0x0000FFFF#32⟩) = 0x7F#8 := by
  decide

end

end Libofp.Oxm.TypeWord
