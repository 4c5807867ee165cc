/- GID: Libofp/Oxm/Register
   digest: Slices of OXM fields in text, and when the slices that are accepted are valid. -/

import Libofp.Oxm.FieldTable
import Libofp.Text.StringRef

set_option autoImplicit false

namespace Libofp.Oxm.Register

open Octets.ByteRange FieldTable Text.StringRef

/-- `OXMRegister`. The type is the word that `oxmNative` returns. -/
structure OXMRegister where
  type : Nat
  offset : UInt16
  nbits : UInt16
  deriving DecidableEq

def OXMRegister.maxBits (reg : OXMRegister) : Nat := reg.type % 256 * 8

def OXMRegister.valid (reg : OXMRegister) : Bool :=
  reg.nbits > 0 && reg.offset.toNat + reg.nbits.toNat ≤ reg.maxBits

/-- `OXMType::parse`. -/
def parseType (s : Bytes) : Option Nat :=
  (InternalId.all.find? fun id => s == literal id.name).map InternalId.type

/-- What a call of `OXMRegister::parse` does: the value returned, the register afterwards, and
whether an addition or a subtraction of two `int` values overflowed. -/
structure Outcome where
  accepted : Bool
  register : OXMRegister
  overflow : Bool
  deriving DecidableEq

/-- The end of `OXMRegister::parse`, with both offsets. The sum is computed when the tests before
it pass. -/
def setBits (reg : OXMRegister) (offset offsetEnd : Int) : Outcome :=
  let nbits := Int.bmod (offsetEnd - offset) (2 ^ 32)
  let overflow := decide (nbits ≠ offsetEnd - offset)
  if offset < 0 ∨ nbits ≤ 0 then ⟨false, reg, overflow⟩
  else
    let sum := Int.bmod (offset + nbits) (2 ^ 32)
    let overflow := overflow || decide (sum ≠ offset + nbits)
    if sum > reg.maxBits then ⟨false, reg, overflow⟩
    else ⟨true, ⟨reg.type, UInt16.ofInt offset, UInt16.ofInt nbits⟩, overflow⟩

/-- `OXMRegister::parse` from the text between the brackets on. -/
def parseBits (reg : OXMRegister) (bits : Bytes) : Outcome :=
  let offsets := split bits ':'.toUInt8
  let first := trim offsets.1
  let second := trim offsets.2
  match if first.isEmpty then some 0 else getAsSigned 32 first 10 with
  | none => ⟨false, reg, false⟩
  | some offset =>
    match
      if second.isEmpty then
        if find bits ':'.toUInt8 = none then none else some (reg.maxBits : Int)
      else getAsSigned 32 second 10 with
    | none => ⟨false, reg, false⟩
    | some offsetEnd => setBits reg offset offsetEnd

def parse (reg : OXMRegister) (s : Bytes) : Outcome :=
  let text := trim s
  match find text '['.toUInt8 with
  | none =>
    match parseType text with
    | none => ⟨false, reg, false⟩
    | some type =>
      let reg : OXMRegister := ⟨type, 0, reg.nbits⟩
      ⟨true, ⟨type, 0, UInt16.ofNat reg.maxBits⟩, false⟩
  | some pos =>
    let field := text.take pos
    let bits := text.drop (pos + 1)
    match parseType field with
    | none => ⟨false, reg, false⟩
    | some type =>
      let reg : OXMRegister := ⟨type, reg.offset, reg.nbits⟩
      if bits.getLast? ≠ some ']'.toUInt8 then ⟨false, reg, false⟩
      else parseBits reg bits.dropLast

inductive OffsetText (default : Int) : Bytes → Int → Prop where
  | absent {x : Bytes} (blank : trim x = []) : OffsetText default x default
  | given {x : Bytes} {v : Int} (text : IntText (trim x) v) : OffsetText default x v

def InternalId.width (id : InternalId) : Nat := 8 * id.size

/-- The text of a slice: a whole field, or a field with the offsets of the first bit and of the
bit behind the last one. -/
inductive SliceText (s : Bytes) (id : InternalId) : Int → Int → Prop where
  | whole (text : trim s = literal id.name) : SliceText s id 0 (InternalId.width id)
  | bits {x y : Bytes} {a b : Int}
    (text : trim s = literal id.name ++ '['.toUInt8 :: (x ++ ':'.toUInt8 :: y ++ [']'.toUInt8]))
    (colon : ':'.toUInt8 ∉ x) (first : OffsetText 0 x a)
    (second : OffsetText (InternalId.width id) y b) : SliceText s id a b

theorem mem_all (id : InternalId) : id ∈ InternalId.all := by
  cases id <;> decide

theorem names_distinct : ∀ id ∈ InternalId.all,
    parseType (literal id.name) = some id.type ∧ '['.toUInt8 ∉ literal id.name := by
  decide +kernel

theorem parseType_name (id : InternalId) : parseType (literal id.name) = some id.type :=
  (names_distinct id (mem_all id)).1

theorem bracket_not_mem_name (id : InternalId) : '['.toUInt8 ∉ literal id.name :=
  (names_distinct id (mem_all id)).2

private theorem type_mod (id : InternalId) : id.type % 256 = id.size := by
  cases id <;> rfl

theorem size_pos (id : InternalId) : 0 < id.size ∧ id.size ≤ 68 := by
  cases id <;> decide

theorem parseType_eq_some {s : Bytes} {type : Nat} (parsed : parseType s = some type) :
    ∃ id : InternalId, s = literal id.name ∧ type = id.type := by
  obtain ⟨id, found, rfl⟩ := Option.map_eq_some_iff.mp parsed
  have same := List.find?_some found
  rw [beq_iff_eq] at same
  exact ⟨id, same, rfl⟩

section

variable {reg : OXMRegister} {a b : Int}

theorem toNat_ofInt {v : Int} (natural : 0 ≤ v) (small : v < 2 ^ 16) :
    ((UInt16.ofInt v).toNat : Int) = v := by
  have below : v.toNat < 2 ^ 16 := by omega
  rw [UInt16.ofInt, Int.emod_eq_of_lt natural small, UInt16.toNat_ofNat_of_lt' below,
    Int.toNat_of_nonneg natural]

private theorem ofInt_natCast {n : Nat} (small : n < 2 ^ 16) : UInt16.ofInt n = UInt16.ofNat n := by
  rw [UInt16.ofInt, Int.emod_eq_of_lt (by omega) (by omega), Int.toNat_natCast]

theorem bmod_fits {v : Int} (lower : -2 ^ 31 ≤ v) (upper : v < 2 ^ 31) :
    Int.bmod v (2 ^ 32) = v :=
  bmod_int.mpr ⟨lower, upper⟩

theorem setBits_slice (natural : 0 ≤ a) (order : a < b) (most : b ≤ reg.maxBits)
    (width : reg.maxBits < 2 ^ 16) :
    setBits reg a b = ⟨true, ⟨reg.type, UInt16.ofInt a, UInt16.ofInt (b - a)⟩, false⟩ := by
  have difference := bmod_fits (v := b - a) (by omega) (by omega)
  have sum := bmod_fits (v := a + (b - a)) (by omega) (by omega)
  simp only [setBits, difference, sum]
  rw [if_neg (by omega), if_neg (by omega)]
  simp

/-- Where the difference does not fit in an `int`, it comes out positive and the sum negative, so
that the slice is accepted. -/
private theorem setBits_wrapped (reg : OXMRegister) (natural : 0 ≤ a) (below : a < 2 ^ 31)
    (above : -2 ^ 31 ≤ b) (under : b - a < -2 ^ 31) :
    (setBits reg a b).accepted = true ∧ (setBits reg a b).overflow = true := by
  have difference : Int.bmod (b - a) (2 ^ 32) = b - a + 2 ^ 32 := by
    rw [Int.bmod_def]
    split <;> omega
  have sum : Int.bmod (a + (b - a + 2 ^ 32)) (2 ^ 32) = b := by
    rw [Int.bmod_def]
    split <;> omega
  simp only [setBits, difference, sum]
  rw [if_neg (by omega), if_neg (by omega)]
  simp

private theorem setBits_natural (accepted : (setBits reg a b).accepted = true) : 0 ≤ a := by
  rw [setBits] at accepted
  split at accepted
  · contradiction
  · omega

private theorem setBits_accepted (upper : b < 2 ^ 31) (below : a < 2 ^ 31) (fits : -2 ^ 31 ≤ b - a)
    (accepted : (setBits reg a b).accepted = true) : 0 ≤ a ∧ a < b ∧ b ≤ reg.maxBits := by
  rw [setBits] at accepted
  dsimp only at accepted
  split at accepted
  · contradiction
  · next tests =>
    have difference := bmod_fits (v := b - a) fits (by omega)
    have sum := bmod_fits (v := a + (b - a)) (by omega) (by omega)
    rw [difference, sum] at accepted
    split at accepted
    · contradiction
    · omega

end

section

variable {reg : OXMRegister} {s x y : Bytes} {id : InternalId} {a b : Int}

private theorem not_intText_nil : ¬ IntText [] a := by
  intro text
  cases text with
  | natural digits => exact digits.1 rfl

theorem offsetText_iff {default : Int} (inside : -2 ^ 31 ≤ default ∧ default < 2 ^ 31) :
    (if (trim x).isEmpty then some default else getAsSigned 32 (trim x) 10) = some a ↔
      OffsetText default x a ∧ -2 ^ 31 ≤ a ∧ a < 2 ^ 31 := by
  by_cases blank : trim x = []
  · rw [if_pos (by rw [blank]; rfl), Option.some.injEq]
    constructor
    · rintro rfl
      exact ⟨.absent blank, inside⟩
    · rintro ⟨text, -⟩
      cases text with
      | absent => rfl
      | given text => exact absurd (blank ▸ text) not_intText_nil
  · rw [if_neg (by simpa using blank), getAsSigned_iff]
    refine and_congr_left fun _ => ⟨.given, fun text => ?_⟩
    cases text with
    | absent empty => exact absurd empty blank
    | given text => exact text

theorem maxBits_type (id : InternalId) (offset nbits : UInt16) :
    OXMRegister.maxBits ⟨id.type, offset, nbits⟩ = InternalId.width id := by
  rw [OXMRegister.maxBits, type_mod, InternalId.width, Nat.mul_comm]

theorem width_bounds (id : InternalId) :
    0 < InternalId.width id ∧ InternalId.width id < 2 ^ 15 := by
  have size := size_pos id
  rw [InternalId.width]
  omega

theorem parseBits_colon (colon : ':'.toUInt8 ∉ x) :
    parseBits reg (x ++ ':'.toUInt8 :: y) =
      match if (trim x).isEmpty then some 0 else getAsSigned 32 (trim x) 10 with
      | none => ⟨false, reg, false⟩
      | some offset =>
        match if (trim y).isEmpty then some (reg.maxBits : Int) else getAsSigned 32 (trim y) 10 with
        | none => ⟨false, reg, false⟩
        | some offsetEnd => setBits reg offset offsetEnd := by
  simp only [parseBits, split_append colon, find_append colon, reduceCtorEq, if_false]

theorem parse_slice (reg : OXMRegister) (text : SliceText s id a b)
    (first : -2 ^ 31 ≤ a ∧ a < 2 ^ 31) (second : -2 ^ 31 ≤ b ∧ b < 2 ^ 31) :
    parse reg s = setBits ⟨id.type, reg.offset, reg.nbits⟩ a b := by
  have width := width_bounds id
  cases text with
  | whole text =>
    have bits := maxBits_type id reg.offset reg.nbits
    rw [setBits_slice (Int.le_refl 0) (by omega) (by omega) (by omega)]
    simp only [parse, text, find_eq_none_iff.mpr (bracket_not_mem_name id), parseType_name,
      maxBits_type]
    rw [Int.sub_zero, ofInt_natCast (by omega), show UInt16.ofInt 0 = 0 from rfl]
  | @bits x y a b text colon left right =>
    have read := (offsetText_iff (by decide)).mpr ⟨left, first⟩
    have readEnd := (offsetText_iff (by omega)).mpr ⟨right, second⟩
    rw [parse, text, find_append (bracket_not_mem_name id)]
    dsimp only
    rw [List.take_left, parseType_name, ← List.drop_drop, List.drop_left, List.drop_succ_cons,
      List.drop_zero]
    dsimp only
    rw [List.getLast?_concat, List.dropLast_concat, if_neg (not_not.mpr rfl),
      parseBits_colon colon, read]
    dsimp only
    rw [maxBits_type, readEnd]

private theorem colon_mem {bits : Bytes} (accepted : (parseBits reg bits).accepted = true) :
    ':'.toUInt8 ∈ bits := by
  by_contra absent
  rw [parseBits] at accepted
  simp only [split_absent absent, find_eq_none_iff.mpr absent] at accepted
  split at accepted
  · contradiction
  · simp [show trim [] = [] from rfl] at accepted

private theorem exists_offsets {bits : Bytes} (accepted : (parseBits reg bits).accepted = true)
    (width : reg.maxBits < 2 ^ 31) :
    ∃ x y a b, bits = x ++ ':'.toUInt8 :: y ∧ ':'.toUInt8 ∉ x ∧
      (OffsetText 0 x a ∧ -2 ^ 31 ≤ a ∧ a < 2 ^ 31) ∧
      OffsetText reg.maxBits y b ∧ -2 ^ 31 ≤ b ∧ b < 2 ^ 31 := by
  obtain ⟨x, y, rfl, colon⟩ := exists_cut (colon_mem accepted)
  rw [parseBits_colon colon] at accepted
  split at accepted
  · contradiction
  · next a read =>
    split at accepted
    · contradiction
    · next b readEnd =>
      exact ⟨x, y, a, b, rfl, colon, (offsetText_iff (by decide)).mp read,
        (offsetText_iff (by omega)).mp readEnd⟩

private theorem exists_slice (accepted : (parse reg s).accepted = true) :
    ∃ id a b, SliceText s id a b ∧ (-2 ^ 31 ≤ a ∧ a < 2 ^ 31) ∧ -2 ^ 31 ≤ b ∧ b < 2 ^ 31 := by
  rw [parse] at accepted
  by_cases bracket : '['.toUInt8 ∈ trim s
  · obtain ⟨field, bits, text, absent⟩ := exists_cut bracket
    rw [text, find_append absent] at accepted
    dsimp only at accepted
    rw [List.take_left, ← List.drop_drop, List.drop_left, List.drop_succ_cons,
      List.drop_zero] at accepted
    split at accepted
    · contradiction
    · next type parsed =>
      obtain ⟨id, rfl, rfl⟩ := parseType_eq_some parsed
      split at accepted
      · contradiction
      · next closed =>
        have width := width_bounds id
        obtain ⟨inner, rfl⟩ := List.getLast?_eq_some_iff.mp (not_not.mp closed)
        rw [List.dropLast_concat] at accepted
        obtain ⟨x, y, a, b, rfl, colon, ⟨first, low⟩, second, high⟩ :=
          exists_offsets accepted (by rw [maxBits_type]; omega)
        rw [maxBits_type] at second
        exact ⟨id, a, b, .bits text colon first second, low, high⟩
  · rw [find_eq_none_iff.mpr bracket] at accepted
    dsimp only at accepted
    split at accepted
    · contradiction
    · next type parsed =>
      obtain ⟨id, text, rfl⟩ := parseType_eq_some parsed
      have width := width_bounds id
      exact ⟨id, 0, InternalId.width id, .whole text, by decide, by omega, by omega⟩

end

/-- The string is refused, or it is read without an overflow, the register is valid, and it has the
field and the offsets that are written. -/
def ReadsSlice (reg : OXMRegister) (s : Bytes) : Prop :=
  (parse reg s).accepted = true →
    (parse reg s).overflow = false ∧ (parse reg s).register.valid = true ∧
      ∃ id a b, SliceText s id a b ∧ (parse reg s).register.type = id.type ∧
        ((parse reg s).register.offset.toNat : Int) = a ∧
        ((parse reg s).register.offset.toNat + (parse reg s).register.nbits.toNat : Int) = b

/-- The difference of the offsets that are written is an `int`. -/
def DifferenceFits (s : Bytes) : Prop :=
  ∀ id a b, SliceText s id a b → 0 ≤ a → a < 2 ^ 31 → -2 ^ 31 ≤ b → -2 ^ 31 ≤ b - a

/-- A string is read as it is written exactly when the end minus the beginning does not underflow
the type `int`. -/
theorem readsSlice_iff (reg : OXMRegister) (s : Bytes) : ReadsSlice reg s ↔ DifferenceFits s := by
  constructor
  · intro reads id a b text natural below above
    by_contra under
    have outcome := parse_slice reg text ⟨by omega, below⟩ ⟨above, by omega⟩
    obtain ⟨accepted, overflow⟩ :=
      setBits_wrapped ⟨id.type, reg.offset, reg.nbits⟩ natural below above (by omega)
    rw [← outcome] at accepted overflow
    exact Bool.false_ne_true ((reads accepted).1.symm.trans overflow)
  · intro fits accepted
    obtain ⟨id, a, b, text, first, second⟩ := exists_slice accepted
    have outcome := parse_slice reg text first second
    rw [outcome] at accepted ⊢
    have natural : 0 ≤ a := setBits_natural accepted
    have width := width_bounds id
    obtain ⟨-, order, most⟩ := setBits_accepted second.2 first.2
      (fits id a b text natural first.2 second.1) accepted
    rw [maxBits_type] at most
    rw [setBits_slice natural order (by rw [maxBits_type]; exact most)
      (by rw [maxBits_type]; omega)]
    have offset := toNat_ofInt natural (by omega)
    have nbits := toNat_ofInt (v := b - a) (by omega) (by omega)
    refine ⟨rfl, ?_, id, a, b, text, rfl, offset, ?_⟩
    · rw [OXMRegister.valid, maxBits_type, Bool.and_eq_true, decide_eq_true_eq, decide_eq_true_eq]
      refine ⟨UInt16.lt_iff_toNat_lt.mpr ?_, ?_⟩
      · show 0 < (UInt16.ofInt (b - a)).toNat
        omega
      · show (UInt16.ofInt a).toNat + (UInt16.ofInt (b - a)).toNat ≤ InternalId.width id
        omega
    · show ((UInt16.ofInt a).toNat + (UInt16.ofInt (b - a)).toNat : Int) = b
      omega

/-- An end that is far below the beginning: the difference comes out as 1 and the offset as
65535. -/
theorem parse_underflow :
    parse ⟨0, 0, 0⟩ (literal "ETH_DST[2147483647:-2147483648]") =
        ⟨true, ⟨InternalId.ethDst.type, 65535, 1⟩, true⟩ ∧
      ¬ ReadsSlice ⟨0, 0, 0⟩ (literal "ETH_DST[2147483647:-2147483648]") := by
  have outcome : parse ⟨0, 0, 0⟩ (literal "ETH_DST[2147483647:-2147483648]") =
      ⟨true, ⟨InternalId.ethDst.type, 65535, 1⟩, true⟩ := by
    decide +kernel
  refine ⟨outcome, fun reads => ?_⟩
  exact Bool.false_ne_true (reads rfl).1.symm

end Libofp.Oxm.Register
