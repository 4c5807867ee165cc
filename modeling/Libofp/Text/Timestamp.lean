/- GID: Libofp/Text/Timestamp
   digest: Timestamps in text: the strings that are accepted, the values they stand for, and the
     reading of printed timestamps. -/

import Libofp.Text.StringRef

set_option autoImplicit false

namespace Libofp.Text

open Octets.ByteRange Base.Digits StringRef

/-- `Timestamp`, with the two members of `time_`. -/
structure Timestamp where
  seconds : UInt64
  nanoseconds : UInt32
  deriving DecidableEq

namespace Timestamp

def NANO_UNITS : Nat := 1000000000

def kPower10 : List UInt32 :=
  [1, 10, 100, 1000, 10000, 100000, 1000000, 10000000, 100000000, 1000000000]

/-- The part of `Timestamp::parse` behind the seconds: the rest of the string and `fracPart`, or
`none` where it returns false. -/
def parseFraction (s : Bytes) : Option (Bytes × UInt32) :=
  if (literal ".").isPrefixOf s then
    let s := s.drop 1
    let fracDigits := s.length
    if fracDigits > 9 then none
    else
      match consumeUnsigned 32 s 10 with
      | none => none
      | some (s, fracPart) => some (s, UInt32.ofNat fracPart * kPower10.getD (9 - fracDigits) 0)
  else some (s, 0)

/-- `Timestamp::parse`: the value returned and the timestamp afterwards. -/
def parse (time : Timestamp) (s : Bytes) : Bool × Timestamp :=
  match consumeUnsigned 64 s 10 with
  | none => (false, time)
  | some (s, intPart) =>
    match parseFraction s with
    | none => (false, time)
    | some (s, fracPart) =>
      if ¬ s.isEmpty then (false, time) else (true, ⟨UInt64.ofNat intPart, fracPart⟩)

/-- `Timestamp::toString`: the format is `"%llu.%09u"`. -/
def toString (time : Timestamp) : Bytes :=
  let nanoseconds := printNat 10 time.nanoseconds.toNat
  printNat 10 time.seconds.toNat ++
    '.'.toUInt8 :: (List.replicate (9 - nanoseconds.length) '0'.toUInt8 ++ nanoseconds)

/-- The text of a time: seconds, and perhaps a point with one to nine more digits. -/
inductive TimeText : Bytes → Nat → Nat → Prop where
  | seconds {d : Bytes} (digits : IsNumeral 10 d) (small : numeral 10 d < 2 ^ 64) :
    TimeText d (numeral 10 d) 0
  | fraction {d f : Bytes} (digits : IsNumeral 10 d) (small : numeral 10 d < 2 ^ 64)
    (places : IsNumeral 10 f) (most : f.length ≤ 9) :
    TimeText (d ++ '.'.toUInt8 :: f) (numeral 10 d) (numeral 10 f * 10 ^ (9 - f.length))

section

variable {s f : Bytes} {nanos : UInt32}

private theorem kPower10_eq : ∀ i : Fin 10, (kPower10.getD i 0).toNat = 10 ^ i.val := by
  decide

theorem fraction_lt (places : IsNumeral 10 f) (most : f.length ≤ 9) :
    numeral 10 f * 10 ^ (9 - f.length) < NANO_UNITS := by
  have below := numeral_lt (by decide) places.2
  have power : 10 ^ f.length * 10 ^ (9 - f.length) = NANO_UNITS := by
    rw [← Nat.pow_add, Nat.add_sub_cancel' most]
    rfl
  rw [← power]
  exact Nat.mul_lt_mul_of_pos_right below (Nat.pow_pos (by decide))

theorem toNat_scaled (places : IsNumeral 10 f) (most : f.length ≤ 9) :
    (UInt32.ofNat (numeral 10 f) * kPower10.getD (9 - f.length) 0).toNat =
      numeral 10 f * 10 ^ (9 - f.length) := by
  have power := kPower10_eq ⟨9 - f.length, by omega⟩
  have below : numeral 10 f * 10 ^ (9 - f.length) < 2 ^ 32 :=
    Nat.lt_trans (fraction_lt places most) (by decide)
  have small : numeral 10 f < 2 ^ 32 :=
    Nat.lt_of_le_of_lt (Nat.le_mul_of_pos_right _ (Nat.pow_pos (by decide))) below
  rw [UInt32.toNat_mul, UInt32.toNat_ofNat_of_lt' small, power, Nat.mod_eq_of_lt below]

theorem isPrefixOf_point {c : UInt8} : (literal ".").isPrefixOf (c :: f) = true ↔
    c = '.'.toUInt8 := by
  rw [show literal "." = ['.'.toUInt8] from rfl, List.isPrefixOf_cons_cons,
    List.isPrefixOf_nil_left, Bool.and_true, beq_iff_eq, eq_comm]

theorem consumeUnsigned_all {width value : Nat} (wide : width ≤ 64) :
    consumeUnsigned width s 10 = some ([], value) ↔
      IsNumeral 10 s ∧ value = numeral 10 s ∧ value < 2 ^ width := by
  rw [consumeUnsigned_eq, consumeUnsignedInteger_all (by decide)]
  constructor
  · rintro ⟨⟨places, same, -⟩, small⟩
    exact ⟨places, same, small⟩
  · rintro ⟨places, same, small⟩
    have below := Nat.lt_of_lt_of_le small (Nat.pow_le_pow_right (by decide) wide)
    exact ⟨⟨places, same, below⟩, small⟩

private theorem parseFraction_point :
    parseFraction ('.'.toUInt8 :: f) = some ([], nanos) ↔ IsNumeral 10 f ∧ f.length ≤ 9 ∧
      nanos.toNat = numeral 10 f * 10 ^ (9 - f.length) := by
  simp only [parseFraction, if_pos (isPrefixOf_point.mpr rfl), List.drop_succ_cons,
    List.drop_zero]
  by_cases long : f.length > 9
  · rw [if_pos long]
    exact iff_of_false (by simp) fun accepted => Nat.not_le.mpr long accepted.2.1
  · have most := Nat.le_of_not_lt long
    rw [if_neg long]
    constructor
    · intro read
      split at read
      · contradiction
      · next rest value consumed =>
        obtain ⟨rfl, rfl⟩ := Prod.mk.inj (Option.some.inj read)
        obtain ⟨places, rfl, -⟩ := (consumeUnsigned_all (by decide)).mp consumed
        exact ⟨places, most, toNat_scaled places most⟩
    · rintro ⟨places, -, value⟩
      have below : numeral 10 f < 2 ^ 32 := by
        have bound := numeral_lt (by decide) places.2
        exact Nat.lt_of_lt_of_le bound
          (Nat.le_trans (Nat.pow_le_pow_right (by decide) most) (by decide))
      have consumed : consumeUnsigned 32 f 10 = some ([], numeral 10 f) :=
        (consumeUnsigned_all (by decide)).mpr ⟨places, rfl, below⟩
      have same := UInt32.toNat_inj.mp (value.trans (toNat_scaled places most).symm)
      rw [consumed, same]

theorem parseFraction_iff : parseFraction s = some ([], nanos) ↔
    s = [] ∧ nanos = 0 ∨ ∃ f, s = '.'.toUInt8 :: f ∧ IsNumeral 10 f ∧ f.length ≤ 9 ∧
      nanos.toNat = numeral 10 f * 10 ^ (9 - f.length) := by
  cases s with
  | nil =>
    have nothing : parseFraction [] = some ([], 0) := rfl
    simp [nothing, eq_comm]
  | cons c f =>
    by_cases point : c = '.'.toUInt8
    · subst point
      rw [parseFraction_point]
      simp
    · have read : parseFraction (c :: f) = some (c :: f, 0) := by
        rw [parseFraction, if_neg (mt isPrefixOf_point.mp point)]
      simp [read, point]

end

section

variable {s : Bytes} {time result : Timestamp}

private theorem parse_iff : parse time s = (true, result) ↔
    ∃ rest value fracPart, consumeUnsigned 64 s 10 = some (rest, value) ∧
      parseFraction rest = some ([], fracPart) ∧ result = ⟨UInt64.ofNat value, fracPart⟩ := by
  rw [parse]
  constructor
  · intro parsed
    split at parsed
    · simp at parsed
    · next rest value consumed =>
      split at parsed
      · simp at parsed
      · next left fracPart read =>
        split at parsed
        · simp at parsed
        · next empty =>
          obtain rfl : left = [] := by simpa using empty
          exact ⟨rest, value, fracPart, consumed, read, (Prod.mk.inj parsed).2.symm⟩
  · rintro ⟨rest, value, fracPart, consumed, read, rfl⟩
    simp [consumed, read]

private theorem parse_false (refused : (parse time s).1 = false) : (parse time s).2 = time := by
  rw [parse] at refused ⊢
  split
  · rfl
  · next rest value consumed =>
    split
    · rfl
    · next left fracPart read =>
      split
      · rfl
      · next empty =>
        simp only [consumed, read, if_neg empty] at refused
        contradiction

theorem parse_text : parse time s = (true, result) ↔
    TimeText s result.seconds.toNat result.nanoseconds.toNat := by
  rw [parse_iff]
  constructor
  · rintro ⟨rest, value, fracPart, consumed, read, rfl⟩
    obtain ⟨consumed, small⟩ := consumeUnsigned_eq.mp consumed
    obtain ⟨digits, rfl, run, -, rfl, -⟩ := (consumeUnsignedInteger_iff (by decide)).mp consumed
    have seconds : (UInt64.ofNat (numeral 10 digits)).toNat = numeral 10 digits :=
      UInt64.toNat_ofNat_of_lt' small
    rw [seconds]
    rcases parseFraction_iff.mp read with ⟨rfl, rfl⟩ | ⟨f, rfl, places, most, nanoseconds⟩
    · rw [List.append_nil]
      exact .seconds run small
    · rw [nanoseconds]
      exact .fraction run small places most
  · intro text
    generalize secs : result.seconds.toNat = seconds at text
    generalize nanos : result.nanoseconds.toNat = nanoseconds at text
    cases text with
    | seconds digits small =>
      refine ⟨[], numeral 10 s, 0, ?_, parseFraction_iff.mpr (.inl ⟨rfl, rfl⟩), ?_⟩
      · exact (consumeUnsigned_all (by decide)).mpr ⟨digits, rfl, small⟩
      · have zero : result.nanoseconds = 0 := UInt32.toNat_inj.mp nanos
        rw [← secs, UInt64.ofNat_toNat, ← zero]
    | @fraction d f digits small places most =>
      refine ⟨'.'.toUInt8 :: f, numeral 10 d, result.nanoseconds, ?_, ?_, ?_⟩
      · refine consumeUnsigned_eq.mpr ⟨?_, small⟩
        refine (consumeUnsignedInteger_iff (by decide)).mpr ⟨d, rfl, digits, ?_, rfl, small⟩
        intro c first
        rw [List.head?_cons, Option.mem_some_iff] at first
        subst first
        decide
      · exact parseFraction_iff.mpr (.inr ⟨f, rfl, places, most, nanos⟩)
      · rw [← secs, UInt64.ofNat_toNat]

private theorem toString_text (normal : time.nanoseconds.toNat < NANO_UNITS) :
    TimeText (toString time) time.seconds.toNat time.nanoseconds.toNat := by
  have value : ∀ n, numeral 10 (printNat 10 n) = n := numeral_printNat (by decide) (by decide)
  have decimal : ∀ n, IsNumeral 10 (printNat 10 n) := isNumeral_printNat (by decide) (by decide)
  have most : (printNat 10 time.nanoseconds.toNat).length ≤ 9 :=
    length_printNat (by decide) normal (by decide)
  rw [toString]
  generalize places : List.replicate (9 - (printNat 10 time.nanoseconds.toNat).length)
    '0'.toUInt8 ++ printNat 10 time.nanoseconds.toNat = f
  have size : f.length = 9 := by
    rw [← places, List.length_append, List.length_replicate]
    omega
  have same : numeral 10 f = time.nanoseconds.toNat := by
    rw [← places, numeral_append, numeral_zeros, Nat.zero_mul, Nat.zero_add, value]
  have digits : IsNumeral 10 f := by
    refine ⟨List.length_pos_iff.mp (by omega), fun c inside => ?_⟩
    rw [← places] at inside
    rcases List.mem_append.mp inside with zero | digit
    · rw [List.eq_of_mem_replicate zero]
      decide
    · exact (decimal _).2 c digit
  have text := TimeText.fraction (decimal time.seconds.toNat)
    ((value _).symm ▸ time.seconds.toNat_lt) digits (Nat.le_of_eq size)
  rwa [value, same, size, Nat.sub_self, Nat.pow_zero, Nat.mul_one] at text

end

theorem TimeText.lt {s : Bytes} {seconds nanoseconds : Nat}
    (text : TimeText s seconds nanoseconds) : nanoseconds < NANO_UNITS := by
  cases text with
  | seconds => decide
  | fraction _ _ places most => exact fraction_lt places most

/-- `parse` accepts the texts of times and gives the times that they stand for; it leaves the
timestamp as it was when it refuses a string, and it reads what `toString` prints. -/
theorem parse_spec (time : Timestamp) (s : Bytes) :
    (∀ result, parse time s = (true, result) ↔
      TimeText s result.seconds.toNat result.nanoseconds.toNat) ∧
    ((parse time s).1 = true → (parse time s).2.nanoseconds.toNat < NANO_UNITS) ∧
    ((parse time s).1 = false → (parse time s).2 = time) ∧
    ∀ printed : Timestamp, printed.nanoseconds.toNat < NANO_UNITS →
      parse time (toString printed) = (true, printed) := by
  refine ⟨fun result => parse_text, fun accepted => ?_, parse_false, fun printed normal => ?_⟩
  · have parsed : parse time s = (true, (parse time s).2) := Prod.ext accepted rfl
    exact (parse_text.mp parsed).lt
  · exact parse_text.mpr (toString_text normal)

end Timestamp

end Libofp.Text
