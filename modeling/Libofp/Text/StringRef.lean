/- GID: Libofp/Text/StringRef
   digest: The string functions of the vendored LLVM support library: integers at the beginning
     of a string, splitting and trimming. -/

import Libofp.Base.Digits
import Libofp.Octets.ByteRange
import Mathlib.Data.List.DropRight

set_option autoImplicit false

namespace Libofp.Text.StringRef

open Octets.ByteRange Base.Digits

/-- The loop of `consumeUnsignedInteger`: the characters behind the digits and the value. `none`
means that the value overflows. A character that is no digit has a value that is too large for
any radix. -/
def consumeDigits (radix : Nat) : Bytes → Nat → Option (Bytes × Nat)
  | [], result => some ([], result)
  | c :: str2, prevResult =>
    if digitValue c ≥ radix then some (c :: str2, prevResult)
    else
      let result := (prevResult * radix + digitValue c) % 2 ^ 64
      if result / radix < prevResult then none else consumeDigits radix str2 result

/-- `GetAutoSenseRadix`: the rest of the string and the radix. -/
def getAutoSenseRadix (str : Bytes) : Bytes × Nat :=
  if str.isEmpty then (str, 10)
  else if (literal "0x").isPrefixOf str || (literal "0X").isPrefixOf str then (str.drop 2, 16)
  else if (literal "0b").isPrefixOf str || (literal "0B").isPrefixOf str then (str.drop 2, 2)
  else if (literal "0o").isPrefixOf str then (str.drop 2, 8)
  else if str.getD 0 0 = '0'.toUInt8 ∧ str.length > 1 ∧ IsDigit 10 (str.getD 1 0) then
    (str.drop 1, 8)
  else (str, 10)

/-- `consumeUnsignedInteger`: the rest of the string and the value, or `none` for an error. -/
def consumeUnsignedInteger (str : Bytes) (radix : Nat) : Option (Bytes × Nat) :=
  let (str, radix) := if radix = 0 then getAutoSenseRadix str else (str, radix)
  if str.isEmpty then none
  else
    match consumeDigits radix str 0 with
    | none => none
    | some (str2, result) => if str.length = str2.length then none else some (str2, result)

/-- `consumeInteger` for an unsigned type of `width` bits. -/
def consumeUnsigned (width : Nat) (str : Bytes) (radix : Nat) : Option (Bytes × Nat) :=
  match consumeUnsignedInteger str radix with
  | none => none
  | some (str, value) => if value % 2 ^ width ≠ value then none else some (str, value)

def consumeSignedInteger (str : Bytes) (radix : Nat) : Option (Bytes × Int) :=
  if str.getD 0 0 ≠ '-'.toUInt8 then
    match consumeUnsignedInteger str radix with
    | none => none
    | some (str, value) =>
      if Int.bmod value (2 ^ 64) < 0 then none else some (str, Int.bmod value (2 ^ 64))
  else
    match consumeUnsignedInteger (str.drop 1) radix with
    | none => none
    | some (str, value) =>
      if Int.bmod (-value) (2 ^ 64) > 0 then none else some (str, Int.bmod (-value) (2 ^ 64))

/-- `getAsInteger` for a signed type of `width` bits. -/
def getAsSigned (width : Nat) (str : Bytes) (radix : Nat) : Option Int :=
  match consumeSignedInteger str radix with
  | none => none
  | some (str, value) =>
    if ¬ str.isEmpty then none
    else if Int.bmod value (2 ^ width) ≠ value then none
    else some value

/-- `StringRef::find` of a character. -/
def find (str : Bytes) (c : UInt8) : Option Nat := str.findIdx? (· == c)

/-- `StringRef::split` at a character. -/
def split (str : Bytes) (separator : UInt8) : Bytes × Bytes :=
  match find str separator with
  | none => (str, [])
  | some idx => (str.take idx, str.drop (idx + 1))

/-- `" \t\n\v\f\r"`. -/
def whitespace : Bytes := [0x20, 0x09, 0x0A, 0x0B, 0x0C, 0x0D]

def ltrim (str : Bytes) : Bytes := str.dropWhile fun c => whitespace.contains c

def rtrim (str : Bytes) : Bytes := str.rdropWhile fun c => whitespace.contains c

def trim (str : Bytes) : Bytes := rtrim (ltrim str)

/-- `StringRef::consume_front`: what follows the given characters. -/
def consumeFront (str front : Bytes) : Option Bytes :=
  if front.isPrefixOf str then some (str.drop front.length) else none

def toLower (c : UInt8) : UInt8 :=
  if 'A'.toUInt8 ≤ c ∧ c ≤ 'Z'.toUInt8 then c - 'A'.toUInt8 + 'a'.toUInt8 else c

/-- `StringRef::equals_lower`. -/
def equalsLower (str rhs : Bytes) : Bool :=
  str.length == rhs.length && str.map toLower == rhs.map toLower

section

variable {radix : Nat} {s : Bytes}

def digitRun (radix : Nat) (s : Bytes) : Bytes := s.takeWhile fun c => decide (IsDigit radix c)

def afterRun (radix : Nat) (s : Bytes) : Bytes := s.dropWhile fun c => decide (IsDigit radix c)

theorem digitRun_append_afterRun : digitRun radix s ++ afterRun radix s = s :=
  List.takeWhile_append_dropWhile

private theorem digitRun_digits {c : UInt8} (inside : c ∈ digitRun radix s) : IsDigit radix c := by
  have digit := List.mem_takeWhile_imp (p := fun c => decide (IsDigit radix c)) inside
  exact of_decide_eq_true digit

private theorem overflow_iff (prev : Nat) {d : Nat} (below : d < radix) (digit : d ≤ 36) :
    (prev * radix + d) % 2 ^ 64 / radix < prev ↔ 2 ^ 64 ≤ prev * radix + d := by
  have positive : 0 < radix := Nat.zero_lt_of_lt below
  constructor
  · intro less
    by_contra fits
    rw [Nat.mod_eq_of_lt (Nat.lt_of_not_le fits), Nat.mul_comm, Nat.mul_add_div positive,
      Nat.div_eq_of_lt below, Nat.add_zero] at less
    exact Nat.lt_irrefl _ less
  · intro exceeds
    rw [Nat.div_lt_iff_lt_mul positive]
    generalize prev * radix = product at exceeds ⊢
    omega

private theorem consumeDigits_eq (s : Bytes) (prev : Nat) (small : prev < 2 ^ 64) :
    consumeDigits radix s prev =
      if prev * radix ^ (digitRun radix s).length + numeral radix (digitRun radix s) < 2 ^ 64 then
        some (afterRun radix s,
          prev * radix ^ (digitRun radix s).length + numeral radix (digitRun radix s))
      else none := by
  induction s generalizing prev with
  | nil =>
    have value : prev * radix ^ (digitRun radix []).length + numeral radix (digitRun radix []) =
      prev := by simp [digitRun]
    rw [value, if_pos small]
    rfl
  | cons c s ih =>
    rw [consumeDigits]
    by_cases digit : IsDigit radix c
    · have run : digitRun radix (c :: s) = c :: digitRun radix s :=
        List.takeWhile_cons_of_pos (decide_eq_true digit)
      have after : afterRun radix (c :: s) = afterRun radix s :=
        List.dropWhile_cons_of_pos (decide_eq_true digit)
      -- The digit is the lowest one of the value before the rest of the run.
      have value : prev * radix ^ (digitRun radix (c :: s)).length +
          numeral radix (digitRun radix (c :: s)) =
          (prev * radix + digitValue c) * radix ^ (digitRun radix s).length +
            numeral radix (digitRun radix s) := by
        rw [run, numeral_cons, List.length_cons, Nat.pow_succ', Nat.add_mul, Nat.mul_assoc,
          Nat.add_assoc]
      rw [value, after, if_neg (Nat.not_le.mpr digit)]
      have test := overflow_iff prev digit (digitValue_le c)
      by_cases exceeds : 2 ^ 64 ≤ prev * radix + digitValue c
      · have positive : 0 < radix ^ (digitRun radix s).length :=
          Nat.pow_pos (Nat.zero_lt_of_lt digit)
        have large := Nat.le_mul_of_pos_right (prev * radix + digitValue c) positive
        rw [if_pos (test.mpr exceeds), if_neg (by omega)]
      · have fits := Nat.lt_of_not_le exceeds
        rw [if_neg (mt test.mp exceeds), Nat.mod_eq_of_lt fits]
        exact ih _ fits
    · have run : digitRun radix (c :: s) = [] :=
        List.takeWhile_cons_of_neg (by simpa using digit)
      have after : afterRun radix (c :: s) = c :: s :=
        List.dropWhile_cons_of_neg (by simpa using digit)
      rw [if_pos (Nat.le_of_not_lt digit), run, after, List.length_nil, Nat.pow_zero, Nat.mul_one,
        numeral_nil, Nat.add_zero, if_pos small]

private theorem consumeUnsignedInteger_eq (positive : 0 < radix) (s : Bytes) :
    consumeUnsignedInteger s radix =
      if digitRun radix s ≠ [] ∧ numeral radix (digitRun radix s) < 2 ^ 64 then
        some (afterRun radix s, numeral radix (digitRun radix s))
      else none := by
  have length : (digitRun radix s).length + (afterRun radix s).length = s.length := by
    rw [← List.length_append, digitRun_append_afterRun]
  simp only [consumeUnsignedInteger, if_neg (Nat.ne_of_gt positive)]
  rw [consumeDigits_eq s 0 (by decide), Nat.zero_mul, Nat.zero_add]
  by_cases nothing : digitRun radix s = []
  · have all : (afterRun radix s).length = s.length := by simpa [nothing] using length
    simp [nothing, all]
  · have some := List.length_pos_iff.mpr nothing
    have shorter : ¬ s.length = (afterRun radix s).length := by omega
    have nonempty : s ≠ [] := List.length_pos_iff.mp (by omega)
    rw [if_neg (by simpa using nonempty)]
    by_cases fits : numeral radix (digitRun radix s) < 2 ^ 64
    · rw [if_pos fits, if_pos ⟨nothing, fits⟩]
      exact if_neg shorter
    · rw [if_neg fits, if_neg fun both => fits both.2]

private theorem digitRun_append {digits rest : Bytes} (inside : ∀ c ∈ digits, IsDigit radix c)
    (boundary : ∀ c ∈ rest.head?, ¬ IsDigit radix c) :
    digitRun radix (digits ++ rest) = digits ∧ afterRun radix (digits ++ rest) = rest := by
  have all : ∀ c ∈ digits, decide (IsDigit radix c) = true := fun c member =>
    decide_eq_true (inside c member)
  rw [digitRun, afterRun, List.takeWhile_append_of_pos all, List.dropWhile_append_of_pos all]
  cases rest with
  | nil => simp
  | cons c rest =>
    have other : decide (IsDigit radix c) = false := decide_eq_false (boundary c rfl)
    simp [other]

private theorem head_afterRun {c : UInt8} (first : c ∈ (afterRun radix s).head?) :
    ¬ IsDigit radix c := by
  have other := List.head?_dropWhile_not (fun c => decide (IsDigit radix c)) s
  rw [← afterRun, Option.mem_def.mp first] at other
  simpa using other

variable {rest : Bytes} {value : Nat}

theorem consumeUnsignedInteger_iff (positive : 0 < radix) :
    consumeUnsignedInteger s radix = some (rest, value) ↔
      ∃ digits, s = digits ++ rest ∧ IsNumeral radix digits ∧
        (∀ c ∈ rest.head?, ¬ IsDigit radix c) ∧ value = numeral radix digits ∧
        value < 2 ^ 64 := by
  rw [consumeUnsignedInteger_eq positive]
  constructor
  · intro consumed
    by_cases both : digitRun radix s ≠ [] ∧ numeral radix (digitRun radix s) < 2 ^ 64
    · rw [if_pos both] at consumed
      obtain ⟨rfl, rfl⟩ := Prod.mk.inj (Option.some.inj consumed)
      exact ⟨digitRun radix s, digitRun_append_afterRun.symm, ⟨both.1, fun c => digitRun_digits⟩,
        fun c => head_afterRun, rfl, both.2⟩
    · rw [if_neg both] at consumed
      contradiction
  · rintro ⟨digits, rfl, run, boundary, rfl, small⟩
    obtain ⟨front, after⟩ := digitRun_append run.2 boundary
    rw [front, after, if_pos ⟨run.1, small⟩]

theorem consumeUnsignedInteger_all (positive : 0 < radix) :
    consumeUnsignedInteger s radix = some ([], value) ↔
      IsNumeral radix s ∧ value = numeral radix s ∧ value < 2 ^ 64 := by
  rw [consumeUnsignedInteger_iff positive]
  constructor
  · rintro ⟨digits, same, run, -, rfl, small⟩
    rw [List.append_nil] at same
    subst same
    exact ⟨run, rfl, small⟩
  · rintro ⟨run, rfl, small⟩
    exact ⟨s, (List.append_nil s).symm, run, by simp, rfl, small⟩

theorem consumeUnsigned_eq {width : Nat} :
    consumeUnsigned width s radix = some (rest, value) ↔
      consumeUnsignedInteger s radix = some (rest, value) ∧ value < 2 ^ width := by
  rw [consumeUnsigned]
  cases consumeUnsignedInteger s radix with
  | none => simp
  | some pair =>
    obtain ⟨left, number⟩ := pair
    have fits : number % 2 ^ width = number ↔ number < 2 ^ width :=
      Nat.mod_eq_iff_lt (Nat.ne_of_gt (Nat.two_pow_pos width))
    dsimp only
    by_cases small : number < 2 ^ width
    · rw [if_neg (not_not.mpr (fits.mpr small))]
      constructor
      · intro same
        obtain ⟨rfl, rfl⟩ := Prod.mk.inj (Option.some.inj same)
        exact ⟨rfl, small⟩
      · exact And.left
    · rw [if_pos (mt fits.mp small)]
      refine iff_of_false (by simp) ?_
      rintro ⟨same, below⟩
      obtain ⟨-, rfl⟩ := Prod.mk.inj (Option.some.inj same)
      exact small below

end

section

inductive IntText : Bytes → Int → Prop where
  | natural {d : Bytes} (digits : IsNumeral 10 d) : IntText d (numeral 10 d)
  | negative {d : Bytes} (digits : IsNumeral 10 d) : IntText ('-'.toUInt8 :: d) (-numeral 10 d)

variable {s rest : Bytes} {value : Int}

theorem bmod_natural {n : Nat} (small : n < 2 ^ 64) :
    ¬ Int.bmod n (2 ^ 64) < 0 ∧ Int.bmod n (2 ^ 64) = value ↔ n < 2 ^ 63 ∧ (n : Int) = value := by
  rw [Int.bmod_def]
  split <;> omega

theorem bmod_negative {n : Nat} (small : n < 2 ^ 64) :
    ¬ Int.bmod (-n) (2 ^ 64) > 0 ∧ Int.bmod (-n) (2 ^ 64) = value ↔
      n ≤ 2 ^ 63 ∧ -(n : Int) = value := by
  rw [Int.bmod_def]
  split <;> omega

theorem bmod_int : Int.bmod value (2 ^ 32) = value ↔ -2 ^ 31 ≤ value ∧ value < 2 ^ 31 := by
  rw [Int.bmod_def]
  split <;> omega

private theorem intText_minus :
    IntText ('-'.toUInt8 :: s) value ↔ IsNumeral 10 s ∧ -(numeral 10 s : Int) = value := by
  constructor
  · intro text
    cases text with
    | natural digits => exact absurd (digits.2 _ List.mem_cons_self) (by decide)
    | negative digits => exact ⟨digits, rfl⟩
  · rintro ⟨digits, rfl⟩
    exact .negative digits

private theorem intText_plain (plain : s.getD 0 0 ≠ '-'.toUInt8) :
    IntText s value ↔ IsNumeral 10 s ∧ (numeral 10 s : Int) = value := by
  constructor
  · intro text
    cases text with
    | natural digits => exact ⟨digits, rfl⟩
    | negative digits => exact absurd rfl plain
  · rintro ⟨digits, rfl⟩
    exact .natural digits

private theorem consumeSignedInteger_all :
    consumeSignedInteger s 10 = some ([], value) ↔
      IntText s value ∧ -2 ^ 63 ≤ value ∧ value < 2 ^ 63 := by
  rw [consumeSignedInteger]
  by_cases plain : s.getD 0 0 ≠ '-'.toUInt8
  · rw [if_pos plain, intText_plain plain]
    constructor
    · intro read
      split at read
      · contradiction
      · next left number consumed =>
        split at read
        · cases read
        · next natural =>
          obtain ⟨rfl, same⟩ := Prod.mk.inj (Option.some.inj read)
          obtain ⟨digits, rfl, small⟩ := (consumeUnsignedInteger_all (by decide)).mp consumed
          obtain ⟨below, rfl⟩ := (bmod_natural small).mp ⟨natural, same⟩
          exact ⟨⟨digits, rfl⟩, by omega⟩
    · rintro ⟨⟨digits, rfl⟩, -, below⟩
      have small : numeral 10 s < 2 ^ 64 := by omega
      have consumed := (consumeUnsignedInteger_all (by decide)).mpr ⟨digits, rfl, small⟩
      obtain ⟨natural, same⟩ := (bmod_natural small).mpr ⟨by omega, rfl⟩
      rw [consumed]
      dsimp only
      rw [if_neg natural, same]
  · rw [if_neg plain]
    obtain ⟨t, rfl⟩ : ∃ t, s = '-'.toUInt8 :: t := by
      cases s with
      | nil => exact absurd (not_not.mp plain) (by decide)
      | cons c t => exact ⟨t, congrArg (· :: t) (not_not.mp plain)⟩
    rw [intText_minus, List.drop_succ_cons, List.drop_zero]
    constructor
    · intro read
      split at read
      · contradiction
      · next left number consumed =>
        split at read
        · cases read
        · next negative =>
          obtain ⟨rfl, same⟩ := Prod.mk.inj (Option.some.inj read)
          obtain ⟨digits, rfl, small⟩ := (consumeUnsignedInteger_all (by decide)).mp consumed
          obtain ⟨below, rfl⟩ := (bmod_negative small).mp ⟨negative, same⟩
          exact ⟨⟨digits, rfl⟩, by omega⟩
    · rintro ⟨⟨digits, rfl⟩, above, -⟩
      have small : numeral 10 t < 2 ^ 64 := by omega
      have consumed := (consumeUnsignedInteger_all (by decide)).mpr ⟨digits, rfl, small⟩
      obtain ⟨negative, same⟩ := (bmod_negative small).mpr ⟨by omega, rfl⟩
      rw [consumed]
      dsimp only
      rw [if_neg negative, same]

theorem getAsSigned_iff :
    getAsSigned 32 s 10 = some value ↔ IntText s value ∧ -2 ^ 31 ≤ value ∧ value < 2 ^ 31 := by
  have all : getAsSigned 32 s 10 = some value ↔
      consumeSignedInteger s 10 = some ([], value) ∧ Int.bmod value (2 ^ 32) = value := by
    rw [getAsSigned]
    cases consumeSignedInteger s 10 with
    | none => simp
    | some pair =>
      obtain ⟨left, number⟩ := pair
      dsimp only
      constructor
      · intro read
        split at read
        · contradiction
        · next empty =>
          split at read
          · contradiction
          · next fits =>
            obtain rfl : left = [] := by simpa using empty
            obtain rfl := Option.some.inj read
            exact ⟨rfl, not_not.mp fits⟩
      · rintro ⟨same, fits⟩
        obtain ⟨rfl, rfl⟩ := Prod.mk.inj (Option.some.inj same)
        rw [if_neg (by simp), if_neg (not_not.mpr fits)]
  rw [all, consumeSignedInteger_all, bmod_int]
  constructor
  · rintro ⟨⟨text, -⟩, small⟩
    exact ⟨text, small⟩
  · rintro ⟨text, small⟩
    exact ⟨⟨text, by omega⟩, small⟩

end

section

variable {s x y : Bytes} {c : UInt8}

theorem find_eq_none_iff : find s c = none ↔ c ∉ s := by
  rw [find, List.findIdx?_eq_none_iff]
  constructor
  · intro other inside
    exact absurd (other c inside) (by simp)
  · intro absent b inside
    rw [beq_eq_false_iff_ne]
    rintro rfl
    exact absent inside

theorem find_append (absent : c ∉ x) : find (x ++ c :: y) c = some x.length := by
  have front : List.findIdx? (· == c) x = none := find_eq_none_iff.mpr absent
  rw [find, List.findIdx?_append, front, List.findIdx?_cons]
  simp

theorem split_append (absent : c ∉ x) : split (x ++ c :: y) c = (x, y) := by
  rw [split, find_append absent]
  dsimp only
  rw [List.take_left, ← List.drop_drop, List.drop_left, List.drop_succ_cons, List.drop_zero]

theorem split_absent (absent : c ∉ s) : split s c = (s, []) := by
  rw [split, find_eq_none_iff.mpr absent]

theorem exists_cut (inside : c ∈ s) : ∃ x y, s = x ++ c :: y ∧ c ∉ x := by
  obtain ⟨x, y, same, absent⟩ := List.eq_append_cons_of_mem inside
  exact ⟨x, y, same, absent⟩

end

end Libofp.Text.StringRef
