/- GID: Libofp/Text/Utf8Repair
   digest: The repair of strings that are not UTF-8: the bytes that begin no character are
     replaced by question marks. -/

import Libofp.Base.Digits
import Libofp.Base.Utf8
import Libofp.Octets.ByteRange

set_option autoImplicit false

namespace Libofp.Text.Utf8Repair

open Octets.ByteRange Base.Utf8

def trailingBytesForUTF8 (first : UInt8) : Nat :=
  if first < 0xC0 then 0
  else if first < 0xE0 then 1
  else if first < 0xF0 then 2
  else if first < 0xF8 then 3
  else if first < 0xFC then 4
  else 5

def getNumBytesForUTF8 (first : UInt8) : Nat := trailingBytesForUTF8 first + 1

/-- `(a = (*--srcptr)) < 0x80 || a > 0xBF`, when it does not hold. -/
def isTail (a : UInt8) : Bool := !(a < 0x80 || a > 0xBF)

/-- `case 2`, from the test of the second byte on. -/
def isSecond (first a : UInt8) : Bool :=
  isTail a &&
    match first with
    | 0xE0 => !(a < 0xA0)
    | 0xED => !(a > 0x9F)
    | 0xF0 => !(a < 0x90)
    | 0xF4 => !(a > 0x8F)
    | _ => !(a < 0x80)

/-- `case 1` and what follows. -/
def isFirst (first : UInt8) : Bool := !(first ≥ 0x80 && first < 0xC2) && !(first > 0xF4)

/-- `isLegalUTF8`: each case falls through to the next one. -/
def isLegalUTF8 (source : Bytes) (length : Nat) : Bool :=
  let byte := fun i => source.getD i 0
  match length with
  | 4 => isTail (byte 3) && (isTail (byte 2) && (isSecond (byte 0) (byte 1) && isFirst (byte 0)))
  | 3 => isTail (byte 2) && (isSecond (byte 0) (byte 1) && isFirst (byte 0))
  | 2 => isSecond (byte 0) (byte 1) && isFirst (byte 0)
  | 1 => isFirst (byte 0)
  | _ => false

def isLegalUTF8Sequence (source : Bytes) : Bool :=
  let length := trailingBytesForUTF8 (source.getD 0 0) + 1
  if length > source.length then false else isLegalUTF8 source length

/-- `std::find_if` of the first byte that has the high bit set. -/
def findHigh (s : Bytes) : Nat := (s.takeWhile fun b => b &&& 0x80 == 0).length

/-- `findIllegalUtf8`: the offset of the first byte that begins no character, or of the end. -/
def findIllegalUtf8 (s : Bytes) : Nat :=
  match _ : s.drop (findHigh s) with
  | [] => s.length
  | first :: rest =>
    if ¬ isLegalUTF8Sequence (first :: rest) then findHigh s
    else
      findHigh s + (getNumBytesForUTF8 first +
        findIllegalUtf8 ((first :: rest).drop (getNumBytesForUTF8 first)))
termination_by s.length
decreasing_by
  have size := congrArg List.length ‹s.drop (findHigh s) = first :: rest›
  rw [List.length_drop, List.length_cons] at size
  rw [List.length_drop, List.length_cons, getNumBytesForUTF8]
  omega

/-- `'?'`. -/
def questionMark : UInt8 := 0x3F

theorem findIllegalUtf8_nil : findIllegalUtf8 [] = 0 := by
  rw [findIllegalUtf8]
  rfl

def validUtf8String (s : Bytes) : Bytes :=
  let next := findIllegalUtf8 s
  if next = s.length then s
  else s.take next ++ questionMark :: validUtf8String (s.drop (next + 1))
termination_by s.length
decreasing_by
  cases s with
  | nil => exact absurd findIllegalUtf8_nil ‹_›
  | cons first rest =>
    rw [List.length_drop, List.length_cons]
    omega

section

variable {a b : UInt8} {rest : Bytes}

theorem isTail_iff : isTail b = true ↔ Tail b := by
  simp only [isTail, Tail, UInt8.lt_iff_toNat_lt, UInt8.le_iff_toNat_le, Bool.not_eq_true',
    Bool.or_eq_false_iff, decide_eq_false_iff_not, gt_iff_lt]
  omega

theorem isSecond_iff : isSecond a b = true ↔ Second a b := by
  rw [isSecond.eq_def, Bool.and_eq_true, isTail_iff, Second]
  apply and_congr_right
  intro tail
  split
  iterate 4 simp
  next e0 ed f0 f4 =>
    have low : ¬ b < 0x80 := UInt8.not_lt.mpr tail.1
    simp only [low, decide_false, Bool.not_false, true_iff]
    tauto

private theorem isFirst_iff : isFirst a = true ↔ a ≤ 0x7F ∨ 0xC2 ≤ a ∧ a ≤ 0xF4 := by
  simp only [isFirst, UInt8.lt_iff_toNat_lt, UInt8.le_iff_toNat_le, Bool.and_eq_true,
    Bool.not_eq_true', Bool.and_eq_false_iff, decide_eq_false_iff_not, gt_iff_lt, ge_iff_le]
  simp
  omega

theorem trailingBytes_cases (a : UInt8) :
    trailingBytesForUTF8 a = 0 ∧ a < 0xC0 ∨
      trailingBytesForUTF8 a = 1 ∧ 0xC0 ≤ a ∧ a < 0xE0 ∨
      trailingBytesForUTF8 a = 2 ∧ 0xE0 ≤ a ∧ a < 0xF0 ∨
      trailingBytesForUTF8 a = 3 ∧ 0xF0 ≤ a ∧ a < 0xF8 ∨
      4 ≤ trailingBytesForUTF8 a ∧ 0xF8 ≤ a := by
  simp only [trailingBytesForUTF8, UInt8.lt_iff_toNat_lt, UInt8.le_iff_toNat_le]
  split_ifs <;> omega

theorem getNumBytes_of_character {x : Bytes} (character : Character (a :: x)) :
    getNumBytesForUTF8 a = (a :: x).length := by
  rw [getNumBytesForUTF8]
  have range := trailingBytes_cases a
  simp only [UInt8.lt_iff_toNat_lt, UInt8.le_iff_toNat_le] at range
  simp at range
  rcases character with first | ⟨first, -⟩ | ⟨first, -⟩ | ⟨first, -⟩
  all_goals
    simp [UInt8.le_iff_toNat_le] at first ⊢
    omega

private theorem isFirst_cases (a : UInt8) :
    trailingBytesForUTF8 a = 0 ∧ (isFirst a = true ↔ a ≤ 0x7F) ∨
      trailingBytesForUTF8 a = 1 ∧ (isFirst a = true ↔ 0xC2 ≤ a ∧ a ≤ 0xDF) ∨
      trailingBytesForUTF8 a = 2 ∧ (isFirst a = true ↔ 0xE0 ≤ a ∧ a ≤ 0xEF) ∨
      trailingBytesForUTF8 a = 3 ∧ (isFirst a = true ↔ 0xF0 ≤ a ∧ a ≤ 0xF4) ∨
      4 ≤ trailingBytesForUTF8 a := by
  have range := trailingBytes_cases a
  rw [isFirst_iff]
  simp only [UInt8.lt_iff_toNat_lt, UInt8.le_iff_toNat_le] at range ⊢
  simp at range ⊢
  omega

private theorem isLegalUTF8_long {source : Bytes} {length : Nat} (long : 4 < length) :
    isLegalUTF8 source length = false := by
  rw [isLegalUTF8.eq_def]
  split <;> first | omega | rfl

/-- `isLegalUTF8Sequence` looks for a character at the beginning of the string, of the length
that `getNumBytesForUTF8` gives. -/
theorem isLegalUTF8Sequence_iff : isLegalUTF8Sequence (a :: rest) = true ↔
    Character ((a :: rest).take (getNumBytesForUTF8 a)) := by
  simp only [isLegalUTF8Sequence, List.getD_cons_zero]
  rw [← getNumBytesForUTF8]
  by_cases short : getNumBytesForUTF8 a > (a :: rest).length
  · rw [if_pos short, List.take_of_length_le (Nat.le_of_lt short)]
    refine iff_of_false Bool.false_ne_true fun character => ?_
    exact absurd (getNumBytes_of_character character) (Nat.ne_of_gt short)
  · rw [if_neg short]
    rw [getNumBytesForUTF8, List.length_cons] at short
    rw [getNumBytesForUTF8]
    rcases isFirst_cases a with ⟨count, first⟩ | ⟨count, first⟩ | ⟨count, first⟩ |
      ⟨count, first⟩ | count
    · rwa [count, List.take_succ_cons, List.take_zero, character_one]
    · rw [count] at short ⊢
      obtain ⟨b, rest, rfl⟩ := List.exists_cons_of_length_pos (l := rest) (by omega)
      simp only [isLegalUTF8, List.take_succ_cons, List.take_zero, character_two,
        List.getD_cons_zero, List.getD_cons_succ, Bool.and_eq_true, isSecond_iff, first]
      exact and_comm
    · rw [count] at short ⊢
      obtain ⟨b, rest, rfl⟩ := List.exists_cons_of_length_pos (l := rest) (by omega)
      rw [List.length_cons] at short
      obtain ⟨c, rest, rfl⟩ := List.exists_cons_of_length_pos (l := rest) (by omega)
      simp only [isLegalUTF8, List.take_succ_cons, List.take_zero, character_three,
        List.getD_cons_zero, List.getD_cons_succ, Bool.and_eq_true, isSecond_iff, isTail_iff,
        first]
      tauto
    · rw [count] at short ⊢
      obtain ⟨b, rest, rfl⟩ := List.exists_cons_of_length_pos (l := rest) (by omega)
      rw [List.length_cons] at short
      obtain ⟨c, rest, rfl⟩ := List.exists_cons_of_length_pos (l := rest) (by omega)
      rw [List.length_cons] at short
      obtain ⟨d, rest, rfl⟩ := List.exists_cons_of_length_pos (l := rest) (by omega)
      simp only [isLegalUTF8, List.take_succ_cons, List.take_zero, character_four,
        List.getD_cons_zero, List.getD_cons_succ, Bool.and_eq_true, isSecond_iff, isTail_iff,
        first]
      tauto
    · rw [isLegalUTF8_long (by omega)]
      refine iff_of_false Bool.false_ne_true fun character => ?_
      have most := character.length_le
      rw [List.length_take, List.length_cons] at most
      omega

end

section

variable {a : UInt8} {rest x : Bytes}

theorem ascii_iff : ∀ a : UInt8, (a &&& 0x80 == 0) = true ↔ a ≤ 0x7F := by
  decide +kernel

theorem findHigh_ascii (ascii : a ≤ 0x7F) : findHigh (a :: rest) = findHigh rest + 1 := by
  rw [findHigh, List.takeWhile_cons, if_pos ((ascii_iff a).mpr ascii), List.length_cons, findHigh]

theorem findHigh_high (high : ¬ a ≤ 0x7F) : findHigh (a :: rest) = 0 := by
  rw [findHigh, List.takeWhile_cons, if_neg (mt (ascii_iff a).mp high), List.length_nil]

theorem findIllegalUtf8_end {s : Bytes} (here : s.drop (findHigh s) = []) :
    findIllegalUtf8 s = s.length := by
  rw [findIllegalUtf8.eq_def]
  split
  · rfl
  · next first rest there =>
    rw [here] at there
    contradiction

theorem findIllegalUtf8_stop {s : Bytes} (here : s.drop (findHigh s) = a :: rest) :
    findIllegalUtf8 s =
      findHigh s + if isLegalUTF8Sequence (a :: rest) then
        getNumBytesForUTF8 a + findIllegalUtf8 ((a :: rest).drop (getNumBytesForUTF8 a))
      else 0 := by
  rw [findIllegalUtf8.eq_def]
  split
  · next there =>
    rw [here] at there
    contradiction
  · next first later there =>
    rw [here] at there
    obtain ⟨rfl, rfl⟩ := List.cons_eq_cons.mp there
    rw [ite_not]
    split <;> rfl

theorem findIllegalUtf8_high (high : ¬ a ≤ 0x7F) :
    findIllegalUtf8 (a :: rest) =
      if isLegalUTF8Sequence (a :: rest) then
        getNumBytesForUTF8 a + findIllegalUtf8 ((a :: rest).drop (getNumBytesForUTF8 a))
      else 0 := by
  have here : (a :: rest).drop (findHigh (a :: rest)) = a :: rest := by
    rw [findHigh_high high, List.drop_zero]
  rw [findIllegalUtf8_stop here, findHigh_high high, Nat.zero_add]

private theorem findIllegalUtf8_ascii (ascii : a ≤ 0x7F) :
    findIllegalUtf8 (a :: rest) = 1 + findIllegalUtf8 rest := by
  have move : (a :: rest).drop (findHigh (a :: rest)) = rest.drop (findHigh rest) := by
    rw [findHigh_ascii ascii, List.drop_succ_cons]
  cases here : rest.drop (findHigh rest) with
  | nil =>
    rw [findIllegalUtf8_end (move.trans here), findIllegalUtf8_end here, List.length_cons,
      Nat.add_comm]
  | cons first later =>
    rw [findIllegalUtf8_stop (move.trans here), findIllegalUtf8_stop here,
      findHigh_ascii ascii, Nat.add_comm _ 1, Nat.add_assoc]

theorem isLegal_character (character : Character x) (rest : Bytes) :
    ∃ a later, x ++ rest = a :: later ∧ isLegalUTF8Sequence (a :: later) = true ∧
      getNumBytesForUTF8 a = x.length := by
  obtain ⟨a, y, rfl⟩ := List.exists_cons_of_ne_nil character.ne_nil
  refine ⟨a, y ++ rest, rfl, ?_, getNumBytes_of_character character⟩
  rwa [isLegalUTF8Sequence_iff, getNumBytes_of_character character, ← List.cons_append,
    List.take_left]

private theorem findIllegalUtf8_character (character : Character x) :
    findIllegalUtf8 (x ++ rest) = x.length + findIllegalUtf8 rest := by
  obtain ⟨a, later, same, legal, size⟩ := isLegal_character character rest
  by_cases ascii : a ≤ 0x7F
  · have one : x.length = 1 := size.symm.trans (getNumBytes_of_character (.one ascii))
    have tail : (x ++ rest).drop x.length = rest := List.drop_left
    rw [same, one, List.drop_succ_cons, List.drop_zero] at tail
    rw [same, findIllegalUtf8_ascii ascii, tail, one]
  · rw [same, findIllegalUtf8_high ascii, if_pos legal, size, ← same, List.drop_left]

private theorem findIllegalUtf8_illegal (illegal : isLegalUTF8Sequence (a :: rest) = false) :
    findIllegalUtf8 (a :: rest) = 0 := by
  have high : ¬ a ≤ 0x7F := by
    intro ascii
    obtain ⟨_, _, same, legal, -⟩ := isLegal_character (.one ascii) rest
    obtain ⟨rfl, rfl⟩ := List.cons_eq_cons.mp same
    exact Bool.false_ne_true (illegal.symm.trans legal)
  rw [findIllegalUtf8_high high, illegal, if_neg Bool.false_ne_true]

theorem scanInduction {motive : Bytes → Prop} (nil : motive [])
    (character : ∀ x rest, Character x → motive rest → motive (x ++ rest))
    (illegal : ∀ a rest, isLegalUTF8Sequence (a :: rest) = false → motive rest →
      motive (a :: rest)) (s : Bytes) : motive s := by
  induction size : s.length using Nat.strongRecOn generalizing s with
  | ind size ih =>
  cases s with
  | nil => exact nil
  | cons a rest =>
    subst size
    by_cases legal : isLegalUTF8Sequence (a :: rest) = true
    · rw [← List.take_append_drop (getNumBytesForUTF8 a) (a :: rest)]
      refine character _ _ (isLegalUTF8Sequence_iff.mp legal) (ih _ ?_ _ rfl)
      rw [List.length_drop, List.length_cons, getNumBytesForUTF8]
      omega
    · exact illegal a rest (Bool.eq_false_of_not_eq_true legal)
        (ih _ (Nat.lt_succ_self _) rest rfl)

theorem validUtf8String_character (character : Character x) :
    validUtf8String (x ++ rest) = x ++ validUtf8String rest := by
  rw [validUtf8String.eq_def (x ++ rest), validUtf8String.eq_def rest]
  simp only [findIllegalUtf8_character character, List.length_append, Nat.add_left_cancel_iff]
  split
  · rfl
  · rw [List.take_length_add_append, Nat.add_assoc, List.drop_length_add_append,
      List.append_assoc]

theorem validUtf8String_illegal (illegal : isLegalUTF8Sequence (a :: rest) = false) :
    validUtf8String (a :: rest) = questionMark :: validUtf8String rest := by
  rw [validUtf8String.eq_def (a :: rest), findIllegalUtf8_illegal illegal]
  rfl

theorem validUtf8String_nil : validUtf8String [] = [] := by
  rw [validUtf8String.eq_def, findIllegalUtf8_nil]
  rfl

end

private theorem length_validUtf8String (s : Bytes) : (validUtf8String s).length = s.length := by
  induction s using scanInduction with
  | nil => rw [validUtf8String_nil]
  | character x rest character ih =>
    rw [validUtf8String_character character, List.length_append, List.length_append, ih]
  | illegal a rest illegal ih =>
    rw [validUtf8String_illegal illegal, List.length_cons, List.length_cons, ih]

private theorem validUtf8String_legal (s : Bytes) : Legal (validUtf8String s) := by
  induction s using scanInduction with
  | nil => rw [validUtf8String_nil]; exact .nil
  | character x rest character ih =>
    rw [validUtf8String_character character]
    exact .cons character ih
  | illegal a rest illegal ih =>
    rw [validUtf8String_illegal illegal]
    exact .cons (.one (by decide)) ih

private theorem validUtf8String_replaced (s : Bytes) :
    List.Forall₂ (fun old new => new = old ∨ new = questionMark) s (validUtf8String s) := by
  induction s using scanInduction with
  | nil => rw [validUtf8String_nil]; exact .nil
  | character x rest character ih =>
    rw [validUtf8String_character character]
    exact List.rel_append (List.forall₂_same.mpr fun _ _ => .inl rfl) ih
  | illegal a rest illegal ih =>
    rw [validUtf8String_illegal illegal]
    exact .cons (.inr rfl) ih

theorem validUtf8String_of_legal {s : Bytes} (legal : Legal s) : validUtf8String s = s := by
  induction legal with
  | nil => exact validUtf8String_nil
  | cons head tail ih => rw [validUtf8String_character head, ih]

/-- The repair keeps the length, gives a legal string, replaces bytes by question marks only,
leaves a legal string as it is, and has nothing to do on its own results. -/
theorem validUtf8String_repairs (s : Bytes) :
    (validUtf8String s).length = s.length ∧ Legal (validUtf8String s) ∧
      List.Forall₂ (fun old new => new = old ∨ new = questionMark) s (validUtf8String s) ∧
      (Legal s → validUtf8String s = s) ∧
      validUtf8String (validUtf8String s) = validUtf8String s := by
  have legal := validUtf8String_legal s
  exact ⟨length_validUtf8String s, legal, validUtf8String_replaced s, validUtf8String_of_legal,
    validUtf8String_of_legal legal⟩

end Libofp.Text.Utf8Repair
