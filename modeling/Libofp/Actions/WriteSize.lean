/- GID: Libofp/Actions/WriteSize
   digest: When an action list is as long on a version 1 channel as announced. -/

import Libofp.Actions.Writing
import Mathlib.Algebra.BigOperators.Group.List.Basic

set_option autoImplicit false

namespace Libofp.Actions.WriteSize

open Octets.ByteRange Octets.ByteList Octets.BigEndian Oxm.Field
open ActionRange Writing

def codeV1 : OxmField → Option Nat
  | .vlanVid => some 1
  | .vlanPcp => some 2
  | .ethSrc => some 4
  | .ethDst => some 5
  | .ipv4Src => some 6
  | .ipv4Dst => some 7
  | .ipDscp => some 8
  | .tcpSrc | .udpSrc | .icmpv4Type => some 9
  | .tcpDst | .udpDst | .icmpv4Code => some 10
  | _ => none

/-- A set-field action states 16 bytes and sets a field that version 1 has an action for;
any other action fills whole units. -/
def Framable (action : Bytes) : Prop :=
  (enumType action = OFPAT.setField →
    actionLength action = 16 ∧ ((oxmField action).bind codeV1).isSome = true) ∧
  (enumType action ≠ OFPAT.setField → actionLength action % 8 = 0)

instance (action : Bytes) : Decidable (Framable action) := instDecidableAnd

section

variable {action : Bytes}

private theorem length_atSetFieldV (code : Nat) (f : OxmField) (long : 16 ≤ action.length) :
    (atSetFieldV code f action).length = padLength (4 + f.size) := by
  have room := f.size_le
  have pad := le_padLength (4 + f.size)
  simp only [atSetFieldV, List.length_append, length_bigBytes, List.length_replicate,
    length_window action (show 8 + f.size ≤ action.length by omega)]
  omega

theorem writeSetFieldV1_eq {f : OxmField} {code : Nat} (field : oxmField action = some f)
    (known : codeV1 f = some code) : writeSetFieldV1 action = atSetFieldV code f action := by
  simp only [writeSetFieldV1, field]
  cases f <;> simp only [codeV1, reduceCtorEq, Option.some.injEq] at known <;> subst known <;> rfl

private theorem writeSizeMinusSetFieldV1_eq {f : OxmField} {code : Nat}
    (field : oxmField action = some f) (known : codeV1 f = some code) :
    writeSizeMinusSetFieldV1 action = 16 - padLength (4 + f.size) := by
  simp only [writeSizeMinusSetFieldV1, field]
  cases f <;> simp only [codeV1, reduceCtorEq, Option.some.injEq] at known <;> rfl

private theorem writeSetFieldV1_unknown (unknown : (oxmField action).bind codeV1 = none) :
    writeSetFieldV1 action = [] ∧ writeSizeMinusSetFieldV1 action = 0 := by
  cases field : oxmField action with
  | none => simp [writeSetFieldV1, writeSizeMinusSetFieldV1, field]
  | some f =>
    rw [field, Option.bind_some] at unknown
    simp only [writeSetFieldV1, writeSizeMinusSetFieldV1, field]
    cases f <;> first | exact ⟨rfl, rfl⟩ | simp [codeV1] at unknown

/-- The bytes that an action takes on a version 1 channel and the bytes that are taken off
its size make up at most the bytes it has, and all of them only in a good case. -/
private theorem writeV1_balance (padded : Padded action) (valid : validateAction action = true) :
    (writeV1 action).length + writeSizeMinusV1 action ≤ action.length ∧
      ((writeV1 action).length + writeSizeMinusV1 action = action.length ↔ Framable action) := by
  have long := le_padLength (actionLength action)
  have size := padded.size
  have units : padLength (actionLength action) = actionLength action ↔
      actionLength action % 8 = 0 := by
    unfold padLength
    omega
  unfold writeV1 writeSizeMinusV1 Framable
  by_cases output : IsOutput action
  · have notSet : enumType action ≠ OFPAT.setField := by
      rw [output.1]
      decide
    have short : (atOutputV1 action).length = 8 := by
      have sixteen := output.2
      simp [atOutputV1, length_bigBytes, length_window action (show 6 + 2 ≤ action.length by omega),
        length_window action (show 8 + 2 ≤ action.length by omega)]
    have sixteen : action.length = 16 := by
      rw [size, output.2]
      rfl
    rw [if_pos output, if_pos output, short, output.2, sixteen]
    simp [notSet]
  · rw [if_neg output, if_neg output]
    by_cases setField : enumType action = OFPAT.setField
    · rw [if_pos setField, if_pos setField]
      simp only [setField, forall_const, ne_eq, not_true, false_implies, and_true]
      have least : 16 ≤ actionLength action := by
        rw [validateAction, if_pos setField, validateInputSetField] at valid
        by_contra short
        rw [if_pos (by omega)] at valid
        exact absurd valid (by simp)
      cases known : (oxmField action).bind codeV1 with
      | none =>
        obtain ⟨nothing, kept⟩ := writeSetFieldV1_unknown known
        rw [nothing, kept]
        simp only [List.length_nil, Nat.add_zero, Option.isSome_none, Bool.false_eq_true,
          and_false, iff_false]
        omega
      | some code =>
        obtain ⟨f, field, known⟩ := Option.bind_eq_some_iff.mp known
        have room : padLength (4 + f.size) ≤ 16 := by
          have := f.size_le
          unfold padLength
          omega
        rw [writeSetFieldV1_eq field known, writeSizeMinusSetFieldV1_eq field known,
          length_atSetFieldV code f (by omega)]
        simp only [Option.isSome_some, and_true]
        omega
    · rw [if_neg setField, if_neg setField]
      have whole : (action.take (actionLength action)).length = actionLength action := by
        rw [List.length_take]
        omega
      omega

end

theorem sum_eq_iff_of_le {α : Type} {f g : α → Nat} {l : List α} (ordered : ∀ a ∈ l, f a ≤ g a) :
    (l.map f).sum ≤ (l.map g).sum ∧
      ((l.map f).sum = (l.map g).sum ↔ ∀ a ∈ l, f a = g a) := by
  induction l with
  | nil => simp
  | cons a l ih =>
    obtain ⟨first, rest⟩ := List.forall_mem_cons.mp ordered
    obtain ⟨below, same⟩ := ih rest
    simp only [List.map_cons, List.sum_cons, List.forall_mem_cons, ← same]
    omega

private theorem foldl_sub {α : Type} (f : α → Nat) (l : List α) (n : Nat) :
    l.foldl (fun n a => n - f a) n = n - (l.map f).sum := by
  induction l generalizing n with
  | nil => simp
  | cons a l ih => rw [List.foldl_cons, ih, List.map_cons, List.sum_cons, Nat.sub_sub]

/-- A valid list is never longer on a version 1 channel than announced, and it is as long
as announced exactly when all its actions can be framed. -/
theorem length_write_iff {address : Nat} {range : Bytes}
    (valid : validateInput address range = true) :
    (write 1 range).length ≤ writeSize 1 range ∧
      ((write 1 range).length = writeSize 1 range ↔
        ∀ action ∈ actionLayout.items range, Framable action) := by
  have accepted := accepts_of_validateInput valid
  have checked : ∀ action ∈ actionLayout.items range, validateAction action = true := by
    simp only [validateInput, Bool.and_eq_true, List.all_eq_true] at valid
    exact valid.2
  have balance := fun action member =>
    writeV1_balance (padded_items accepted action member) (checked action member)
  obtain ⟨below, same⟩ := sum_eq_iff_of_le fun action member => (balance action member).1
  rw [List.sum_map_add, ← length_eq_sum accepted] at below same
  have framable : (∀ action ∈ actionLayout.items range,
      (writeV1 action).length + writeSizeMinusV1 action = action.length) ↔
        ∀ action ∈ actionLayout.items range, Framable action :=
    forall₂_congr fun action member => (balance action member).2
  rw [framable] at same
  have written : (write 1 range).length =
      ((actionLayout.items range).map fun action => (writeV1 action).length).sum := by
    simp [write, List.length_flatMap]
  have announced : writeSize 1 range =
      range.length - ((actionLayout.items range).map writeSizeMinusV1).sum := by
    simp [writeSize, foldl_sub]
  rw [written, announced, ← same]
  omega

end Libofp.Actions.WriteSize
