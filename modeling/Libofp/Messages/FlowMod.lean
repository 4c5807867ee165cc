/- GID: Libofp/Messages/FlowMod
   digest: Validation of a flow modification, and when its match lies in the message. -/

import Libofp.Instructions.InstructionRange
import Libofp.Match.Header
import Libofp.Messages.Header

set_option autoImplicit false

namespace Libofp.Messages.FlowMod

open Octets.ByteRange Wire.ProtocolRange Instructions
open Match.Standard (ofpmtStandard ofpmtStandardLength)
open Match.Header (ofpmtOxm)

def sizeWithoutMatchHeader : Nat := 48

def unpaddedSizeWithMatchHeader : Nat := 52

/-- The memory from `matchHeader_` on. -/
def matchHeader (buf : Bytes) : Bytes := buf.drop sizeWithoutMatchHeader

def instructionsOffset (buf : Bytes) : Nat :=
  sizeWithoutMatchHeader + Match.Header.paddedLength (matchHeader buf)

def instructions (buf : Bytes) : Bytes :=
  safeByteRange (buf.take (Header.length buf)) (instructionsOffset buf)

/-- `FlowMod::validateInput` of a message that lies at an address. -/
def validateInput (version address : Nat) (buf : Bytes) : Bool :=
  if Header.length buf < unpaddedSizeWithMatchHeader then false
  else
    match Match.Header.validateInput version (address + sizeWithoutMatchHeader)
        (Header.length buf - sizeWithoutMatchHeader) (matchHeader buf) with
    | .error _ => false
    | .ok _ => InstructionRange.validateInput (address + instructionsOffset buf) (instructions buf)

/-- Where the match that `FlowMod::match` reads ends. -/
def matchEnd (buf : Bytes) : Nat :=
  if Match.Header.type (matchHeader buf) = ofpmtOxm then instructionsOffset buf
  else if Match.Header.type (matchHeader buf) = ofpmtStandard then
    sizeWithoutMatchHeader + ofpmtStandardLength
  else unpaddedSizeWithMatchHeader

/-- The match lies within the length of the message, and the instructions do unless there
are none. -/
def InBounds (buf : Bytes) : Prop :=
  matchEnd buf ≤ Header.length buf ∧
    (instructions buf ≠ [] →
      instructionsOffset buf + (instructions buf).length ≤ Header.length buf)

instance (buf : Bytes) : Decidable (InBounds buf) := instDecidableAnd

def CutShort (version : Nat) (buf : Bytes) : Prop :=
  version < 4 ∧ Match.Header.type (matchHeader buf) = ofpmtStandard ∧
    Match.Header.length (matchHeader buf) = ofpmtStandardLength ∧
      Header.length buf < sizeWithoutMatchHeader + ofpmtStandardLength

instance (version : Nat) (buf : Bytes) : Decidable (CutShort version buf) := instDecidableAnd

variable {version address : Nat} {buf : Bytes}

theorem validateInput_iff :
    validateInput version address buf = true ↔
      unpaddedSizeWithMatchHeader ≤ Header.length buf ∧
        Match.Header.validateInput version (address + sizeWithoutMatchHeader)
          (Header.length buf - sizeWithoutMatchHeader) (matchHeader buf) = .ok () ∧
        InstructionRange.validateInput (address + instructionsOffset buf)
          (instructions buf) = true := by
  unfold validateInput
  split
  · simp only [Bool.false_eq_true, false_iff]
    intro h
    omega
  · rename_i long
    cases Match.Header.validateInput version (address + sizeWithoutMatchHeader)
        (Header.length buf - sizeWithoutMatchHeader) (matchHeader buf) with
    | error fault => simp
    | ok _ => simp [Nat.le_of_not_lt long]

theorem instructions_within (nonempty : instructions buf ≠ []) :
    instructionsOffset buf + (instructions buf).length ≤ Header.length buf := by
  rw [instructions, safeByteRange_eq_drop] at nonempty ⊢
  have ahead := List.length_pos_of_ne_nil nonempty
  simp only [List.length_drop, List.length_take] at ahead ⊢
  omega

theorem matchEnd_of_standard (standard : Match.Header.type (matchHeader buf) = ofpmtStandard) :
    matchEnd buf = sizeWithoutMatchHeader + ofpmtStandardLength := by
  have notOxm : ofpmtStandard ≠ ofpmtOxm := by decide
  rw [matchEnd, standard, if_neg notOxm, if_pos rfl]

private theorem validateInput_of_cutShort (long : unpaddedSizeWithMatchHeader ≤ Header.length buf)
    (aligned : address % 8 = 0) (cut : CutShort version buf) :
    validateInput version address buf = true := by
  obtain ⟨old, standard, stated, short⟩ := cut
  have offset : instructionsOffset buf = 136 := by
    rw [instructionsOffset, Match.Header.paddedLength, stated]
    rfl
  have none : instructions buf = [] := by
    by_contra nonempty
    have within := instructions_within nonempty
    have : sizeWithoutMatchHeader + ofpmtStandardLength = 136 := rfl
    omega
  have size : sizeWithoutMatchHeader = 48 := rfl
  have least : unpaddedSizeWithMatchHeader = 52 := rfl
  refine validateInput_iff.mpr ⟨long, ?_, ?_⟩
  · refine Match.Header.validateInput_eq_ok_iff.mpr ⟨by omega, by omega, .inl ?_⟩
    exact ⟨old, standard, stated⟩
  · rw [none, offset]
    have whole : (address + 136) % 8 = 0 := by omega
    simp [InstructionRange.validateInput, InstructionRange.instructionLayout,
      ElementLayout.isProtocolRangeValid, ElementLayout.checkLoop, ElementLayout.items,
      ElementLayout.itemsLoop, whole]

private theorem inBounds_of_validateInput (whole : ¬ CutShort version buf)
    (valid : validateInput version address buf = true) : InBounds buf := by
  obtain ⟨long, ok, -⟩ := validateInput_iff.mp valid
  refine ⟨?_, instructions_within⟩
  obtain ⟨-, -, standard | oxm⟩ := Match.Header.validateInput_eq_ok_iff.mp ok
  · obtain ⟨old, standard, stated⟩ := standard
    rw [matchEnd_of_standard standard]
    by_contra short
    exact whole ⟨old, standard, stated, by omega⟩
  · obtain ⟨type, -, room, -⟩ := oxm
    rw [matchEnd, if_pos type, instructionsOffset]
    have size : sizeWithoutMatchHeader = 48 := rfl
    have least : unpaddedSizeWithMatchHeader = 52 := rfl
    omega

/-- What an accepted flow modification refers to lies in the message, except in one case:
a version before 4 announces a standard match and the message ends before the match does. -/
theorem inBounds_iff (version address : Nat) (buf : Bytes) :
    (validateInput version address buf = true → InBounds buf) ↔
      ¬ (unpaddedSizeWithMatchHeader ≤ Header.length buf ∧ address % 8 = 0 ∧
        CutShort version buf) := by
  constructor
  · rintro bounds ⟨long, aligned, cut⟩
    have within := (bounds (validateInput_of_cutShort long aligned cut)).1
    rw [matchEnd_of_standard cut.2.1] at within
    exact absurd within (Nat.not_le_of_lt cut.2.2.2)
  · intro whole valid
    refine inBounds_of_validateInput ?_ valid
    intro cut
    obtain ⟨long, ok, -⟩ := validateInput_iff.mp valid
    have aligned := (Match.Header.validateInput_eq_ok_iff.mp ok).2.1
    have size : sizeWithoutMatchHeader = 48 := rfl
    exact whole ⟨long, by omega, cut⟩

def headlessFlowMod : Bytes :=
  [2, 14, 0, 56] ++ List.replicate 44 0 ++ [0, 0, 0, 88, 0, 0, 0, 0]

theorem accepts_match_out_of_bounds :
    headlessFlowMod.length = Header.length headlessFlowMod ∧
      validateInput 2 0 headlessFlowMod = true ∧ ¬ InBounds headlessFlowMod := by
  decide +kernel

end Libofp.Messages.FlowMod
