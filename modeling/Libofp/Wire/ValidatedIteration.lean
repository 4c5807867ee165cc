/- GID: Libofp/Wire/ValidatedIteration
   digest: An iterator over a validated range of elements stops exactly at its end. -/

import Libofp.Wire.ProtocolRange

set_option autoImplicit false

namespace Libofp.Wire.ValidatedIteration

open Octets.ByteRange Base.Run ProtocolRange ProtocolRange.ElementLayout

section

variable (L : ElementLayout)

/-- `while (len > 0)` in `ProtocolRangeItemCount`. An element that does not fit ends the
loop. A turn consumes a byte at least, so as many turns as bytes are enough. -/
def countLoop : Nat → Bytes → Nat
  | 0, _ => 0
  | turns + 1, data =>
    if data.isEmpty then 0
    else
      -- The sizes are clamped from below as those of an iterator are.
      let jumpSize := L.jumpSize (L.itemSize data)
      if jumpSize > data.length then 0 else countLoop turns (data.drop jumpSize) + 1

def protocolRangeItemCount (data : Bytes) : Nat :=
  match L.sizeField with
  | .fixed => data.length / L.elementSize
  | _ => countLoop L data.length data

end

section

variable (L : ElementLayout) (range : Bytes)

/-- `ProtocolIterator::size` at a position of the range. -/
def sizeAt (pos : Nat) : Nat := L.itemSize (range.drop pos)

/-- `ProtocolIterator::operator++`. -/
def increment (pos : Nat) : Nat := pos + L.jumpSize (sizeAt L range pos)

/-- Where an iterator that starts at `begin()` stands after some steps. -/
def position (steps : Nat) : Nat := (increment L range)^[steps] 0

end

/-- The layouts that the library's element types have: a size field at an offset inside an
element that is padded to 8 bytes, one at offset 2 in elements of whole words, the two sizes
of an `OXMID`, and elements of one size. -/
inductive Supported : ElementLayout → Prop
  | padded {size offset : Nat} (known : offset ∈ [0, 2, 4, 8]) (word : 4 ≤ size)
      (inside : offset + 2 ≤ size) : Supported ⟨size, .at offset, 8⟩
  | words {size : Nat} : Supported ⟨size, .at 2, 4⟩
  | conditional {size : Nat} : Supported ⟨size, .conditional, 4⟩
  | fixed {size : Nat} (positive : 0 < size) (units : size % 8 = 0) : Supported ⟨size, .fixed, 8⟩

inductive ElemType where
  | action
  | actionID
  | bucket
  | helloElement
  | instruction
  | instructionID
  | meterBand
  | oxmID
  | packetCounter
  | port
  | property
  | queue
  | queueDesc
  | queueV1
  | tableDesc
  deriving DecidableEq, Repr

/-- `sizeof(ElemType)`, `ProtocolIteratorSizeOffset` and `ProtocolIteratorAlignment`. -/
def ElemType.layout : ElemType → ElementLayout
  | action => ⟨4, .at 2, 8⟩
  | actionID => ⟨8, .at 2, 4⟩
  | bucket => ⟨16, .at 0, 8⟩
  | helloElement => ⟨4, .at 2, 8⟩
  | instruction => ⟨4, .at 2, 8⟩
  | instructionID => ⟨8, .at 2, 4⟩
  | meterBand => ⟨4, .at 2, 8⟩
  | oxmID => ⟨8, .conditional, 4⟩
  | packetCounter => ⟨16, .fixed, 8⟩
  | port => ⟨40, .at 4, 8⟩
  | property => ⟨4, .at 2, 8⟩
  | queue => ⟨16, .at 8, 8⟩
  | queueDesc => ⟨16, .at 8, 8⟩
  | queueV1 => ⟨8, .at 4, 8⟩
  | tableDesc => ⟨8, .at 0, 8⟩

private theorem supported_layout (type : ElemType) : Supported type.layout := by
  cases type with
  | actionID => exact .words
  | instructionID => exact .words
  | oxmID => exact .conditional
  | packetCounter => exact .fixed (by omega) (by omega)
  | _ => exact .padded (by decide) (by omega) (by omega)

section

variable {L : ElementLayout} {data : Bytes} {elemSize : Nat}

section

variable (supported : Supported L)

include supported

private theorem itemSize_of_accepted (accepted : L.Accepted data elemSize) :
    L.itemSize data = elemSize := by
  have read := accepted.read
  have word := accepted.word
  have least := accepted.least
  cases supported with
  | @padded size offset known four inside =>
    simp only [readSize, itemSize, forall_const] at read least ⊢
    split at read
    · cases read
    · cases read
      omega
  | words =>
    simp only [readSize, itemSize] at read ⊢
    split at read
    · cases read
    · cases read
      omega
  | conditional => exact Option.some.inj read
  | fixed positive units => exact Option.some.inj read

theorem jump_pos (data : Bytes) : 0 < L.jumpSize (L.itemSize data) := by
  have bound := le_jumpSize L (L.itemSize data)
  have positive : 0 < L.itemSize data := by
    cases supported with
    | padded known four inside =>
      simp only [itemSize]
      omega
    | words =>
      simp only [itemSize]
      omega
    | conditional =>
      simp only [itemSize]
      split <;> omega
    | fixed positive units => exact positive
  omega

private theorem countLoop_fuel {n m : Nat} (hn : data.length ≤ n)
    (hm : data.length ≤ m) : countLoop L n data = countLoop L m data := by
  refine loop_eq_of_length_le (fun n m => ?_) (fun n m data nonempty ih => ?_) hn hm
  · cases n <;> cases m <;> rfl
  · have step := jump_pos supported data
    have ahead := List.length_pos_of_ne_nil nonempty
    simp only [countLoop]
    rw [ih _ (by rw [List.length_drop]; omega)]

private theorem countLoop_of_fits (nonempty : data ≠ [])
    (fits : L.jumpSize (L.itemSize data) ≤ data.length) :
    countLoop L data.length data =
      countLoop L (data.drop (L.jumpSize (L.itemSize data))).length
        (data.drop (L.jumpSize (L.itemSize data))) + 1 := by
  obtain ⟨byte, rest, rfl⟩ := List.exists_cons_of_ne_nil nonempty
  have ahead := jump_pos supported (byte :: rest)
  have more : ¬ (byte :: rest).isEmpty := by simp
  rw [List.length_cons, countLoop, if_neg more]
  rw [if_neg (by omega)]
  refine congrArg (· + 1) (countLoop_fuel supported ?_ (Nat.le_refl _))
  rw [List.length_drop, List.length_cons]
  omega

end

end

section

variable {L : ElementLayout} {range : Bytes}

/-- An iterator over the whole range: it stops at the end after as many steps as there are
elements, and each element that it visits lies in the range. -/
def IteratesExactly (L : ElementLayout) (range : Bytes) : Prop :=
  position L range (protocolRangeItemCount L range) = range.length ∧
    ∀ k < protocolRangeItemCount L range, position L range k < range.length ∧
      position L range k + sizeAt L range (position L range k) ≤ range.length

theorem step_of_accepts (supported : Supported L) {p : Nat} (accepts : L.Accepts (range.drop p))
    (ahead : p < range.length) :
    p < increment L range p ∧ increment L range p ≤ range.length ∧
      L.Accepts (range.drop (increment L range p)) ∧
      countLoop L (range.drop p).length (range.drop p) =
        countLoop L (range.drop (increment L range p)).length
          (range.drop (increment L range p)) + 1 := by
  have nonempty : range.drop p ≠ [] := by
    rw [ne_eq, List.drop_eq_nil_iff]
    omega
  obtain ⟨jump, check, later⟩ := accepts.cons nonempty
  obtain ⟨elemSize, accepted, rfl⟩ := checkElement_eq_some_iff.mp check
  have size := itemSize_of_accepted supported accepted
  have forward := jump_pos supported (range.drop p)
  have inside := accepted.inside
  have next : increment L range p = p + L.jumpSize elemSize := by
    rw [increment, sizeAt, size]
  have count := countLoop_of_fits supported nonempty (by rw [size]; exact inside)
  rw [size] at forward count
  rw [List.drop_drop, ← next] at later count
  rw [List.length_drop] at inside
  exact ⟨by omega, by omega, later, count⟩

private theorem inside_of_accepts (supported : Supported L) {p : Nat}
    (accepts : L.Accepts (range.drop p)) (ahead : p < range.length) :
    p + sizeAt L range p ≤ range.length := by
  have step := step_of_accepts supported accepts ahead
  have bound := le_jumpSize L (sizeAt L range p)
  rw [increment] at step
  omega

private theorem iterates_of_accepts (supported : Supported L) (moving : L.sizeField ≠ .fixed)
    (accepts : L.Accepts range) : IteratesExactly L range := by
  have count : protocolRangeItemCount L range =
      countLoop L (range.drop 0).length (range.drop 0) := by
    rw [protocolRangeItemCount, List.drop_zero]
    split
    · contradiction
    · rfl
  have last : countLoop L (range.drop range.length).length (range.drop range.length) = 0 := by
    rw [List.drop_length]
    rfl
  have steps (p : Nat) (accepts : L.Accepts (range.drop p)) (ahead : p < range.length) :=
    step_of_accepts supported accepts ahead
  have reaches := iterate_reaches steps last (Nat.zero_le _) (by rwa [List.drop_zero])
  rw [← count] at reaches
  refine ⟨reaches.1, fun k early => ?_⟩
  obtain ⟨before, kept⟩ := reaches.2 k early
  exact ⟨before, inside_of_accepts supported kept before⟩

private theorem iterates_of_fixed {size : Nat} (positive : 0 < size) (units : size % 8 = 0)
    (whole : range.length % size = 0) : IteratesExactly ⟨size, .fixed, 8⟩ range := by
  have next (p : Nat) : increment ⟨size, .fixed, 8⟩ range p = p + size :=
    congrArg (p + ·) (padLength_of_mod units)
  obtain ⟨count, total⟩ := Nat.dvd_of_mod_eq_zero whole
  have steps (p : Nat) (elements : ∃ k ≤ count, p = size * k) (ahead : p < range.length) :
      p < increment ⟨size, .fixed, 8⟩ range p ∧
        increment ⟨size, .fixed, 8⟩ range p ≤ range.length ∧
        (∃ k ≤ count, increment ⟨size, .fixed, 8⟩ range p = size * k) ∧
        (range.length - p) / size =
          (range.length - increment ⟨size, .fixed, 8⟩ range p) / size + 1 := by
    obtain ⟨k, le, rfl⟩ := elements
    have lt : k < count := by
      rw [total] at ahead
      exact Nat.lt_of_mul_lt_mul_left ahead
    have succ : size * k + size = size * (k + 1) := rfl
    have bound : size * (k + 1) ≤ size * count := Nat.mul_le_mul_left size lt
    rw [next, succ, total, ← Nat.mul_sub, ← Nat.mul_sub, Nat.mul_div_cancel_left _ positive,
      Nat.mul_div_cancel_left _ positive]
    exact ⟨by omega, bound, ⟨k + 1, lt, rfl⟩, by omega⟩
  have last : (range.length - range.length) / size = 0 := by rw [Nat.sub_self, Nat.zero_div]
  have reaches := iterate_reaches steps last (Nat.zero_le _) ⟨0, Nat.zero_le _, rfl⟩
  refine ⟨reaches.1, fun k early => ?_⟩
  obtain ⟨before, element⟩ := reaches.2 k early
  have step := steps _ element before
  rw [next] at step
  exact ⟨before, step.2.1⟩

end

/-- A range that the validation accepts is iterated exactly. -/
theorem validated_iterates (L : ElementLayout) (supported : Supported L) (address : Nat)
    (range : Bytes) (valid : L.isProtocolRangeValid address range = true) :
    IteratesExactly L range := by
  by_cases moving : L.sizeField = .fixed
  · cases supported with
    | fixed positive units =>
      exact iterates_of_fixed positive units (by simpa [isProtocolRangeValid] using valid)
    | _ => cases moving
  · refine iterates_of_accepts supported moving ?_
    rw [isProtocolRangeValid] at valid
    split at valid
    · contradiction
    · exact (Bool.and_eq_true_iff.mp valid).2

/-- Two buckets, the second with an action. -/
theorem validated_iterates_buckets :
    let range : Bytes := [0, 16, 0, 1, 0, 0, 0, 0, 0, 0, 0, 0, 0, 0, 0, 0,
      0, 24, 0, 2, 0, 0, 0, 0, 0, 0, 0, 0, 0, 0, 0, 0, 0, 25, 0, 8, 0, 0, 0, 0]
    ElemType.bucket.layout.isProtocolRangeValid 4096 range = true ∧
      protocolRangeItemCount ElemType.bucket.layout range = 2 ∧
      IteratesExactly ElemType.bucket.layout range := by
  intro range
  have valid : ElemType.bucket.layout.isProtocolRangeValid 4096 range = true := by decide
  exact ⟨valid, by decide, validated_iterates _ (supported_layout .bucket) 4096 range valid⟩

end Libofp.Wire.ValidatedIteration
