/- GID: Libofp/Wire/ProtocolRange
   digest: Sequences of elements that carry their own size: their validation and their items. -/

import Libofp.Base.Run
import Libofp.Octets.BigEndian

set_option autoImplicit false

namespace Libofp.Wire.ProtocolRange

open Octets.ByteRange Octets.BigEndian Base.Run

/-- Where the size of an element comes from: it is always the same, it follows from the
first two bytes, or it is a 16-bit field at an offset. -/
inductive SizeField where
  | fixed
  | conditional
  | at (offset : Nat)
  deriving DecidableEq, Repr

/-- `ElemType` as the iterator knows it: its size, its size field and its alignment. -/
structure ElementLayout where
  elementSize : Nat
  sizeField : SizeField
  alignment : Nat
  deriving DecidableEq, Repr

namespace ElementLayout

variable (L : ElementLayout)

def readSize (data : Bytes) : Option Nat :=
  match L.sizeField with
  | .fixed => some L.elementSize
  | .conditional => some (if big16 data 0 = 0xffff then 8 else 4)
  | .at offset => if offset + 2 > data.length then none else some (big16 data offset)

def jumpSize (size : Nat) : Nat := if L.alignment = 8 then padLength size else size

/-- The checks that one turn of the validation loop makes: how far the first element
reaches, or nothing when the range is rejected. -/
def checkElement (data : Bytes) : Option Nat :=
  match L.readSize data with
  | none => none
  | some elemSize =>
    if elemSize < 4 then none
    else if elemSize < L.elementSize ∧ L.alignment = 8 then none
    else if L.alignment ≠ 8 ∧ elemSize % L.alignment ≠ 0 then none
    else if L.jumpSize elemSize > data.length then none
    else some (L.jumpSize elemSize)

/-- `while (len > 0)`. A turn consumes at least four bytes, so as many turns as bytes are
enough. -/
def checkLoop : Nat → Bytes → Bool
  | 0, data => data.isEmpty
  | turns + 1, data =>
    if data.isEmpty then true
    else match L.checkElement data with
      | none => false
      | some jump => checkLoop turns (data.drop jump)

/-- `IsProtocolRangeValid` of the bytes that lie at an address. -/
def isProtocolRangeValid (address : Nat) (data : Bytes) : Bool :=
  match L.sizeField with
  | .fixed => data.length % L.elementSize == 0
  | _ => data.length % L.alignment == 0 && address % L.alignment == 0 &&
      L.checkLoop data.length data

/-- `ProtocolElement::size`: the size of the element that an iterator stands at. -/
def itemSize (data : Bytes) : Nat :=
  match L.sizeField with
  | .fixed => L.elementSize
  | .conditional => if big16 data 0 = 0xffff then 8 else 4
  | .at offset => max (2 + offset) (big16 data offset)

/-- `for (auto &item : range)`: the bytes of each element with its padding. -/
def itemsLoop : Nat → Bytes → List Bytes
  | 0, _ => []
  | turns + 1, data =>
    if data.isEmpty then []
    else
      let jump := L.jumpSize (L.itemSize data)
      data.take jump :: itemsLoop turns (data.drop jump)

def items (data : Bytes) : List Bytes := L.itemsLoop data.length data

structure Accepted (L : ElementLayout) (data : Bytes) (elemSize : Nat) : Prop where
  read : L.readSize data = some elemSize
  word : 4 ≤ elemSize
  least : L.alignment = 8 → L.elementSize ≤ elemSize
  aligned : L.alignment ≠ 8 → elemSize % L.alignment = 0
  inside : L.jumpSize elemSize ≤ data.length

variable {L : ElementLayout} {data : Bytes}

theorem checkElement_eq_some_iff {jump : Nat} :
    L.checkElement data = some jump ↔
      ∃ elemSize, L.Accepted data elemSize ∧ L.jumpSize elemSize = jump := by
  rw [checkElement]
  cases read : L.readSize data with
  | none =>
    refine ⟨nofun, ?_⟩
    rintro ⟨elemSize, accepted, -⟩
    exact absurd (read.symm.trans accepted.read) (by simp)
  | some elemSize =>
    dsimp only
    constructor
    · intro found
      split_ifs at found with small short uneven long
      refine ⟨elemSize, ⟨read, by omega, by omega, by tauto, by omega⟩, Option.some.inj found⟩
    · rintro ⟨size, accepted, rfl⟩
      obtain rfl : elemSize = size := Option.some.inj (read.symm.trans accepted.read)
      have word := accepted.word
      have least := accepted.least
      have inside := accepted.inside
      rw [if_neg (by omega), if_neg (by omega), if_neg (by have := accepted.aligned; tauto),
        if_neg (by omega)]

theorem le_jumpSize (L : ElementLayout) (size : Nat) : size ≤ L.jumpSize size := by
  rw [jumpSize]
  split
  · exact le_padLength size
  · exact Nat.le_refl size

theorem checkElement_bounds {jump : Nat}
    (h : L.checkElement data = some jump) : 4 ≤ jump ∧ jump ≤ data.length := by
  obtain ⟨elemSize, accepted, rfl⟩ := checkElement_eq_some_iff.mp h
  exact ⟨accepted.word.trans (le_jumpSize L elemSize), accepted.inside⟩

theorem checkLoop_fuel {n m : Nat} (hn : data.length ≤ n)
    (hm : data.length ≤ m) : L.checkLoop n data = L.checkLoop m data := by
  refine loop_eq_of_length_le (fun n m => ?_) (fun n m data _ ih => ?_) hn hm
  · cases n <;> cases m <;> rfl
  · simp only [checkLoop]
    split
    · rfl
    · cases h : L.checkElement data with
      | none => rfl
      | some jump =>
        have progress := checkElement_bounds h
        exact ih _ (by rw [List.length_drop]; omega)

def Accepts (L : ElementLayout) (data : Bytes) : Prop := L.checkLoop data.length data = true

theorem accepts_nil : L.Accepts [] := rfl

theorem Accepts.cons (h : L.Accepts data) (nonempty : data ≠ []) :
    ∃ jump, L.checkElement data = some jump ∧ L.Accepts (data.drop jump) := by
  obtain ⟨byte, rest, rfl⟩ := List.exists_cons_of_ne_nil nonempty
  simp only [Accepts, List.length_cons, checkLoop, List.isEmpty_cons] at h
  cases found : L.checkElement (byte :: rest) with
  | none => simp [found] at h
  | some jump =>
    have progress := checkElement_bounds found
    simp only [found, if_neg (Bool.false_ne_true)] at h
    refine ⟨jump, rfl, ?_⟩
    unfold Accepts
    rwa [checkLoop_fuel (Nat.le_refl _) (m := rest.length)
      (by rw [List.length_drop, List.length_cons]; omega)]

private theorem itemsLoop_fuel (progress : ∀ data, 0 < L.jumpSize (L.itemSize data)) {n m : Nat}
    (hn : data.length ≤ n) (hm : data.length ≤ m) : L.itemsLoop n data = L.itemsLoop m data := by
  refine loop_eq_of_length_le (fun n m => ?_) (fun n m data nonempty ih => ?_) hn hm
  · cases n <;> cases m <;> rfl
  · have step := progress data
    have ahead := List.length_pos_of_ne_nil nonempty
    simp only [itemsLoop]
    rw [ih _ (by rw [List.length_drop]; omega)]

theorem items_nil : L.items [] = [] := rfl

theorem items_cons (progress : ∀ data, 0 < L.jumpSize (L.itemSize data)) (nonempty : data ≠ []) :
    L.items data = data.take (L.jumpSize (L.itemSize data)) ::
      L.items (data.drop (L.jumpSize (L.itemSize data))) := by
  obtain ⟨byte, rest, rfl⟩ := List.exists_cons_of_ne_nil nonempty
  have step := progress (byte :: rest)
  refine congrArg _ (itemsLoop_fuel progress ?_ (Nat.le_refl _))
  rw [List.length_drop, List.length_cons]
  omega

end ElementLayout

end Libofp.Wire.ProtocolRange
