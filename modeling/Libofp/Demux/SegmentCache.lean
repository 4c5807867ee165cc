/- GID: Libofp/Demux/SegmentCache
   digest: TCP segments waiting for reassembly, stored, coalesced and drained. -/

import Libofp.Octets.ByteRange
import Libofp.Base.SerialSpace

/-!
The cache holds segments `[begin, end)` numbered by 32-bit TCP sequence numbers.
The loop of `store` visits the cached segments from the front and stops at the
first one that the new segment meets; it is the recursion over the cached list.
Assertions compile to nothing in a release build, so no step depends on one.
-/

set_option autoImplicit false

namespace Libofp.Demux.SegmentCache

open Octets.ByteRange Base.SerialSpace

abbrev Seq := BitVec 32

/-- `UInt32_narrow_cast` of a buffer size. -/
def narrow (size : Nat) : Seq := BitVec.ofNat 32 size

structure Segment where
  end_ : Seq
  final_ : Bool
  data_ : Bytes
  deriving DecidableEq

namespace Segment

def begin (seg : Segment) : Seq := seg.end_ - narrow seg.data_.length

def append (seg : Segment) (data : Bytes) (final : Bool) : Segment where
  end_ := seg.end_ + narrow data.length
  final_ := final
  data_ := seg.data_ ++ data

def prepend (seg : Segment) (data : Bytes) : Segment :=
  { seg with data_ := data ++ seg.data_ }

def consume (seg : Segment) (len : Nat) : Segment :=
  { seg with data_ := seg.data_.drop len }

def lessThan (lhs rhs : Seq) : Bool :=
  if lhs < rhs then rhs - lhs < 0x80000000#32
  else if rhs < lhs then 0x80000000#32 < lhs - rhs
  else false

end Segment

open Segment

/-- Repair the segment at the front after it has grown: only the segment that
follows it is inspected. -/
def update (seg : Segment) : List Segment → List Segment
  | [] => [seg]
  | next :: rest =>
      if seg.end_ = next.begin then seg.append next.data_ next.final_ :: rest
      else if lessThan next.begin seg.end_ then
        seg.append (safeByteRange next.data_ (seg.end_ - next.begin).toNat) next.final_ :: rest
      else seg :: next :: rest

/-- Put a segment in front; a final segment clears out the remaining ones. -/
def insert (seg : Segment) (rest : List Segment) : List Segment :=
  if seg.final_ then [seg] else seg :: rest

/-- The new segment overlaps the cached segment `seg`: its bytes before `seg` are
prepended and its bytes after `seg` are appended, cached bytes are kept. -/
def overlap (new seg : Segment) (rest : List Segment) : List Segment :=
  let grown :=
    if lessThan new.begin seg.begin then
      let newData := new.data_.take (min new.data_.length (seg.begin - new.begin).toNat)
      if newData.isEmpty then seg else seg.prepend newData
    else seg
  let newData := safeByteRange new.data_ (grown.end_ - new.begin).toNat
  if newData.isEmpty then grown :: rest else update (grown.append newData new.final_) rest

/-- The search loop of `SegmentCache::store`. -/
def storeLoop (new : Segment) : List Segment → List Segment
  | [] => [new]
  | seg :: rest =>
      if new.begin = seg.end_ then
        if seg.final_ then seg :: rest
        else update (seg.append new.data_ new.final_) rest
      else if new.end_ = seg.begin then
        if new.final_ then insert new (seg :: rest)
        else seg.prepend new.data_ :: rest
      else if lessThan new.end_ seg.begin then insert new (seg :: rest)
      else if lessThan new.begin seg.end_ then overlap new seg rest
      else if seg.final_ then seg :: rest
      else seg :: storeLoop new rest

/-- `SegmentCache::store`: an empty segment is ignored unless it is final. -/
def store (segments : List Segment) (end_ : Seq) (data : Bytes) (final : Bool) :
    List Segment :=
  if data.isEmpty && !final then segments
  else storeLoop ⟨end_, final, data⟩ segments

/-- `SegmentCache::consume`: drain bytes from the current segment. -/
def consume (len : Nat) : List Segment → List Segment
  | [] => []
  | seg :: rest => if seg.data_.length ≤ len then rest else seg.consume len :: rest

/-- The two conditions of the code's comparison say that the unsigned difference is
positive and shorter than half of the sequence space. -/
theorem lessThan_iff (lhs rhs : Seq) :
    lessThan lhs rhs = true ↔ lhs ≠ rhs ∧ (rhs - lhs).toNat < 2 ^ 31 := by
  simp only [lessThan, BitVec.lt_def, ne_eq, BitVec.toNat_eq]
  split
  · simp only [decide_eq_true_eq, BitVec.toNat_sub, BitVec.toNat_ofNat]
    omega
  · split
    · simp only [decide_eq_true_eq, BitVec.toNat_sub, BitVec.toNat_ofNat]
      omega
    · simp only [Bool.false_eq_true, false_iff]
      omega

theorem lessThan_serialAt (s : Seq) {p q : Nat} (hp : p < 2 ^ 31) (hq : q < 2 ^ 31) :
    lessThan (serialAt s p) (serialAt s q) = true ↔ p < q := by
  rw [lessThan_iff, ne_eq, serialAt_eq_iff s (by omega) (by omega)]
  rcases Nat.le_total p q with le | le
  · rw [toNat_serialAt_sub_of_le s le (by omega)]
    omega
  · rcases Nat.eq_or_lt_of_le le with same | lt
    · omega
    · rw [toNat_serialAt_sub_of_lt s lt (by omega)]
      omega

/-- The sequence numbers of the half of the sequence space that begins at `w`. -/
def halfSpace (w : Seq) : Set Seq := { a | ∃ k < 2 ^ 31, a = serialAt w k }

private theorem lessThan_add_right (a b c : Seq) : lessThan (a + c) (b + c) = lessThan a b := by
  rw [Bool.eq_iff_iff, lessThan_iff, lessThan_iff, add_sub_add_right_eq_sub, ne_eq, add_left_inj]

private theorem isStrictTotalOrder_lessThan {w : Seq} {s : Set Seq} (inside : s ⊆ halfSpace w) :
    IsStrictTotalOrder s fun a b => lessThan a.1 b.1 = true where
  trichotomous := by
    rintro ⟨a, ha⟩ ⟨b, hb⟩ notBelow notAbove
    obtain ⟨i, hi, rfl⟩ := inside ha
    obtain ⟨j, hj, rfl⟩ := inside hb
    rw [lessThan_serialAt w hi hj] at notBelow
    rw [lessThan_serialAt w hj hi] at notAbove
    obtain rfl : i = j := by omega
    rfl
  irrefl := by
    rintro ⟨a, _⟩ below
    exact ((lessThan_iff a a).mp below).1 rfl
  trans := by
    rintro ⟨a, ha⟩ ⟨b, hb⟩ ⟨c, hc⟩ first second
    obtain ⟨i, hi, rfl⟩ := inside ha
    obtain ⟨j, hj, rfl⟩ := inside hb
    obtain ⟨k, hk, rfl⟩ := inside hc
    rw [lessThan_serialAt w hi hj] at first
    rw [lessThan_serialAt w hj hk] at second
    exact (lessThan_serialAt w hi hk).mpr (Nat.lt_trans first second)

/-- The comparison of sequence numbers is safe against wrapping: within half of the sequence space,
wherever it begins, it is the order of the positions, and so a strict total order; moving both
numbers does not change it. -/
theorem lessThan_wrapSafe (w : Seq) :
    (∀ i < 2 ^ 31, ∀ j < 2 ^ 31, lessThan (serialAt w i) (serialAt w j) = true ↔ i < j) ∧
      (∀ s ⊆ halfSpace w, IsStrictTotalOrder s fun a b => lessThan a.1 b.1 = true) ∧
      ∀ a b c, lessThan (a + c) (b + c) = lessThan a b := by
  refine ⟨?_, ?_, lessThan_add_right⟩
  · intro i hi j hj
    exact lessThan_serialAt w hi hj
  · intro s inside
    exact isStrictTotalOrder_lessThan inside

end Libofp.Demux.SegmentCache
