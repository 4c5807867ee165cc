/- GID: Libofp/Demux/StreamPieces
   digest: Reassembly over positions of one byte stream, and the code's refinement of it. -/

import Libofp.Base.Slice
import Libofp.Demux.FlowReceive

/-!
A connection carries one byte string `S`. Every segment the peer sends is a slice of
`S`, so a cached segment is a piece `[lo, hi)` of positions. The definitions below
repeat the cache and the receive step over pieces, with natural-number positions in
place of 32-bit sequence numbers. The refinement theorems say that the code, started
on the segments of some pieces, ends on the segments of the pieces computed here, as
long as `S` is shorter than half of the sequence space.
-/

set_option autoImplicit false

namespace Libofp.Demux.StreamPieces

open Octets.ByteRange Base.SerialSpace Base.Slice SegmentCache
open SegmentCache.Segment (lessThan)
open FlowReceive

/-- Positions `[lo, hi)` of a stream of `n` bytes. Only the end of the stream is final. -/
structure Piece (n : Nat) where
  lo : Nat
  hi : Nat
  final : Bool
  ordered : lo ≤ hi
  bounded : hi ≤ n
  ends : final = true → hi = n

variable {n : Nat}

namespace Piece

def reach (p q : Piece n) : Piece n where
  lo := p.lo
  hi := max p.hi q.hi
  final := q.final
  ordered := le_trans p.ordered (le_max_left _ _)
  bounded := max_le p.bounded q.bounded
  ends last := by
    have hp := p.bounded
    have hq := q.ends last
    omega

def lower (p q : Piece n) : Piece n where
  lo := min p.lo q.lo
  hi := p.hi
  final := p.final
  ordered := le_trans (min_le_left _ _) p.ordered
  bounded := p.bounded
  ends := p.ends

def raise (p : Piece n) (c : Nat) : Piece n where
  lo := min (max p.lo c) p.hi
  hi := p.hi
  final := p.final
  ordered := min_le_right _ _
  bounded := p.bounded
  ends := p.ends

def unfinal (p : Piece n) : Piece n :=
  { p with final := false, ends := nofun }

section

variable (p q : Piece n)

@[simp] theorem reach_lo : (p.reach q).lo = p.lo := rfl
@[simp] theorem reach_hi : (p.reach q).hi = max p.hi q.hi := rfl
@[simp] theorem reach_final : (p.reach q).final = q.final := rfl
@[simp] theorem lower_lo : (p.lower q).lo = min p.lo q.lo := rfl
@[simp] theorem lower_hi : (p.lower q).hi = p.hi := rfl
@[simp] theorem lower_final : (p.lower q).final = p.final := rfl

end
@[simp] theorem raise_lo (p : Piece n) (c : Nat) : (p.raise c).lo = min (max p.lo c) p.hi := rfl
@[simp] theorem raise_hi (p : Piece n) (c : Nat) : (p.raise c).hi = p.hi := rfl
@[simp] theorem raise_final (p : Piece n) (c : Nat) : (p.raise c).final = p.final := rfl
@[simp] theorem unfinal_lo (p : Piece n) : p.unfinal.lo = p.lo := rfl
@[simp] theorem unfinal_hi (p : Piece n) : p.unfinal.hi = p.hi := rfl
@[simp] theorem unfinal_final (p : Piece n) : p.unfinal.final = false := rfl

end Piece

def updateAt (p : Piece n) : List (Piece n) → List (Piece n)
  | [] => [p]
  | q :: rest => if q.lo ≤ p.hi then p.reach q :: rest else p :: q :: rest

def insertAt (p : Piece n) (rest : List (Piece n)) : List (Piece n) :=
  if p.final then [p] else p :: rest

def overlapAt (new p : Piece n) (rest : List (Piece n)) : List (Piece n) :=
  if new.hi ≤ p.hi then p.lower new :: rest
  else updateAt ((p.lower new).reach new) rest

def storeLoopAt (new : Piece n) : List (Piece n) → List (Piece n)
  | [] => [new]
  | p :: rest =>
      if new.lo = p.hi then
        if p.final then p :: rest else updateAt (p.reach new) rest
      else if new.hi = p.lo then
        if new.final then insertAt new (p :: rest) else p.lower new :: rest
      else if new.hi < p.lo then insertAt new (p :: rest)
      else if new.lo < p.hi then overlapAt new p rest
      else if p.final then p :: rest
      else p :: storeLoopAt new rest

def storeAt (new : Piece n) (pieces : List (Piece n)) : List (Piece n) :=
  if new.lo = new.hi ∧ new.final = false then pieces else storeLoopAt new pieces

def consumeFront (len : Nat) : List (Piece n) → List (Piece n)
  | [] => []
  | p :: rest => if p.hi ≤ p.lo + len then rest else p.raise (p.lo + len) :: rest

/-- A started flow: the next position to deliver and the pieces in the cache. -/
structure Flow (n : Nat) where
  next : Nat
  finished : Bool
  cache : List (Piece n)
  bounded : next ≤ n

structure Offer (n : Nat) where
  cached : Bool
  piece : Piece n

namespace Flow

def latestAt (st : Flow n) : Option (Offer n) :=
  match st.cache with
  | [] => none
  | p :: _ => if p.lo = st.next then some ⟨true, p⟩ else none

def cachePiece (st : Flow n) (new : Piece n) : Flow n :=
  { st with
    cache := storeAt (new.raise st.next) st.cache
    finished := st.finished || new.final }

def receiveAt (st : Flow n) (new : Piece n) : Flow n × Option (Offer n) :=
  if st.cache.isEmpty && st.finished then (st, none)
  else if st.cache.isEmpty && new.lo == st.next then
    ({ st with finished := st.finished || new.final }, some ⟨false, new⟩)
  else if new.hi ≤ st.next then (st, none)
  else (st.cachePiece new, (st.cachePiece new).latestAt)

def consumeAt (st : Flow n) (offer : Offer n) (len : Nat) : Flow n where
  next := min (st.next + len) offer.piece.hi
  finished := st.finished
  cache :=
    if offer.cached then consumeFront len st.cache
    else if st.next + len < offer.piece.hi then
      storeAt (offer.piece.raise (st.next + len)).unfinal st.cache
    else st.cache
  bounded := le_trans (min_le_right _ _) offer.piece.bounded

def initial : Flow n := ⟨0, false, [], Nat.zero_le n⟩

end Flow

/-- The cached segment that holds a piece of `S`, for the initial sequence number `s0`. -/
def segmentOf (S : Bytes) (s0 : Seq) (p : Piece S.length) : Segment where
  end_ := serialAt s0 p.hi
  final_ := p.final
  data_ := slice S p.lo p.hi

section

variable {S : Bytes} (s0 : Seq)

theorem length_segmentOf (p : Piece S.length) :
    (segmentOf S s0 p).data_.length = p.hi - p.lo :=
  length_slice p.bounded

theorem begin_segmentOf (p : Piece S.length) :
    (segmentOf S s0 p).begin = serialAt s0 p.lo := by
  have ordered := p.ordered
  rw [Segment.begin, length_segmentOf, narrow]
  simp only [segmentOf]
  rw [serialAt_sub s0 (Nat.sub_le _ _)]
  congr 1
  omega

theorem append_segmentOf (p q : Piece S.length) :
    (segmentOf S s0 p).append (slice S p.hi q.hi) q.final = segmentOf S s0 (p.reach q) := by
  have ordered := p.ordered
  rw [Segment.append, narrow, length_slice q.bounded]
  simp only [segmentOf, Piece.reach_lo, Piece.reach_hi, Piece.reach_final, Segment.mk.injEq,
    true_and]
  rw [serialAt_add]
  rcases Nat.le_total p.hi q.hi with le | le
  · rw [Nat.max_eq_right le, slice_append_slice S ordered le, Nat.add_sub_cancel' le]
    exact ⟨rfl, rfl⟩
  · rw [Nat.max_eq_left le, (slice_eq_nil_iff q.bounded).2 le, List.append_nil,
      Nat.sub_eq_zero_of_le le]
    exact ⟨rfl, rfl⟩

theorem prepend_segmentOf (p q : Piece S.length) (h : q.lo ≤ p.lo) :
    (segmentOf S s0 p).prepend (slice S q.lo p.lo) = segmentOf S s0 (p.lower q) := by
  simp only [Segment.prepend, segmentOf, Piece.lower_lo, Piece.lower_hi, Piece.lower_final,
    Nat.min_eq_right h, slice_append_slice S h p.ordered]

private theorem lower_eq_self {p q : Piece n} (h : p.lo ≤ q.lo) : p.lower q = p := by
  simp only [Piece.lower, Nat.min_eq_left h]

private theorem insert_segmentOf (p : Piece S.length) (ps : List (Piece S.length)) :
    SegmentCache.insert (segmentOf S s0 p) (ps.map (segmentOf S s0)) =
      (insertAt p ps).map (segmentOf S s0) := by
  have flag : (segmentOf S s0 p).final_ = p.final := rfl
  cases last : p.final <;> simp [SegmentCache.insert, insertAt, flag, last]

variable (short : S.length < 2 ^ 31)
include short

theorem serialAt_eq_of_le {a b : Nat} (ha : a ≤ S.length) (hb : b ≤ S.length) :
    serialAt s0 a = serialAt s0 b ↔ a = b :=
  serialAt_eq_iff s0 (by omega) (by omega)

theorem lessThan_of_le {a b : Nat} (ha : a ≤ S.length) (hb : b ≤ S.length) :
    lessThan (serialAt s0 a) (serialAt s0 b) = true ↔ a < b :=
  lessThan_serialAt s0 (by omega) (by omega)

theorem toNat_sub_of_le {a b : Nat} (h : a ≤ b) (hb : b ≤ S.length) :
    (serialAt s0 b - serialAt s0 a).toNat = b - a :=
  toNat_serialAt_sub_of_le s0 h (by omega)

theorem update_segmentOf (p : Piece S.length) (ps : List (Piece S.length)) :
    update (segmentOf S s0 p) (ps.map (segmentOf S s0)) =
      (updateAt p ps).map (segmentOf S s0) := by
  cases ps with
  | nil => rfl
  | cons q rest =>
    have hp := p.bounded
    have hq := q.ordered
    have hq' := q.bounded
    simp only [List.map_cons, update, updateAt, begin_segmentOf]
    have meets : (segmentOf S s0 p).end_ = serialAt s0 q.lo ↔ p.hi = q.lo :=
      serialAt_eq_of_le s0 short hp (by omega)
    have overlaps : lessThan (serialAt s0 q.lo) (segmentOf S s0 p).end_ = true ↔ q.lo < p.hi :=
      lessThan_of_le s0 short (by omega) hp
    rw [if_congr meets rfl rfl, if_congr overlaps rfl rfl]
    split
    · rename_i same
      have touching : (segmentOf S s0 q).data_ = slice S p.hi q.hi := by rw [same]; rfl
      rw [touching, if_pos (by omega)]
      exact congrArg (· :: _) (append_segmentOf s0 p q)
    · split
      · have distance : (serialAt s0 p.hi - serialAt s0 q.lo).toNat = p.hi - q.lo :=
          toNat_sub_of_le s0 short (by omega) hp
        have rest_data : safeByteRange (segmentOf S s0 q).data_
            ((segmentOf S s0 p).end_ - serialAt s0 q.lo).toNat = slice S p.hi q.hi := by
          simp only [safeByteRange_eq_drop, segmentOf, distance, drop_slice]
          congr 1
          omega
        rw [rest_data, if_pos (by omega)]
        exact congrArg (· :: _) (append_segmentOf s0 p q)
      · rw [if_neg (by omega)]
        rfl

private theorem overlap_segmentOf (new p : Piece S.length) (ps : List (Piece S.length))
    (above : p.lo < new.hi) (below : new.lo < p.hi) :
    overlap (segmentOf S s0 new) (segmentOf S s0 p) (ps.map (segmentOf S s0)) =
      (overlapAt new p ps).map (segmentOf S s0) := by
  have hp := p.bounded
  have hn := new.bounded
  have before : lessThan (serialAt s0 new.lo) (serialAt s0 p.lo) = true ↔ new.lo < p.lo :=
    lessThan_of_le s0 short (by omega) (by omega)
  have grown :
      (if lessThan (segmentOf S s0 new).begin (segmentOf S s0 p).begin then
        let newData := (segmentOf S s0 new).data_.take (min (segmentOf S s0 new).data_.length
          ((segmentOf S s0 p).begin - (segmentOf S s0 new).begin).toNat)
        if newData.isEmpty then segmentOf S s0 p else (segmentOf S s0 p).prepend newData
      else segmentOf S s0 p) = segmentOf S s0 (p.lower new) := by
    simp only [begin_segmentOf, if_congr before rfl rfl]
    split
    · have front : (segmentOf S s0 new).data_.take (min (segmentOf S s0 new).data_.length
          (serialAt s0 p.lo - serialAt s0 new.lo).toNat) = slice S new.lo p.lo := by
        rw [length_segmentOf, toNat_sub_of_le s0 short (by omega) (by omega),
          Nat.min_eq_right (by omega)]
        simp only [segmentOf]
        rw [take_slice S (by omega), Nat.add_sub_cancel' (by omega)]
      have nonempty : (slice S new.lo p.lo).isEmpty = false := by
        rw [List.isEmpty_eq_false_iff, ne_eq, slice_eq_nil_iff (by omega)]
        omega
      rw [front, nonempty, if_neg (by decide), prepend_segmentOf s0 p new (by omega)]
    · rw [lower_eq_self (by omega)]
  have rest_data : safeByteRange (segmentOf S s0 new).data_
      ((segmentOf S s0 (p.lower new)).end_ - (segmentOf S s0 new).begin).toNat =
        slice S p.hi new.hi := by
    rw [begin_segmentOf]
    simp only [safeByteRange_eq_drop, segmentOf, Piece.lower_hi]
    rw [toNat_sub_of_le s0 short (by omega) hp, drop_slice, Nat.add_sub_cancel' (by omega)]
  have empty : (slice S p.hi new.hi).isEmpty = true ↔ new.hi ≤ p.hi := by
    rw [List.isEmpty_iff, slice_eq_nil_iff hn]
  have appended := append_segmentOf s0 (p.lower new) new
  simp only [overlap, grown, rest_data, overlapAt, if_congr empty rfl rfl]
  split
  · rfl
  · rw [← update_segmentOf s0 short, ← appended]
    rfl

private theorem storeLoop_segmentOf (new : Piece S.length) (ps : List (Piece S.length)) :
    storeLoop (segmentOf S s0 new) (ps.map (segmentOf S s0)) =
      (storeLoopAt new ps).map (segmentOf S s0) := by
  induction ps with
  | nil => rfl
  | cons p rest ih =>
    have hp := p.ordered
    have hp' := p.bounded
    have hn := new.ordered
    have hn' := new.bounded
    have follows : serialAt s0 new.lo = (segmentOf S s0 p).end_ ↔ new.lo = p.hi :=
      serialAt_eq_of_le s0 short (by omega) hp'
    have precedes : (segmentOf S s0 new).end_ = serialAt s0 p.lo ↔ new.hi = p.lo :=
      serialAt_eq_of_le s0 short hn' (by omega)
    have before : lessThan (segmentOf S s0 new).end_ (serialAt s0 p.lo) = true ↔ new.hi < p.lo :=
      lessThan_of_le s0 short hn' (by omega)
    have overlaps : lessThan (serialAt s0 new.lo) (segmentOf S s0 p).end_ = true ↔
        new.lo < p.hi := lessThan_of_le s0 short (by omega) hp'
    have inserted := insert_segmentOf s0 new (p :: rest)
    simp only [List.map_cons] at inserted
    simp only [List.map_cons, storeLoop, storeLoopAt, begin_segmentOf, if_congr follows rfl rfl,
      if_congr precedes rfl rfl, if_congr before rfl rfl, if_congr overlaps rfl rfl, inserted, ih]
    have flag : (segmentOf S s0 p).final_ = p.final := rfl
    have newFlag : (segmentOf S s0 new).final_ = new.final := rfl
    rw [flag, newFlag]
    split
    · rename_i same
      have touching : (segmentOf S s0 new).data_ = slice S p.hi new.hi := by rw [← same]; rfl
      rw [touching, append_segmentOf, update_segmentOf s0 short, apply_ite (List.map _)]
      rfl
    · split
      · rename_i same
        have touching : (segmentOf S s0 new).data_ = slice S new.lo p.lo := by rw [← same]; rfl
        rw [touching, prepend_segmentOf s0 p new (by omega), apply_ite (List.map _)]
        rfl
      · split
        · rfl
        · split
          · exact overlap_segmentOf s0 short new p rest (by omega) (by omega)
          · rw [apply_ite (List.map _)]
            rfl

theorem store_segmentOf (new : Piece S.length) (ps : List (Piece S.length)) :
    store (ps.map (segmentOf S s0)) (serialAt s0 new.hi) (slice S new.lo new.hi) new.final =
      (storeAt new ps).map (segmentOf S s0) := by
  have hn := new.ordered
  have empty : (slice S new.lo new.hi).isEmpty = true ↔ new.lo = new.hi := by
    rw [List.isEmpty_iff, slice_eq_nil_iff new.bounded]
    omega
  have ignored : ((slice S new.lo new.hi).isEmpty && !new.final) = true ↔
      new.lo = new.hi ∧ new.final = false := by
    rw [Bool.and_eq_true, empty, Bool.not_eq_true']
  simp only [store, storeAt, if_congr ignored rfl rfl]
  split
  · rfl
  · exact storeLoop_segmentOf s0 short new ps

end

section

variable (S : Bytes) (s0 : Seq)

def flowOf (st : Flow S.length) : FlowState where
  end_ := serialAt s0 st.next
  started_ := true
  finished_ := st.finished
  cache_ := st.cache.map (segmentOf S s0)

def dataOf (sessionID : UInt64) : Option (Offer S.length) → FlowData
  | none => FlowData.none sessionID
  | some offer =>
      ⟨true, slice S offer.piece.lo offer.piece.hi, sessionID, offer.cached, offer.piece.final⟩

variable {S}

theorem start_flowOf (st : Flow S.length) (begin : Seq) :
    (flowOf S s0 st).start begin = flowOf S s0 st := rfl

theorem start_fresh : ({} : FlowState).start s0 = flowOf S s0 Flow.initial := by
  simp [FlowState.start, flowOf, Flow.initial]

variable (short : S.length < 2 ^ 31)
include short

private theorem latestData_flowOf (st : Flow S.length) (sessionID : UInt64) :
    (flowOf S s0 st).latestData sessionID = dataOf S sessionID st.latestAt := by
  unfold Flow.latestAt
  cases cached : st.cache with
  | nil => simp [FlowState.latestData, flowOf, cached, dataOf]
  | cons p rest =>
    have hp := p.ordered
    have hp' := p.bounded
    have atNext : serialAt s0 p.lo = serialAt s0 st.next ↔ p.lo = st.next :=
      serialAt_eq_of_le s0 short (by omega) st.bounded
    simp only [FlowState.latestData, flowOf, cached, List.map_cons, begin_segmentOf,
      if_congr atNext rfl rfl]
    split <;> rfl

private theorem cacheSegment_flowOf (st : Flow S.length) (new : Piece S.length)
    (fresh : st.next < new.hi) :
    (flowOf S s0 st).cacheSegment (serialAt s0 new.hi) (slice S new.lo new.hi) new.final =
      flowOf S s0 (st.cachePiece new) := by
  have hn := new.ordered
  have hn' := new.bounded
  have before : lessThan (serialAt s0 new.lo) (serialAt s0 st.next) = true ↔
      new.lo < st.next := lessThan_of_le s0 short (by omega) st.bounded
  have newData :
      (if lessThan (serialAt s0 new.lo) (serialAt s0 st.next) then
        safeByteRange (slice S new.lo new.hi)
          (serialAt s0 st.next - serialAt s0 new.lo).toNat
      else slice S new.lo new.hi) = slice S (new.raise st.next).lo new.hi := by
    rw [if_congr before rfl rfl]
    split
    · rw [toNat_sub_of_le s0 short (by omega) st.bounded, safeByteRange_eq_drop, drop_slice]
      congr 1
      simp only [Piece.raise_lo]
      omega
    · congr 1
      simp only [Piece.raise_lo]
      omega
  have stored := store_segmentOf s0 short (new.raise st.next) st.cache
  simp only [Piece.raise_hi, Piece.raise_final] at stored
  have begins : serialAt s0 new.hi - narrow (slice S new.lo new.hi).length =
      serialAt s0 new.lo := begin_segmentOf s0 new
  simp only [FlowState.cacheSegment, flowOf, Flow.cachePiece, begins, newData, stored]

theorem receive_flowOf (st : Flow S.length) (new : Piece S.length) (ts : Timestamp)
    (sessionID : UInt64) (lastSeen : Timestamp) :
    ((flowOf S s0 st).receive ts (serialAt s0 new.hi) (slice S new.lo new.hi) sessionID
        new.final lastSeen).state = flowOf S s0 (st.receiveAt new).1 ∧
      ((flowOf S s0 st).receive ts (serialAt s0 new.hi) (slice S new.lo new.hi) sessionID
        new.final lastSeen).flow = dataOf S sessionID (st.receiveAt new).2 := by
  have hn := new.ordered
  have hn' := new.bounded
  have begins : serialAt s0 new.hi - narrow (slice S new.lo new.hi).length =
      serialAt s0 new.lo := begin_segmentOf s0 new
  have inOrder : (serialAt s0 new.lo == (flowOf S s0 st).end_) = (new.lo == st.next) := by
    rw [Bool.eq_iff_iff, beq_iff_eq, beq_iff_eq]
    exact serialAt_eq_of_le s0 short (by omega) st.bounded
  have late : (!lessThan (flowOf S s0 st).end_ (serialAt s0 new.hi)) = true ↔
      new.hi ≤ st.next := by
    rw [Bool.not_eq_true', ← Bool.not_eq_true]
    simp only [flowOf]
    rw [lessThan_of_le s0 short st.bounded hn']
    omega
  have empty : (flowOf S s0 st).cache_.isEmpty = st.cache.isEmpty := by
    simp [flowOf]
  have finished : (flowOf S s0 st).finished_ = st.finished := rfl
  simp only [FlowState.receive, begins, start_flowOf, Flow.receiveAt, inOrder, empty, finished,
    if_congr late rfl rfl]
  split
  · exact ⟨rfl, rfl⟩
  · split
    · exact ⟨rfl, rfl⟩
    · split
      · exact ⟨rfl, rfl⟩
      · simp [cacheSegment_flowOf s0 short st new (by omega),
          latestData_flowOf s0 short (st.cachePiece new)]

omit short in
private theorem consumeFront_segmentOf (len : Nat) (ps : List (Piece S.length)) :
    SegmentCache.consume len (ps.map (segmentOf S s0)) =
      (consumeFront len ps).map (segmentOf S s0) := by
  cases ps with
  | nil => rfl
  | cons p rest =>
    have whole : (segmentOf S s0 p).data_.length ≤ len ↔ p.hi ≤ p.lo + len := by
      rw [length_segmentOf]
      omega
    simp only [List.map_cons, SegmentCache.consume, consumeFront, if_congr whole rfl rfl]
    split
    · rfl
    · have start : (p.raise (p.lo + len)).lo = p.lo + len := by
        simp only [Piece.raise_lo]
        omega
      simp only [List.map_cons, Segment.consume, segmentOf, drop_slice, start, Piece.raise_hi,
        Piece.raise_final]

theorem consume_flowOf (st : Flow S.length) (offer : Offer S.length) (sessionID : UInt64)
    (len : Nat) (current : offer.piece.lo = st.next) (le : len ≤ offer.piece.hi - offer.piece.lo) :
    (flowOf S s0 st).consume (dataOf S sessionID (some offer)) len =
      flowOf S s0 (st.consumeAt offer len) := by
  have ho := offer.piece.ordered
  have ho' := offer.piece.bounded
  have moved : (flowOf S s0 st).end_ + narrow len =
      serialAt s0 (st.consumeAt offer len).next := by
    have inside : (st.consumeAt offer len).next = st.next + len := by
      simp only [Flow.consumeAt]
      omega
    rw [inside]
    exact serialAt_add s0 st.next len
  have partly : len < (slice S offer.piece.lo offer.piece.hi).length ↔
      st.next + len < offer.piece.hi := by
    rw [length_slice ho']
    omega
  simp only [FlowState.consume, dataOf, Bool.not_true, Bool.false_eq_true, if_false, moved,
    if_congr partly rfl rfl]
  cases cached : offer.cached with
  | true =>
    simp [flowOf, Flow.consumeAt, cached, consumeFront_segmentOf]
  | false =>
    simp only [Bool.false_eq_true, if_false]
    split
    · rename_i inside
      have left : (slice S offer.piece.lo offer.piece.hi).drop len =
          slice S (offer.piece.raise (st.next + len)).lo offer.piece.hi := by
        rw [drop_slice]
        congr 1
        simp only [Piece.raise_lo]
        omega
      have ends : serialAt s0 (st.consumeAt offer len).next +
          narrow (slice S (offer.piece.raise (st.next + len)).lo offer.piece.hi).length =
            serialAt s0 offer.piece.hi := by
        rw [length_slice ho', narrow, serialAt_add]
        congr 1
        simp only [Flow.consumeAt, Piece.raise_lo]
        omega
      have stored := store_segmentOf s0 short
        (offer.piece.raise (st.next + len)).unfinal st.cache
      simp only [Piece.unfinal_lo, Piece.unfinal_hi, Piece.unfinal_final, Piece.raise_hi] at stored
      rw [left, ends]
      simp only [flowOf, Flow.consumeAt, cached, stored, if_pos inside, Bool.false_eq_true,
        if_false]
    · rename_i outside
      simp only [flowOf, Flow.consumeAt, cached, if_neg outside, Bool.false_eq_true, if_false]

end

end Libofp.Demux.StreamPieces
