/- GID: Libofp/Demux/Delivery
   digest: A receiving session of one stream; what it delivers is a prefix of the stream. -/

import Libofp.Demux.StreamPieces

/-!
A session feeds slices of one byte string into a fresh `FlowState`, in any order and
with any repetition, and consumes part or all of whatever data is returned. The
session of the code is related to a session over positions, and the relation already
says what has been delivered: the bytes before the next position.
-/

set_option autoImplicit false

namespace Libofp.Demux.Delivery

open Octets.ByteRange Base.SerialSpace Base.Slice SegmentCache FlowReceive
open StreamPieces

/-- One call of `receive` with a slice of a stream of `n` bytes, and the number of
bytes that the caller wants to take of the data it gets back. -/
structure Arrival (n : Nat) where
  ts : Timestamp
  piece : Piece n
  take : Nat

/-- The flow, what has been consumed of it, and every returned `FlowData` together
with the sequence number of its first byte. -/
structure Session where
  flow : FlowState := {}
  lastSeen : Timestamp := ⟨0, 0⟩
  consumed : Bytes := []
  returned : List (Seq × FlowData) := []

/-- Receive a slice and consume the returned data once, unless it is empty. -/
def Session.arrive (S : Bytes) (s0 : Seq) (sessionID : UInt64) (s : Session)
    (x : Arrival S.length) : Session :=
  let r := s.flow.receive x.ts (serialAt s0 x.piece.hi) (slice S x.piece.lo x.piece.hi)
    sessionID x.piece.final s.lastSeen
  let len := min x.take r.flow.data_.length
  { flow := if r.flow.data_.isEmpty then r.state else r.state.consume r.flow len
    lastSeen := r.lastSeen
    consumed := s.consumed ++ r.flow.data_.take len
    returned := s.returned ++ [(r.state.end_, r.flow)] }

/-- The session of a fresh `FlowState` over a sequence of calls. -/
def session (S : Bytes) (s0 : Seq) (sessionID : UInt64) (arrivals : List (Arrival S.length)) :
    Session :=
  arrivals.foldl (Session.arrive S s0 sessionID) {}

variable {n : Nat}

def takeOffer (st : Flow n) (take : Nat) : Option (Offer n) → Flow n
  | none => st
  | some offer =>
      if offer.piece.lo = offer.piece.hi then st
      else st.consumeAt offer (min take (offer.piece.hi - offer.piece.lo))

def offersFinal : Option (Offer n) → Bool
  | none => false
  | some offer => offer.piece.final

/-- The flow, and whether data with the final flag has been returned. -/
structure Progress (n : Nat) where
  flow : Flow n
  ended : Bool

def Progress.arriveAt (st : Progress n) (x : Arrival n) : Progress n where
  flow := takeOffer (st.flow.receiveAt x.piece).1 x.take (st.flow.receiveAt x.piece).2
  ended := st.ended || offersFinal (st.flow.receiveAt x.piece).2

def Progress.initial : Progress n := ⟨Flow.initial, false⟩

def positions (arrivals : List (Arrival n)) : Progress n :=
  arrivals.foldl Progress.arriveAt Progress.initial

theorem receiveAt_next (st : Flow n) (new : Piece n) :
    (st.receiveAt new).1.next = st.next := by
  unfold Flow.receiveAt
  split_ifs <;> rfl

private theorem latestAt_lo {st : Flow n} {offer : Offer n} (h : st.latestAt = some offer) :
    offer.piece.lo = st.next := by
  unfold Flow.latestAt at h
  split at h
  · cases h
  · split at h
    · cases h
      assumption
    · cases h

theorem receiveAt_offer_lo {st : Flow n} {new : Piece n} {offer : Offer n}
    (h : (st.receiveAt new).2 = some offer) : offer.piece.lo = st.next := by
  unfold Flow.receiveAt at h
  split_ifs at h with finished inOrder late
  · cases h
    simp only [Bool.and_eq_true, beq_iff_eq] at inOrder
    exact inOrder.2
  · have begins : offer.piece.lo = (st.cachePiece new).next := latestAt_lo h
    exact begins

def EndReturned (S : Bytes) (s0 : Seq) (s : Session) : Prop :=
  ∃ r ∈ s.returned, r.2.final_ = true ∧
    r.1 + narrow r.2.data_.length = serialAt s0 S.length

/-- The session is at the positions `st` and has delivered the bytes before them. -/
structure Tracks (S : Bytes) (s0 : Seq) (s : Session) (st : Progress S.length) : Prop where
  flow : s.flow = flowOf S s0 st.flow
  consumed : s.consumed = S.take st.flow.next
  ended : st.ended = true → EndReturned S s0 s

section

variable {S : Bytes} (s0 : Seq) (sessionID : UInt64) (short : S.length < 2 ^ 31)
include short

theorem flow_takeOffer (st : Flow S.length) (offer : Option (Offer S.length)) (take : Nat)
    (current : ∀ o, offer = some o → o.piece.lo = st.next) :
    (if (dataOf S sessionID offer).data_.isEmpty then flowOf S s0 st
      else (flowOf S s0 st).consume (dataOf S sessionID offer)
        (min take (dataOf S sessionID offer).data_.length)) =
      flowOf S s0 (takeOffer st take offer) := by
  cases offer with
  | none => rfl
  | some o =>
    have ordered := o.piece.ordered
    have size : (dataOf S sessionID (some o)).data_.length = o.piece.hi - o.piece.lo :=
      length_slice o.piece.bounded
    have empty : (dataOf S sessionID (some o)).data_.isEmpty = true ↔
        o.piece.lo = o.piece.hi := by
      rw [List.isEmpty_iff, ← List.length_eq_zero_iff, size]
      omega
    simp only [if_congr empty rfl rfl, size, takeOffer]
    split
    · rfl
    · exact consume_flowOf s0 short st o sessionID _ (current o rfl) (min_le_right _ _)

omit short in
private theorem consumed_takeOffer (st : Flow S.length) (offer : Option (Offer S.length))
    (take : Nat) (current : ∀ o, offer = some o → o.piece.lo = st.next) :
    S.take st.next ++ (dataOf S sessionID offer).data_.take
        (min take (dataOf S sessionID offer).data_.length) =
      S.take (takeOffer st take offer).next := by
  cases offer with
  | none => simp [dataOf, FlowData.none, takeOffer]
  | some o =>
    have ordered := o.piece.ordered
    have lo := current o rfl
    have size : (dataOf S sessionID (some o)).data_.length = o.piece.hi - o.piece.lo :=
      length_slice o.piece.bounded
    have taken : (dataOf S sessionID (some o)).data_.take
        (min take (o.piece.hi - o.piece.lo)) =
          slice S st.next (st.next + min take (o.piece.hi - o.piece.lo)) := by
      rw [← lo]
      exact take_slice S (by omega)
    have moved : (takeOffer st take (some o)).next =
        st.next + min take (o.piece.hi - o.piece.lo) := by
      simp only [takeOffer]
      split
      · omega
      · simp only [Flow.consumeAt]
        omega
    rw [size, taken, moved, ← slice_zero, ← slice_zero,
      slice_append_slice S (Nat.zero_le _) (Nat.le_add_right _ _)]

omit short in
private theorem dataOf_final (st : Flow S.length) (offer : Option (Offer S.length))
    (current : ∀ o, offer = some o → o.piece.lo = st.next) (final : offersFinal offer = true) :
    (dataOf S sessionID offer).final_ = true ∧
      serialAt s0 st.next + narrow (dataOf S sessionID offer).data_.length =
        serialAt s0 S.length := by
  cases offer with
  | none => cases final
  | some o =>
    refine ⟨final, ?_⟩
    have ordered := o.piece.ordered
    have atEnd := o.piece.ends final
    have lo := current o rfl
    have size : (dataOf S sessionID (some o)).data_.length = o.piece.hi - o.piece.lo :=
      length_slice o.piece.bounded
    rw [size, narrow, serialAt_add]
    congr 1
    omega

theorem tracks_arrive {s : Session} {st : Progress S.length} (x : Arrival S.length)
    (tracks : Tracks S s0 s st) :
    Tracks S s0 (s.arrive S s0 sessionID x) (st.arriveAt x) := by
  obtain ⟨state, data⟩ := receive_flowOf s0 short st.flow x.piece x.ts sessionID s.lastSeen
  have next := receiveAt_next st.flow x.piece
  have current : ∀ o, (st.flow.receiveAt x.piece).2 = some o →
      o.piece.lo = (st.flow.receiveAt x.piece).1.next :=
    fun o h => (receiveAt_offer_lo h).trans next.symm
  have consumed := consumed_takeOffer sessionID _ _ x.take current
  rw [next] at consumed
  constructor
  · simp only [Session.arrive, tracks.flow, state, data]
    exact flow_takeOffer s0 sessionID short _ _ x.take current
  · simp only [Session.arrive, tracks.flow, tracks.consumed, data]
    exact consumed
  · intro ended
    simp only [Session.arrive, EndReturned, tracks.flow, state, data, List.mem_append,
      List.mem_singleton]
    rcases Bool.or_eq_true_iff.1 ended with earlier | now
    · obtain ⟨r, member, final⟩ := tracks.ended earlier
      exact ⟨r, Or.inl member, final⟩
    · exact ⟨_, Or.inr rfl, dataOf_final s0 sessionID _ _ current now⟩

omit short in
theorem arrive_fresh (first : Arrival S.length) (start : first.piece.lo = 0) :
    ({} : Session).arrive S s0 sessionID first =
      ({ flow := flowOf S s0 Flow.initial } : Session).arrive S s0 sessionID first := by
  have begins : serialAt s0 first.piece.hi -
      narrow (slice S first.piece.lo first.piece.hi).length = s0 := by
    have atLo := begin_segmentOf s0 first.piece
    rwa [start, serialAt_zero] at atLo
  simp only [Session.arrive, FlowState.receive, begins, start_flowOf,
    start_fresh (S := S) s0]

private theorem tracks_session (first : Arrival S.length) (rest : List (Arrival S.length))
    (start : first.piece.lo = 0) :
    Tracks S s0 (session S s0 sessionID (first :: rest)) (positions (first :: rest)) := by
  simp only [session, positions, List.foldl_cons, arrive_fresh s0 sessionID first start]
  apply List.foldl_rel
  · exact tracks_arrive s0 sessionID short first ⟨rfl, by simp [Progress.initial, Flow.initial],
      nofun⟩
  · intro x _ s st tracks
    exact tracks_arrive s0 sessionID short x tracks

end

/-- Whatever slices arrive and however much of the returned data is consumed, the
consumed bytes are a prefix of the stream and `end_` is the serial of its length. -/
theorem consumed_eq_take (S : Bytes) (short : S.length < 2 ^ 31) (s0 : Seq) (sessionID : UInt64)
    (first : Arrival S.length) (rest : List (Arrival S.length)) (start : first.piece.lo = 0) :
    ∃ c ≤ S.length, (session S s0 sessionID (first :: rest)).consumed = S.take c ∧
      (session S s0 sessionID (first :: rest)).flow.end_ = serialAt s0 c := by
  have tracks := tracks_session s0 sessionID short first rest start
  refine ⟨(positions (first :: rest)).flow.next, (positions (first :: rest)).flow.bounded,
    tracks.consumed, ?_⟩
  rw [tracks.flow]
  rfl

/-- Sequence numbers that wrap, a final segment that arrives early, an overlap and
partial consumption. -/
theorem consumed_eq_take_wrapping :
    ∃ c ≤ 4, (session [10, 11, 12, 13] 0xFFFFFFFE#32 7
        [⟨⟨1, 0⟩, ⟨0, 2, false, by decide, by decide, by decide⟩, 1⟩,
          ⟨⟨2, 0⟩, ⟨3, 4, true, by decide, by decide, by decide⟩, 9⟩,
          ⟨⟨3, 0⟩, ⟨1, 3, false, by decide, by decide, by decide⟩, 9⟩]).consumed =
        [10, 11, 12, 13].take c ∧
      (session [10, 11, 12, 13] 0xFFFFFFFE#32 7
        [⟨⟨1, 0⟩, ⟨0, 2, false, by decide, by decide, by decide⟩, 1⟩,
          ⟨⟨2, 0⟩, ⟨3, 4, true, by decide, by decide, by decide⟩, 9⟩,
          ⟨⟨3, 0⟩, ⟨1, 3, false, by decide, by decide, by decide⟩, 9⟩]).flow.end_ =
        serialAt 0xFFFFFFFE#32 c :=
  consumed_eq_take [10, 11, 12, 13] (by decide) 0xFFFFFFFE#32 7 _ _ rfl

end Libofp.Demux.Delivery
