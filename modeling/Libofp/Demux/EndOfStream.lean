/- GID: Libofp/Demux/EndOfStream
   digest: When the end of a stream reaches the caller, and how a final flag gets lost. -/

import Libofp.Demux.Coverage

/-!
The final flag travels with the cached segment that holds the end of the stream. It is
lost when the last byte arrived before without the flag, since a final slice then has
nothing to append, and when a final slice runs into a second segment without the flag,
since `update` takes over the flag of that segment. Away from these cases the end of
the stream is returned with the flag and the flow is finished.
-/

set_option autoImplicit false

namespace Libofp.Demux.EndOfStream

open Octets.ByteRange Base.Run Base.SerialSpace SegmentCache FlowReceive
open StreamPieces Delivery Coalescing Coverage

variable {n : Nat}

structure FlagKeptAt (st : Flow n) (new : Piece n) : Prop where
  undelivered : new.lo < new.hi → st.next = n → st.finished = true
  keeps : KeepsFlag new st.cache

/-- The end of the stream is announced exactly when a final slice has arrived, and then
it is cached or has been returned. -/
structure Flagged (seen : List (Arrival n)) (st : Progress n) : Prop where
  announced : st.flow.finished = true ↔ ∃ x ∈ seen, x.piece.final = true
  flag : st.flow.finished = true →
    HasFinal st.flow.cache ∨ (st.ended = true ∧ st.flow.cache = [])

private theorem flagged_initial : Flagged [] (Progress.initial : Progress n) :=
  ⟨by simp [Progress.initial, Flow.initial], nofun⟩

theorem finished_takeOffer (st : Flow n) (take : Nat) (offer : Option (Offer n)) :
    (takeOffer st take offer).finished = st.finished := by
  unfold takeOffer
  split
  · rfl
  · split_ifs <;> rfl

theorem exists_final_append (seen : List (Arrival n)) (x : Arrival n) :
    (∃ y ∈ seen ++ [x], y.piece.final = true) ↔
      (∃ y ∈ seen, y.piece.final = true) ∨ x.piece.final = true := by
  simp

private theorem keepsFlag_raise {st : Flow n} {received : Nat → Prop} (tidy : Tidy received st)
    {new : Piece n} (fresh : st.next < new.hi) (keeps : KeepsFlag new st.cache) :
    KeepsFlag (new.raise st.next) st.cache where
  brings nonempty p member := by
    simp only [Piece.raise_lo, Piece.raise_hi] at nonempty ⊢
    exact keeps.brings (by omega) p member
  one := by
    rw [countP_raise fresh tidy.ahead (fun q => !q.final)]
    exact keeps.one

private theorem alone_of_final {p : Piece n} {rest : List (Piece n)} (cache : Coalesced (p :: rest))
    (final : p.final = true) : rest = [] := by
  obtain ⟨gap, -, -⟩ := coalesced_cons.1 cache
  cases rest with
  | nil => rfl
  | cons q _ =>
    have behind := gap q List.mem_cons_self
    have ends := p.ends final
    have hq := q.ordered
    have hq' := q.bounded
    omega

private theorem flag_latest {received : Nat → Prop} {st : Flow n} (tidy : Tidy received st)
    (flag : HasFinal st.cache) (open_ : st.next < n) {take : Nat} (full : n ≤ take) :
    HasFinal (takeOffer st take st.latestAt).cache ∨
      (offersFinal st.latestAt = true ∧ (takeOffer st take st.latestAt).cache = []) := by
  rcases latestAt_cases tidy with ⟨offer, -⟩ | ⟨p, rest, cached, lo, offer⟩
  · rw [offer]
    exact Or.inl flag
  · have cache := tidy.cache
    rw [offer, (takeOffer_front tidy cached lo open_ full).2]
    rw [cached] at cache flag
    rcases hasFinal_cons.1 flag with final | behind
    · exact Or.inr ⟨final, alone_of_final cache final⟩
    · exact Or.inl behind

theorem flagged_arriveAt {seen : List (Arrival n)} {st : Progress n} {x : Arrival n}
    (reassembled : Reassembled seen st) (flagged : Flagged seen st)
    (few : FewTouchedAt x.piece st.flow.cache)
    (kept : x.piece.final = true → FlagKeptAt st.flow x.piece) (full : n ≤ x.take) :
    Flagged (seen ++ [x]) (st.arriveAt x) := by
  have tidy := reassembled.tidy
  have hx := x.piece.bounded
  have hx' := x.piece.ordered
  rcases receiveAt_cases tidy x.piece with
    ⟨late, eq, direct⟩ | ⟨empty, unfinished, lo, eq⟩ | ⟨fresh, eq⟩
  · -- A late final slice ends at the next position, so the end was announced before.
    have known : x.piece.final = true → st.flow.finished = true := by
      intro final
      have ends := x.piece.ends final
      have bounded := st.flow.bounded
      rcases Nat.lt_or_ge x.piece.lo x.piece.hi with inside | empty
      · exact (kept final).undelivered inside (by omega)
      · refine direct ?_ (by omega)
        rw [List.eq_nil_iff_forall_not_mem]
        intro p member
        have strictly := reassembled.drained p member
        have hp := p.ordered
        have hp' := p.bounded
        omega
    simp only [Progress.arriveAt, eq, takeOffer, offersFinal, Bool.or_false]
    refine ⟨?_, flagged.flag⟩
    rw [exists_final_append, ← flagged.announced]
    exact ⟨Or.inl, fun either => either.elim id known⟩
  · constructor
    · simp only [Progress.arriveAt, eq, finished_takeOffer]
      rw [exists_final_append, ← flagged.announced, Bool.or_eq_true]
    · intro finished
      simp only [Progress.arriveAt, eq, finished_takeOffer, unfinished, Bool.false_or] at finished
      simp only [Progress.arriveAt, eq, offersFinal, finished, Bool.or_true, true_and]
      exact Or.inr (cache_takeOffer_direct { st.flow with finished := true } empty lo full)
  · have stored := tidy_cachePiece tidy fresh few
    have open_ : st.flow.next < n := by omega
    constructor
    · simp only [Progress.arriveAt, eq, finished_takeOffer, Flow.cachePiece]
      rw [exists_final_append, ← flagged.announced, Bool.or_eq_true]
    · intro finished
      simp only [Progress.arriveAt, eq, finished_takeOffer, Flow.cachePiece] at finished
      have flag : HasFinal (st.flow.cachePiece x.piece).cache := by
        apply hasFinal_storeAt tidy.cache
        rcases Bool.or_eq_true_iff.1 finished with earlier | final
        · rcases flagged.flag earlier with cached | ⟨-, empty⟩
          · exact Or.inl cached
          · rcases tidy.ending earlier with atEnd | ⟨p, member, -⟩
            · omega
            · rw [empty] at member
              cases member
        · exact Or.inr ⟨final, keepsFlag_raise tidy fresh (kept final).keeps⟩
      simp only [Progress.arriveAt, eq]
      rcases flag_latest stored flag open_ full with cached | ⟨offered, empty⟩
      · exact Or.inl cached
      · exact Or.inr ⟨by rw [offered, Bool.or_true], empty⟩

/-- A final slice keeps its flag: when it is not empty, its last byte has neither been
delivered nor been cached without the flag, and it touches at most one cached segment
without the flag. -/
def FlagKept (S : Bytes) (s0 : Seq) (s : Session) (x : Arrival S.length) : Prop :=
  x.piece.final = true →
    (x.piece.lo < x.piece.hi →
      ¬ (s.flow.started_ = true ∧ s.flow.finished_ = false ∧
        s.flow.end_ = serialAt s0 x.piece.hi) ∧
      ∀ seg ∈ s.flow.cache_, seg.final_ = false → seg.end_ ≠ serialAt s0 x.piece.hi) ∧
    s.flow.cache_.countP (fun seg =>
      touches (serialAt s0 x.piece.lo) (serialAt s0 x.piece.hi) seg && !seg.final_) ≤ 1

instance (S : Bytes) (s0 : Seq) (s : Session) (x : Arrival S.length) :
    Decidable (FlagKept S s0 s x) :=
  inferInstanceAs (Decidable (_ → _))

section

variable {S : Bytes} (s0 : Seq) (sessionID : UInt64) (short : S.length < 2 ^ 31)
include short

private theorem flagKeptAt_of_tracks {s : Session} {st : Progress S.length} {x : Arrival S.length}
    (tracks : Tracks S s0 s st) (kept : FlagKept S s0 s x) (final : x.piece.final = true) :
    FlagKeptAt st.flow x.piece := by
  have ends := x.piece.ends final
  obtain ⟨brings, one⟩ := kept final
  simp only [tracks.flow, flowOf] at brings one
  constructor
  · intro inside delivered
    by_contra unfinished
    refine (brings inside).1 ⟨trivial, by simpa using unfinished, ?_⟩
    rw [delivered, ends]
  · constructor
    · intro inside p member lacks
      have differs := (brings inside).2 _ (List.mem_map_of_mem member) lacks
      have hp := p.bounded
      have other : p.hi ≠ x.piece.hi := fun same => differs (by simp only [segmentOf, same])
      omega
    · rw [List.countP_map] at one
      refine le_of_eq_of_le (List.countP_congr ?_) one
      intro q _
      simp only [Function.comp_apply, touches_segmentOf s0 short]
      exact Iff.rfl

private theorem flagged_session (first : Arrival S.length) (rest : List (Arrival S.length))
    (start : first.piece.lo = 0) (full : ∀ x ∈ first :: rest, S.length ≤ x.take)
    (kept : Along (Session.arrive S s0 sessionID)
      (fun s x => FewTouched S s0 s x ∧ FlagKept S s0 s x) {} (first :: rest)) :
    ∃ st, Tracks S s0 (session S s0 sessionID (first :: rest)) st ∧
      Reassembled (first :: rest) st ∧ Flagged (first :: rest) st := by
  have fresh : Tracks S s0 { flow := flowOf S s0 Flow.initial } Progress.initial :=
    ⟨rfl, by simp [Progress.initial, Flow.initial], by simp [Progress.initial]⟩
  have one := tracks_arrive s0 sessionID short first fresh
  rw [← arrive_fresh s0 sessionID first start] at one
  have firstFull := full first List.mem_cons_self
  have begun : Reassembled [first] (Progress.initial.arriveAt first) :=
    reassembled_arriveAt reassembled_initial (Nat.zero_le _) firstFull
  have flagged : Flagged [first] (Progress.initial.arriveAt first) := by
    refine flagged_arriveAt reassembled_initial flagged_initial (Nat.zero_le _) ?_ firstFull
    intro final
    have ends := first.piece.ends final
    refine ⟨?_, by simp [Progress.initial, Flow.initial], Nat.zero_le _⟩
    intro inside atEnd
    simp only [Progress.initial, Flow.initial] at atEnd
    omega
  refine foldl_of_along
    (fun seen s => ∃ st, Tracks S s0 s st ∧ Reassembled seen st ∧ Flagged seen st)
    kept.2 ⟨_, one, begun, flagged⟩ ?_
  rintro seen s x member ⟨st, tracks, reassembled, flagged⟩ ⟨touched, flagKept⟩
  have few := fewTouchedAt_of_tracks s0 short tracks touched
  have xFull := full x (List.mem_cons_of_mem _ member)
  exact ⟨_, tracks_arrive s0 sessionID short x tracks,
    reassembled_arriveAt reassembled few xFull,
    flagged_arriveAt reassembled flagged few
      (flagKeptAt_of_tracks s0 short tracks flagKept) xFull⟩

end

/-- Once the slices cover the stream and a final one is among them, the end of the
stream has been returned with the final flag and the flow is finished, provided that no
slice touched three cached segments and no final slice lost its flag. -/
theorem end_returned_and_finished (S : Bytes) (short : S.length < 2 ^ 31) (s0 : Seq)
    (sessionID : UInt64) (first : Arrival S.length) (rest : List (Arrival S.length))
    (start : first.piece.lo = 0) (full : ∀ x ∈ first :: rest, S.length ≤ x.take)
    (kept : Along (Session.arrive S s0 sessionID)
      (fun s x => FewTouched S s0 s x ∧ FlagKept S s0 s x) {} (first :: rest))
    (covered : ∀ i < S.length, Received (first :: rest) i)
    (final : ∃ x ∈ first :: rest, x.piece.final = true) :
    EndReturned S s0 (session S s0 sessionID (first :: rest)) ∧
      (session S s0 sessionID (first :: rest)).flow.finished = true := by
  obtain ⟨st, tracks, reassembled, flagged⟩ :=
    flagged_session s0 sessionID short first rest start full kept
  have delivered := le_next_of_received reassembled.tidy reassembled.drained covered
  have empty : st.flow.cache = [] := by
    rw [List.eq_nil_iff_forall_not_mem]
    intro p member
    have strictly := reassembled.drained p member
    have hp := p.ordered
    have hp' := p.bounded
    omega
  have finished := flagged.announced.2 final
  rcases flagged.flag finished with ⟨p, member, -⟩ | ⟨ended, -⟩
  · rw [empty] at member
    cases member
  · refine ⟨tracks.ended ended, ?_⟩
    rw [tracks.flow]
    simp [FlowState.finished, flowOf, finished, empty]

/-- The final slice from `lo` on; all of the returned data is taken. -/
def lastSlice (lo : Nat) (ordered : lo ≤ n := by decide) : Arrival n :=
  ⟨⟨0, 0⟩, ⟨lo, n, true, ordered, le_refl n, fun _ => rfl⟩, n⟩

/-- The final slice arrives before the bytes between it and the first one. -/
theorem end_returned_and_finished_early_end :
    EndReturned [5, 6, 7, 8] 0xFFFFFFFE#32
        (session [5, 6, 7, 8] 0xFFFFFFFE#32 1
          [sliceAt 0 1, lastSlice 3, sliceAt 0 3]) ∧
      (session [5, 6, 7, 8] 0xFFFFFFFE#32 1
        [sliceAt 0 1, lastSlice 3, sliceAt 0 3]).flow.finished = true :=
  end_returned_and_finished [5, 6, 7, 8] (by decide) 0xFFFFFFFE#32 1 _ _ rfl (by decide)
    (by decide) (by decide) (by decide)

/-- The stream is delivered completely and a final slice has arrived, but no returned
data is final: `update` took over the flag of the segment that follows. -/
theorem flag_lost_to_next_segment :
    ∃ arrivals : List (Arrival 6),
      arrivals.head?.map (fun x => x.piece.lo) = some 0 ∧
      (∀ x ∈ arrivals, 6 ≤ x.take) ∧
      (∀ i < 6, Received arrivals i) ∧
      (∃ x ∈ arrivals, x.piece.final = true) ∧
      (session [0, 1, 2, 3, 4, 5] 100#32 1 arrivals).consumed.length = 6 ∧
      ∀ r ∈ (session [0, 1, 2, 3, 4, 5] 100#32 1 arrivals).returned, r.2.final_ = false := by
  refine ⟨[sliceAt 0 1, sliceAt 2 3, sliceAt 4 5, lastSlice 1], ?_, ?_, ?_, ?_, ?_, ?_⟩ <;>
  decide

end Libofp.Demux.EndOfStream
