/- GID: Libofp/Demux/Coverage
   digest: Every received byte is delivered or cached, and nothing deliverable stays behind. -/

import Libofp.Base.Run
import Libofp.Demux.Coalescing
import Libofp.Demux.Delivery

/-!
A flow is tidy when its cache is coalesced, lies at or behind the next position, and
holds exactly the received positions that are not delivered yet. One call keeps a flow
tidy when its slice touches at most two cached segments. When all data is consumed, a
tidy flow has delivered every position up to the first one that is missing.
-/

set_option autoImplicit false

namespace Libofp.Demux.Coverage

open Octets.ByteRange Base.Run Base.SerialSpace SegmentCache
open SegmentCache.Segment (lessThan)
open StreamPieces Delivery Coalescing

variable {n : Nat}

def FewTouchedAt (new : Piece n) (ps : List (Piece n)) : Prop :=
  ps.countP (fun q => decide (Touches new q)) ≤ 2

structure Tidy (received : Nat → Prop) (st : Flow n) : Prop where
  cache : Coalesced st.cache
  ahead : ∀ p ∈ st.cache, st.next ≤ p.lo
  ending : st.finished = true → st.next = n ∨ ∃ p ∈ st.cache, n ≤ p.hi
  covered : ∀ i, (i < st.next ∨ Covers st.cache i) ↔ received i

theorem tidy_initial : Tidy (fun _ => False) (Flow.initial : Flow n) where
  cache := coalesced_nil
  ahead := nofun
  ending := nofun
  covered i := by simp [Flow.initial, covers_nil]

def receivedWith (received : Nat → Prop) (new : Piece n) (i : Nat) : Prop :=
  received i ∨ (new.lo ≤ i ∧ i < new.hi)

variable {received : Nat → Prop} {st : Flow n} {new : Piece n} {rest : List (Piece n)}

theorem receiveAt_cases (tidy : Tidy received st) (new : Piece n) :
    (new.hi ≤ st.next ∧ st.receiveAt new = (st, none) ∧
        (st.cache = [] → new.lo = st.next → st.finished = true)) ∨
      (st.cache = [] ∧ st.finished = false ∧ new.lo = st.next ∧
        st.receiveAt new =
          ({ st with finished := st.finished || new.final }, some ⟨false, new⟩)) ∨
      (st.next < new.hi ∧
        st.receiveAt new = (st.cachePiece new, (st.cachePiece new).latestAt)) := by
  have hn := new.bounded
  unfold Flow.receiveAt
  split_ifs with finished inOrder late
  · left
    simp only [Bool.and_eq_true, List.isEmpty_iff] at finished
    obtain ⟨empty, isFinished⟩ := finished
    rcases tidy.ending isFinished with atEnd | ⟨p, member, -⟩
    · exact ⟨by omega, rfl, fun _ _ => isFinished⟩
    · rw [empty] at member
      cases member
  · right
    left
    simp only [Bool.and_eq_true, List.isEmpty_iff, beq_iff_eq] at inOrder finished
    refine ⟨inOrder.1, ?_, inOrder.2, rfl⟩
    cases isFinished : st.finished with
    | false => rfl
    | true => exact absurd ⟨inOrder.1, isFinished⟩ finished
  · left
    refine ⟨late, rfl, ?_⟩
    intro empty begins
    simp [empty, begins] at inOrder
  · right
    right
    exact ⟨by omega, rfl⟩

private theorem touches_raise {q : Piece n} {c : Nat} (fresh : c < new.hi) (ahead : c ≤ q.lo) :
    Touches (new.raise c) q ↔ Touches new q := by
  have hq := q.ordered
  have hn := new.ordered
  simp only [Touches, Piece.raise_lo, Piece.raise_hi]
  omega

theorem countP_raise {c : Nat} {ps : List (Piece n)} (fresh : c < new.hi)
    (ahead : ∀ p ∈ ps, c ≤ p.lo) (also : Piece n → Bool) :
    ps.countP (fun q => decide (Touches (new.raise c) q) && also q) =
      ps.countP (fun q => decide (Touches new q) && also q) := by
  apply List.countP_congr
  intro q member
  simp only [touches_raise fresh (ahead q member)]

section

variable (tidy : Tidy received st)

include tidy

theorem tidy_cachePiece (fresh : st.next < new.hi) (few : FewTouchedAt new st.cache) :
    Tidy (receivedWith received new) (st.cachePiece new) := by
  have hn := new.bounded
  have fewRaised : st.cache.countP (fun q => decide (Touches (new.raise st.next) q)) ≤ 2 := by
    have same := countP_raise fresh tidy.ahead (fun _ => true)
    simp only [Bool.and_true] at same
    rwa [same]
  have merged := merged_storeAt tidy.cache fewRaised
  constructor
  · exact merged.coalesced
  · refine merged.low st.next ?_ tidy.ahead
    simp only [Piece.raise_lo]
    omega
  · intro finished
    right
    rcases Bool.or_eq_true_iff.1 finished with earlier | final
    · rcases tidy.ending earlier with atEnd | cached
      · omega
      · exact merged.high n (Or.inr cached)
    · have ends := new.ends final
      exact merged.high n (Or.inl ⟨Or.inr final, by simp only [Piece.raise_hi]; omega⟩)
  · intro i
    have inCache := merged.covers i
    have known := tidy.covered i
    simp only [Flow.cachePiece] at inCache ⊢
    rw [inCache, receivedWith, ← known, Piece.raise_lo, Piece.raise_hi]
    constructor
    · rintro (early | inside | cached)
      · exact Or.inl (Or.inl early)
      · exact Or.inr (by omega)
      · exact Or.inl (Or.inr cached)
    · rintro ((early | cached) | inside)
      · exact Or.inl early
      · exact Or.inr (Or.inr cached)
      · rcases Nat.lt_or_ge i st.next with early | late
        · exact Or.inl early
        · exact Or.inr (Or.inl (by omega))

private theorem tidy_consumeFront {p : Piece n} (cached : st.cache = p :: rest)
    (lo : p.lo = st.next) {len : Nat} (le : len ≤ p.hi - p.lo) :
    Tidy received (st.consumeAt ⟨true, p⟩ len) := by
  have cache := tidy.cache
  rw [cached] at cache
  obtain ⟨gap, solid, cacheRest⟩ := coalesced_cons.1 cache
  have hp := p.ordered
  have next : (st.consumeAt ⟨true, p⟩ len).next = st.next + len := by
    simp only [Flow.consumeAt]
    omega
  have covered : ∀ i, (i < st.next ∨ (p.lo ≤ i ∧ i < p.hi) ∨ Covers rest i) ↔ received i := by
    intro i
    rw [← tidy.covered i, cached, covers_cons]
  rcases Nat.lt_or_ge (p.lo + len) p.hi with part | all
  · have left : (st.consumeAt ⟨true, p⟩ len).cache = p.raise (p.lo + len) :: rest := by
      simp only [Flow.consumeAt, cached, consumeFront, if_true]
      rw [if_neg (by omega)]
    constructor
    · rw [left]
      refine coalesced_cons.2 ⟨gap, Or.inl ?_, cacheRest⟩
      simp only [Piece.raise_lo, Piece.raise_hi]
      omega
    · rw [left, next]
      intro q member
      rcases List.mem_cons.1 member with rfl | tail
      · simp only [Piece.raise_lo]
        omega
      · have behind := gap q tail
        omega
    · rw [left, next]
      intro finished
      rcases tidy.ending finished with atEnd | ⟨q, member, high⟩
      · have hp' := p.bounded
        omega
      · rw [cached] at member
        rcases List.mem_cons.1 member with rfl | tail
        · exact Or.inr ⟨_, List.mem_cons_self, high⟩
        · exact Or.inr ⟨q, List.mem_cons_of_mem _ tail, high⟩
    · intro i
      rw [left, next, covers_cons, ← covered i]
      simp only [Piece.raise_lo, Piece.raise_hi]
      grind
  · have left : (st.consumeAt ⟨true, p⟩ len).cache = rest := by
      simp only [Flow.consumeAt, cached, consumeFront, if_true]
      rw [if_pos all]
    constructor
    · rwa [left]
    · rw [left, next]
      intro q member
      have behind := gap q member
      omega
    · rw [left, next]
      intro finished
      rcases tidy.ending finished with atEnd | ⟨q, member, high⟩
      · have hp' := p.bounded
        omega
      · rw [cached] at member
        rcases List.mem_cons.1 member with rfl | tail
        · have hq' := q.bounded
          exact Or.inl (by omega)
        · exact Or.inr ⟨q, tail, high⟩
    · intro i
      rw [left, next, ← covered i]
      constructor
      · rintro (early | behind)
        · omega
        · exact Or.inr (Or.inr behind)
      · rintro (early | inside | behind)
        · omega
        · omega
        · exact Or.inr behind

private theorem tidy_consumeDirect (empty : st.cache = []) (lo : new.lo = st.next) (len : Nat) :
    Tidy (receivedWith received new)
      (Flow.consumeAt { st with finished := st.finished || new.final } ⟨false, new⟩ len) := by
  have hn := new.ordered
  have hn' := new.bounded
  have delivered : ∀ i, i < st.next ↔ received i := by
    intro i
    have known := tidy.covered i
    simp only [empty, covers_nil, or_false] at known
    exact known
  have ends : (st.finished || new.final) = true → new.hi = n := by
    intro finished
    rcases Bool.or_eq_true_iff.1 finished with earlier | final
    · rcases tidy.ending earlier with atEnd | ⟨p, member, -⟩
      · omega
      · rw [empty] at member
        cases member
    · exact new.ends final
  rcases Nat.lt_or_ge (st.next + len) new.hi with part | all
  · have left : (Flow.consumeAt { st with finished := st.finished || new.final }
        ⟨false, new⟩ len).cache = [(new.raise (st.next + len)).unfinal] := by
      have kept : ¬ ((new.raise (st.next + len)).lo = new.hi) := by
        simp only [Piece.raise_lo]
        omega
      simp only [Flow.consumeAt, Bool.false_eq_true, if_false, if_pos part, empty, storeAt,
        Piece.unfinal_lo, Piece.unfinal_hi, Piece.raise_hi, kept, false_and, storeLoopAt]
    have next : (Flow.consumeAt { st with finished := st.finished || new.final }
        ⟨false, new⟩ len).next = st.next + len := by
      simp only [Flow.consumeAt]
      omega
    constructor
    · rw [left]
      refine coalesced_cons.2 ⟨List.forall_mem_nil _, Or.inl ?_, coalesced_nil⟩
      simp only [Piece.unfinal_lo, Piece.unfinal_hi, Piece.raise_lo, Piece.raise_hi]
      omega
    · rw [left, next]
      intro p member
      rw [List.mem_singleton.1 member]
      simp only [Piece.unfinal_lo, Piece.raise_lo]
      omega
    · intro finished
      rw [left]
      exact Or.inr ⟨_, List.mem_cons_self, (ends finished).ge⟩
    · intro i
      rw [left, next, covers_cons, receivedWith, ← delivered i]
      simp only [Piece.unfinal_lo, Piece.unfinal_hi, Piece.raise_lo, Piece.raise_hi, covers_nil,
        or_false]
      omega
  · have left : (Flow.consumeAt { st with finished := st.finished || new.final }
        ⟨false, new⟩ len).cache = [] := by
      simp only [Flow.consumeAt, Bool.false_eq_true, if_false, if_neg (Nat.not_lt.2 all), empty]
    have next : (Flow.consumeAt { st with finished := st.finished || new.final }
        ⟨false, new⟩ len).next = new.hi := by
      simp only [Flow.consumeAt]
      omega
    constructor
    · rw [left]
      exact coalesced_nil
    · rw [left]
      exact List.forall_mem_nil _
    · intro finished
      rw [next]
      exact Or.inl (ends finished)
    · intro i
      rw [left, next, receivedWith, ← delivered i]
      simp only [covers_nil, or_false]
      omega

private theorem tidy_late (late : new.hi ≤ st.next) : Tidy (receivedWith received new) st where
  cache := tidy.cache
  ahead := tidy.ahead
  ending := tidy.ending
  covered i := by
    rw [receivedWith, ← tidy.covered i]
    constructor
    · exact Or.inl
    · rintro (known | inside)
      · exact known
      · exact Or.inl (by omega)

theorem latestAt_cases : (st.latestAt = none ∧ ∀ p ∈ st.cache, st.next < p.lo) ∨
      ∃ p rest, st.cache = p :: rest ∧ p.lo = st.next ∧ st.latestAt = some ⟨true, p⟩ := by
  have cache := tidy.cache
  have ahead := tidy.ahead
  unfold Flow.latestAt
  cases cached : st.cache with
  | nil => exact Or.inl ⟨rfl, nofun⟩
  | cons p rest =>
    rw [cached] at cache ahead
    obtain ⟨gap, -, -⟩ := coalesced_cons.1 cache
    have front := ahead p List.mem_cons_self
    have hp := p.ordered
    rcases Nat.eq_or_lt_of_le front with same | before
    · exact Or.inr ⟨p, rest, rfl, same.symm, if_pos same.symm⟩
    · refine Or.inl ⟨if_neg (by omega), ?_⟩
      intro q member
      rcases List.mem_cons.1 member with rfl | tail
      · exact before
      · have behind := gap q tail
        omega

end

theorem takeOffer_direct (st : Flow n) (lo : new.lo = st.next) (take : Nat) :
    takeOffer st take (some ⟨false, new⟩) =
      st.consumeAt ⟨false, new⟩ (min take (new.hi - new.lo)) := by
  simp only [takeOffer]
  split
  · have none_left : ¬ st.next + min take (new.hi - new.lo) < new.hi := by omega
    have same : min (st.next + min take (new.hi - new.lo)) new.hi = st.next := by omega
    simp only [Flow.consumeAt, Bool.false_eq_true, if_false, if_neg none_left, same]
  · rfl

theorem offer_nonempty (tidy : Tidy received st) {p : Piece n} (cached : st.cache = p :: rest)
    (lo : p.lo = st.next) (open_ : st.next < n) : p.lo < p.hi := by
  have solid := tidy.cache.solid p (by rw [cached]; exact List.mem_cons_self)
  rcases solid with inside | final
  · exact inside
  · have ends := p.ends final
    omega

theorem cache_takeOffer_direct (st : Flow n) (empty : st.cache = [])
    (lo : new.lo = st.next) {take : Nat} (full : n ≤ take) :
    (takeOffer st take (some ⟨false, new⟩)).cache = [] := by
  have hn := new.bounded
  have whole : ¬ st.next + min take (new.hi - new.lo) < new.hi := by omega
  rw [takeOffer_direct st lo]
  simp only [Flow.consumeAt, Bool.false_eq_true, if_false, if_neg whole, empty]

section

variable (tidy : Tidy received st)

include tidy

theorem takeOffer_front {p : Piece n} (cached : st.cache = p :: rest)
    (lo : p.lo = st.next) (open_ : st.next < n) {take : Nat} (full : n ≤ take) :
    (takeOffer st take (some ⟨true, p⟩)).next = p.hi ∧
      (takeOffer st take (some ⟨true, p⟩)).cache = rest := by
  have inside := offer_nonempty tidy cached lo open_
  have hp' := p.bounded
  simp only [takeOffer, if_neg (Nat.ne_of_lt inside), Flow.consumeAt, cached, consumeFront,
    if_true]
  refine ⟨by omega, ?_⟩
  rw [if_pos (by omega)]

theorem tidy_arrive (few : FewTouchedAt new st.cache) (take : Nat) :
    Tidy (receivedWith received new)
      (takeOffer (st.receiveAt new).1 take (st.receiveAt new).2) := by
  rcases receiveAt_cases tidy new with ⟨late, eq, -⟩ | ⟨empty, -, lo, eq⟩ | ⟨fresh, eq⟩
  · rw [eq]
    exact tidy_late tidy late
  · rw [eq]
    have direct := takeOffer_direct { st with finished := st.finished || new.final } lo take
    rw [direct]
    exact tidy_consumeDirect tidy empty lo _
  · rw [eq]
    have stored := tidy_cachePiece tidy fresh few
    have open_ : st.next < n := lt_of_lt_of_le fresh new.bounded
    rcases latestAt_cases stored with ⟨offer, -⟩ | ⟨p, rest, cached, lo, offer⟩
    · simp only [offer, takeOffer]
      exact stored
    · have inside := offer_nonempty stored cached lo open_
      simp only [offer, takeOffer, if_neg (Nat.ne_of_lt inside)]
      exact tidy_consumeFront stored cached lo (min_le_right _ _)

private theorem ahead_arrive (drained : ∀ p ∈ st.cache, st.next < p.lo)
    (few : FewTouchedAt new st.cache) {take : Nat} (full : n ≤ take) :
    ∀ p ∈ (takeOffer (st.receiveAt new).1 take (st.receiveAt new).2).cache,
      (takeOffer (st.receiveAt new).1 take (st.receiveAt new).2).next < p.lo := by
  have hn := new.bounded
  rcases receiveAt_cases tidy new with ⟨late, eq, -⟩ | ⟨empty, -, lo, eq⟩ | ⟨fresh, eq⟩
  · rwa [eq]
  · rw [eq]
    have taken := cache_takeOffer_direct { st with finished := st.finished || new.final }
      empty lo full
    rw [taken]
    exact List.forall_mem_nil _
  · rw [eq]
    have stored := tidy_cachePiece tidy fresh few
    have open_ : st.next < n := by omega
    rcases latestAt_cases stored with ⟨offer, strictly⟩ | ⟨p, rest, cached, lo, offer⟩
    · simp only [offer, takeOffer]
      exact strictly
    · obtain ⟨next, left⟩ := takeOffer_front stored cached lo open_ full
      have cache := stored.cache
      rw [cached] at cache
      rw [offer, next, left]
      exact (coalesced_cons.1 cache).1

theorem le_next_of_received
    (drained : ∀ p ∈ st.cache, st.next < p.lo) {m : Nat} (all : ∀ i < m, received i) :
    m ≤ st.next := by
  by_contra behind
  rcases (tidy.covered st.next).2 (all st.next (by omega)) with before | ⟨p, member, lo, -⟩
  · omega
  · have strictly := drained p member
    omega

end

/-- Some slice received so far holds position `i`. -/
def Received (seen : List (Arrival n)) (i : Nat) : Prop :=
  ∃ x ∈ seen, x.piece.lo ≤ i ∧ i < x.piece.hi

instance (seen : List (Arrival n)) (i : Nat) : Decidable (Received seen i) :=
  inferInstanceAs (Decidable (∃ x ∈ seen, x.piece.lo ≤ i ∧ i < x.piece.hi))

private theorem received_append (seen : List (Arrival n)) (x : Arrival n) (i : Nat) :
    Received (seen ++ [x]) i ↔ receivedWith (Received seen) x.piece i := by
  simp only [Received, receivedWith, List.mem_append, List.mem_singleton]
  constructor
  · rintro ⟨y, earlier | rfl, inside⟩
    · exact Or.inl ⟨y, earlier, inside⟩
    · exact Or.inr inside
  · rintro (⟨y, earlier, inside⟩ | inside)
    · exact ⟨y, Or.inl earlier, inside⟩
    · exact ⟨x, Or.inr rfl, inside⟩

/-- The flow is tidy for what has been received, and nothing deliverable is left. -/
structure Reassembled (seen : List (Arrival n)) (st : Progress n) : Prop where
  tidy : Tidy (Received seen) st.flow
  drained : ∀ p ∈ st.flow.cache, st.flow.next < p.lo

theorem reassembled_initial : Reassembled [] (Progress.initial : Progress n) := by
  refine ⟨?_, nofun⟩
  have none_received : Received ([] : List (Arrival n)) = fun _ => False := by
    funext i
    simp [Received]
  rw [none_received]
  exact tidy_initial

theorem reassembled_arriveAt {seen : List (Arrival n)} {st : Progress n} {x : Arrival n}
    (reassembled : Reassembled seen st) (few : FewTouchedAt x.piece st.flow.cache)
    (full : n ≤ x.take) : Reassembled (seen ++ [x]) (st.arriveAt x) := by
  have same : Received (seen ++ [x]) = receivedWith (Received seen) x.piece := by
    funext i
    exact propext (received_append seen x i)
  refine ⟨?_, ahead_arrive reassembled.tidy reassembled.drained few full⟩
  rw [same]
  exact tidy_arrive reassembled.tidy few x.take

/-- The new segment `[begin, end)` overlaps a cached segment or lies next to it. -/
def touches (begin end_ : Seq) (seg : Segment) : Bool :=
  !lessThan end_ seg.begin && !lessThan seg.end_ begin

/-- The slice that arrives touches at most two of the segments cached at that time. -/
def FewTouched (S : Bytes) (s0 : Seq) (s : Session) (x : Arrival S.length) : Prop :=
  s.flow.cache_.countP (touches (serialAt s0 x.piece.lo) (serialAt s0 x.piece.hi)) ≤ 2

instance (S : Bytes) (s0 : Seq) (s : Session) (x : Arrival S.length) :
    Decidable (FewTouched S s0 s x) :=
  inferInstanceAs (Decidable (_ ≤ 2))

section

variable {S : Bytes} (s0 : Seq) (sessionID : UInt64) (short : S.length < 2 ^ 31)
include short

theorem touches_segmentOf (new q : Piece S.length) :
    touches (serialAt s0 new.lo) (serialAt s0 new.hi) (segmentOf S s0 q) =
      decide (Touches new q) := by
  have hn := new.ordered
  have hn' := new.bounded
  have hq := q.ordered
  have hq' := q.bounded
  have after : lessThan (serialAt s0 new.hi) (serialAt s0 q.lo) = true ↔ new.hi < q.lo :=
    lessThan_of_le s0 short hn' (by omega)
  have before : lessThan (segmentOf S s0 q).end_ (serialAt s0 new.lo) = true ↔ q.hi < new.lo :=
    lessThan_of_le s0 short hq' (by omega)
  rw [touches, begin_segmentOf, Bool.eq_iff_iff, Bool.and_eq_true, Bool.not_eq_true',
    Bool.not_eq_true', ← Bool.not_eq_true, ← Bool.not_eq_true, after, before, decide_eq_true_eq,
    Touches]
  omega

private theorem countP_touches (new : Piece S.length) (ps : List (Piece S.length)) :
    (ps.map (segmentOf S s0)).countP (touches (serialAt s0 new.lo) (serialAt s0 new.hi)) =
      ps.countP (fun q => decide (Touches new q)) := by
  rw [List.countP_map]
  apply List.countP_congr
  intro q _
  simp [touches_segmentOf s0 short]

theorem fewTouchedAt_of_tracks {s : Session} {st : Progress S.length} {x : Arrival S.length}
    (tracks : Tracks S s0 s st) (few : FewTouched S s0 s x) :
    FewTouchedAt x.piece st.flow.cache := by
  have counted : s.flow.cache_ = st.flow.cache.map (segmentOf S s0) := by
    rw [tracks.flow]
    rfl
  rwa [FewTouched, counted, countP_touches s0 short] at few

private theorem reassembled_session (first : Arrival S.length) (rest : List (Arrival S.length))
    (start : first.piece.lo = 0) (full : ∀ x ∈ first :: rest, S.length ≤ x.take)
    (few : Along (Session.arrive S s0 sessionID) (FewTouched S s0) {} (first :: rest)) :
    ∃ st, Tracks S s0 (session S s0 sessionID (first :: rest)) st ∧
      Reassembled (first :: rest) st := by
  have fresh : Tracks S s0 { flow := flowOf S s0 Flow.initial } Progress.initial :=
    ⟨rfl, by simp [Progress.initial, Flow.initial], nofun⟩
  have one := tracks_arrive s0 sessionID short first fresh
  rw [← arrive_fresh s0 sessionID first start] at one
  have begun : Reassembled [first] (Progress.initial.arriveAt first) :=
    reassembled_arriveAt reassembled_initial (Nat.zero_le _) (full first List.mem_cons_self)
  refine foldl_of_along (fun seen s => ∃ st, Tracks S s0 s st ∧ Reassembled seen st)
    few.2 ⟨_, one, begun⟩ ?_
  rintro seen s x member ⟨st, tracks, reassembled⟩ touched
  exact ⟨_, tracks_arrive s0 sessionID short x tracks,
    reassembled_arriveAt reassembled (fewTouchedAt_of_tracks s0 short tracks touched)
      (full x (List.mem_cons_of_mem _ member))⟩

end

/-- As long as no slice touches three cached segments, a session that consumes all data
has delivered at least `m` bytes once the received slices cover the first `m` bytes. -/
theorem le_length_consumed (S : Bytes) (short : S.length < 2 ^ 31) (s0 : Seq)
    (sessionID : UInt64) (first : Arrival S.length) (rest : List (Arrival S.length))
    (start : first.piece.lo = 0) (full : ∀ x ∈ first :: rest, S.length ≤ x.take)
    (few : Along (Session.arrive S s0 sessionID) (FewTouched S s0) {} (first :: rest))
    (m : Nat) (covered : ∀ i < m, Received (first :: rest) i) :
    m ≤ (session S s0 sessionID (first :: rest)).consumed.length ∧
      (session S s0 sessionID (first :: rest)).flow.end_ =
        serialAt s0 (session S s0 sessionID (first :: rest)).consumed.length := by
  obtain ⟨st, tracks, reassembled⟩ :=
    reassembled_session s0 sessionID short first rest start full few
  have delivered : (session S s0 sessionID (first :: rest)).consumed.length = st.flow.next := by
    rw [tracks.consumed, List.length_take]
    have bounded := st.flow.bounded
    omega
  rw [delivered]
  refine ⟨le_next_of_received reassembled.tidy reassembled.drained covered, ?_⟩
  rw [tracks.flow]
  rfl

def sliceAt (lo hi : Nat) (ordered : lo ≤ hi := by decide) (bounded : hi ≤ n := by decide) :
    Arrival n :=
  ⟨⟨0, 0⟩, ⟨lo, hi, false, ordered, bounded, nofun⟩, n⟩

/-- The third slice fills the gap between two cached ones, across the end of the
sequence space. -/
theorem le_length_consumed_fills_gap :
    5 ≤ (session [0, 1, 2, 3, 4] 0xFFFFFFFE#32 1
        [sliceAt 0 1, sliceAt 3 5, sliceAt 1 2, sliceAt 1 4]).consumed.length ∧
      (session [0, 1, 2, 3, 4] 0xFFFFFFFE#32 1
        [sliceAt 0 1, sliceAt 3 5, sliceAt 1 2, sliceAt 1 4]).flow.end_ =
        serialAt 0xFFFFFFFE#32 (session [0, 1, 2, 3, 4] 0xFFFFFFFE#32 1
          [sliceAt 0 1, sliceAt 3 5, sliceAt 1 2, sliceAt 1 4]).consumed.length :=
  le_length_consumed [0, 1, 2, 3, 4] (by decide) 0xFFFFFFFE#32 1 _ _ rfl (by decide) (by decide)
    5 (by decide)

/-- A slice that spans three cached segments: `update` merges only the first of the
two that follow, and the last byte stays in the cache for good. -/
theorem stalls_across_three_segments :
    ∃ arrivals : List (Arrival 8),
      arrivals.head?.map (fun x => x.piece.lo) = some 0 ∧
      (∀ x ∈ arrivals, x.piece.final = false ∧ 8 ≤ x.take) ∧
      (∀ i < 8, Received arrivals i) ∧
      (session [0, 1, 2, 3, 4, 5, 6, 7] 100#32 1 arrivals).consumed.length = 7 := by
  refine ⟨[sliceAt 0 1, sliceAt 2 3, sliceAt 4 5, sliceAt 6 8, sliceAt 1 7], ?_, ?_, ?_, ?_⟩ <;>
  decide

end Libofp.Demux.Coverage
