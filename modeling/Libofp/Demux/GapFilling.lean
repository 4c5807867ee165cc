/- GID: Libofp/Demux/GapFilling
   digest: What filling the gaps leaves in the segment cache: the bytes stay at their sequence
     numbers, with zeros between them. -/

import Libofp.Demux.CacheInvariant
import Mathlib.Order.Bounds.Basic

set_option autoImplicit false

namespace Libofp.Demux.GapFilling

open Octets.ByteRange Base.Iteration Base.SerialSpace SegmentCache
open SegmentCache.Segment (lessThan)
open MissingData CacheInvariant

/-- From position `b` on, there is a gap before each segment. Only the last one may be final,
and only a final one may be empty. -/
def Gapped (s : Seq) : Nat → List Segment → Prop
  | _, [] => True
  | b, seg :: rest =>
      Fits s seg ∧ b < lo s seg ∧ (seg.data_ = [] → seg.final_ = true) ∧
        (seg.final_ = true → rest = []) ∧ Gapped s (hi s seg) rest

structure Cache (first : Segment) (rest : List Segment) : Prop where
  filled : first.data_ ≠ []
  fits : Fits first.begin first
  last : first.final_ = true → rest = []
  gapped : Gapped first.begin (hi first.begin first) rest

def gap (first second : Segment) : Nat := (second.begin - first.end_).toNat

/-- From the first segment to the one with index `j` no gap is too large, and that segment is
not empty. -/
def Reach (maxMissingBytes : Nat) (segments : List Segment) (j : Nat) : Prop :=
  (∃ seg, segments[j]? = some seg ∧ seg.data_ ≠ []) ∧
    ∀ i < j, ∀ a b, segments[i]? = some a → segments[i + 1]? = some b →
      gap a b ≤ maxMissingBytes

def byteAt (segments : List Segment) (q : Seq) : UInt8 :=
  match segments.find? fun seg => (q - seg.begin).toNat < seg.data_.length with
  | some seg => seg.data_.getD (q - seg.begin).toNat 0
  | none => 0

/-- The bytes at the positions from `p` on, counted from `start`. -/
def picture (segments : List Segment) (start : Seq) (p size : Nat) : Bytes :=
  (List.range size).map fun k => byteAt segments (serialAt start (p + k))

section

variable {maxMissingBytes : Nat} {first second : Segment} {rest : List Segment}

def join (first second : Segment) : Segment :=
  (first.append (zeros (gap first second)) false).append second.data_ second.final_

def absorb (maxMissingBytes : Nat) : Segment → List Segment → Segment × List Segment
  | first, [] => (first, [])
  | first, second :: rest =>
      if second.data_.isEmpty = true ∨ maxMissingBytes < gap first second then
        (first, second :: rest)
      else absorb maxMissingBytes (join first second) rest

theorem end_join (first second : Segment) : (join first second).end_ = second.end_ :=
  end_append_append first second

theorem append_of_build {append : Append} (build : append = released ∨ append = asserted)
    {seg : Segment} {data : Bytes} {final : Bool} (ok : seg.final_ = true → final = true) :
    append seg data final = .done (seg.append data final) := by
  rcases build with rfl | rfl
  · rfl
  · exact asserted_append ok

private theorem fillTurn_join {append : Append} (build : append = released ∨ append = asserted)
    (open_ : first.final_ = false) (nonempty : second.data_.isEmpty = false)
    (apart : lessThan first.end_ second.begin = true)
    (small : ¬ maxMissingBytes < gap first second) :
    fillTurn append maxMissingBytes ⟨first :: second :: rest, false⟩ =
      .done ⟨join first second :: rest, false⟩ := by
  have zeros' : append first (zeros (gap first second)) false =
      .done (first.append (zeros (gap first second)) false) :=
    append_of_build build (by simp [open_])
  have data : append (first.append (zeros (gap first second)) false) second.data_ second.final_ =
      .done (join first second) := append_of_build build (by simp [Segment.append])
  rw [gap] at small zeros' data
  simp only [fillTurn, nonempty, apart, small, Bool.false_eq_true, if_false, if_true, zeros', data,
    Outcome.bind_done, Outcome.map_done]

theorem settles_stopped (append : Append) (segments : List Segment) :
    Settles (fun fuel => whileLoop Filling.more (fillTurn append maxMissingBytes) fuel
      ⟨segments, true⟩) (.done ⟨segments, true⟩) := by
  refine ⟨by simp, 0, fun fuel _ => ?_⟩
  exact whileLoop_of_guard_false _ fuel (more_stopped segments)

private theorem settles_absorb {append : Append} (build : append = released ∨ append = asserted)
    {s : Seq} (last : first.final_ = true → rest = []) (gapped : Gapped s (hi s first) rest) :
    ∃ stopped, Settles (fun fuel => whileLoop Filling.more (fillTurn append maxMissingBytes) fuel
      ⟨first :: rest, false⟩) (.done ⟨(absorb maxMissingBytes first rest).1 ::
        (absorb maxMissingBytes first rest).2, stopped⟩) := by
  induction rest generalizing first with
  | nil =>
    have stops : Filling.more ⟨[first], false⟩ = false := rfl
    exact ⟨false, by simp, 0, fun fuel _ => whileLoop_of_guard_false _ fuel stops⟩
  | cons second rest ih =>
    have guard := more_cons_cons first second rest
    have open_ : first.final_ = false := by
      by_contra flag
      exact absurd (last (by simpa using flag)) (by simp)
    obtain ⟨fits, positive, -, lastSecond, gappedRest⟩ := gapped
    have apart : lessThan first.end_ second.begin = true := by
      have short := fits.short
      have ordered := lo_le_hi (s := s) second
      rw [end_eq (s := s) first, begin_eq fits]
      exact (lessThan_serialAt s (by omega) (by omega)).mpr positive
    rw [absorb]
    cases empty : second.data_.isEmpty with
    | true =>
      exact ⟨true, settles_whileLoop_step guard (fillTurn_empty append empty)
        (settles_stopped append _)⟩
    | false =>
      by_cases wide : maxMissingBytes < gap first second
      · rw [if_pos (.inr wide)]
        exact ⟨true, settles_whileLoop_step guard (fillTurn_wide append empty apart wide)
          (settles_stopped append _)⟩
      · rw [if_neg (by simp [wide])]
        have same : hi s (join first second) = hi s second := by
          rw [hi, end_join, hi]
        obtain ⟨stopped, settled⟩ := @ih (join first second) lastSecond (same ▸ gappedRest)
        exact ⟨stopped, settles_whileLoop_step guard
          (fillTurn_join build open_ empty apart wide) settled⟩

end

section

variable {maxMissingBytes : Nat} {a b : Segment} {rest : List Segment} {j : Nat}

theorem reach_zero : Reach maxMissingBytes (a :: rest) 0 ↔ a.data_ ≠ [] := by
  simp [Reach]

theorem reach_succ : Reach maxMissingBytes (a :: b :: rest) (j + 1) ↔
    gap a b ≤ maxMissingBytes ∧ Reach maxMissingBytes (b :: rest) j := by
  constructor
  · rintro ⟨reached, small⟩
    refine ⟨small 0 (Nat.succ_pos j) a b rfl rfl, reached, ?_⟩
    intro i less x y here next
    exact small (i + 1) (Nat.succ_lt_succ less) x y here next
  · rintro ⟨first, reached, small⟩
    refine ⟨reached, ?_⟩
    intro i less x y here next
    cases i with
    | zero =>
      cases here
      cases next
      exact first
    | succ i => exact small i (Nat.lt_of_succ_lt_succ less) x y here next

theorem reach_congr {a' : Segment} (same : a.end_ = a'.end_) (solid : a.data_ ≠ [])
    (solid' : a'.data_ ≠ []) :
    Reach maxMissingBytes (a :: rest) j ↔ Reach maxMissingBytes (a' :: rest) j := by
  cases j with
  | zero => simp [reach_zero, solid, solid']
  | succ j =>
    cases rest with
    | nil => simp [Reach]
    | cons b rest =>
      rw [reach_succ, reach_succ, gap, gap, same]

def bridge : Seq → List Segment → Bytes
  | _, [] => []
  | end_, seg :: rest => zeros (seg.begin - end_).toNat ++ seg.data_ ++ bridge seg.end_ rest

theorem absorb_stay (solid : a.data_ ≠ [])
    (stops : ∀ j, Reach maxMissingBytes (a :: rest) j → j = 0)
    (stay : absorb maxMissingBytes a rest = (a, rest)) :
    ∃ j last, IsGreatest {j | Reach maxMissingBytes (a :: rest) j} j ∧
      (a :: rest)[j]? = some last ∧ absorb maxMissingBytes a rest =
        (⟨last.end_, last.final_, a.data_ ++ bridge a.end_ (rest.take j)⟩, rest.drop j) := by
  refine ⟨0, a, ⟨reach_zero.mpr solid, fun j reach => (stops j reach).le⟩, rfl, ?_⟩
  simp [stay, bridge]

theorem exists_last {last : Segment} (here : (a :: rest)[j]? = some last)
    (sameEnd : a.end_ = b.end_)
    (sameFinal : a.final_ = b.final_) : ∃ last', (b :: rest)[j]? = some last' ∧
      last'.end_ = last.end_ ∧ last'.final_ = last.final_ := by
  cases j with
  | zero =>
    cases here
    exact ⟨b, rfl, sameEnd.symm, sameFinal.symm⟩
  | succ j => exact ⟨last, here, rfl, rfl⟩

private theorem absorb_spec {s : Seq} {c : Nat} (gapped : Gapped s c rest) (solid : a.data_ ≠ []) :
    ∃ j last, IsGreatest {j | Reach maxMissingBytes (a :: rest) j} j ∧
      (a :: rest)[j]? = some last ∧ absorb maxMissingBytes a rest =
        (⟨last.end_, last.final_, a.data_ ++ bridge a.end_ (rest.take j)⟩, rest.drop j) := by
  induction rest generalizing a c with
  | nil =>
    refine absorb_stay solid ?_ rfl
    rintro j ⟨⟨seg, here, -⟩, -⟩
    cases j with
    | zero => rfl
    | succ j => simp at here
  | cons b rest ih =>
    obtain ⟨-, -, emptyFinal, lastFinal, gappedRest⟩ := gapped
    by_cases empty : b.data_ = []
    · refine absorb_stay solid ?_ (by simp [absorb, empty])
      intro j reach
      cases j with
      | zero => rfl
      | succ j =>
        -- An empty segment is the last one, and it is not reached itself.
        rw [lastFinal (emptyFinal empty)] at reach
        obtain ⟨⟨seg, here, nonempty⟩, -⟩ := (reach_succ.mp reach).2
        cases j with
        | zero =>
          cases here
          exact absurd empty nonempty
        | succ j => simp at here
    · by_cases wide : maxMissingBytes < gap a b
      · refine absorb_stay solid ?_ (by simp [absorb, wide])
        intro j reach
        cases j with
        | zero => rfl
        | succ j => exact absurd (reach_succ.mp reach).1 (Nat.not_le.mpr wide)
      · have solidJoin : (join a b).data_ ≠ [] := by
          simp [join, Segment.append, solid]
        have same (j : Nat) : Reach maxMissingBytes (join a b :: rest) j ↔
            Reach maxMissingBytes (b :: rest) j :=
          reach_congr (end_join a b) solidJoin empty
        obtain ⟨j, last, greatest, here, result⟩ := ih gappedRest solidJoin
        obtain ⟨last', here', sameEnd, sameFinal⟩ := exists_last here (end_join a b) rfl
        refine ⟨j + 1, last', ⟨?_, ?_⟩, here', ?_⟩
        · exact reach_succ.mpr ⟨Nat.not_lt.mp wide, (same j).mp greatest.1⟩
        · intro k reach
          cases k with
          | zero => exact Nat.zero_le _
          | succ k =>
            exact Nat.succ_le_succ (greatest.2 ((same k).mpr (reach_succ.mp reach).2))
        · have step : absorb maxMissingBytes a (b :: rest) =
              absorb maxMissingBytes (join a b) rest := by
            simp [absorb, empty, wide]
          have bytes : (join a b).data_ ++ bridge (join a b).end_ (rest.take j) =
              a.data_ ++ bridge a.end_ (b :: rest.take j) := by
            rw [end_join]
            simp [join, Segment.append, bridge, gap]
          rw [step, result, bytes, sameEnd, sameFinal]
          rfl

end

section

variable {start : Seq} {seg : Segment} {segments before tail : List Segment} {p k : Nat}

/-- The position of the beginning of a segment, counted from `start`. -/
def offset (start : Seq) (seg : Segment) : Nat := (seg.begin - start).toNat

/-- From position `p` on, the segments follow each other in less than the whole space. -/
def Placed (start : Seq) : Nat → List Segment → Prop
  | _, [] => True
  | p, seg :: rest => p ≤ offset start seg ∧ offset start seg + seg.data_.length < 2 ^ 32 ∧
      Placed start (offset start seg + seg.data_.length) rest

theorem begin_offset (start : Seq) (seg : Segment) :
    seg.begin = serialAt start (offset start seg) := by
  rw [serialAt, offset, BitVec.ofNat_toNat, BitVec.setWidth_eq, BitVec.add_comm,
    BitVec.sub_add_cancel]

theorem end_offset (start : Seq) (seg : Segment) :
    seg.end_ = serialAt start (offset start seg + seg.data_.length) := by
  rw [← serialAt_add, ← begin_offset, Segment.begin, narrow, BitVec.sub_add_cancel]

theorem within_iff (room : offset start seg + seg.data_.length < 2 ^ 32) (small : k < 2 ^ 32) :
    (serialAt start k - seg.begin).toNat < seg.data_.length ↔
      offset start seg ≤ k ∧ k < offset start seg + seg.data_.length := by
  rw [begin_offset start seg]
  rcases Nat.lt_or_ge k (offset start seg) with below | above
  · rw [toNat_serialAt_sub_of_lt start below (by omega)]
    omega
  · rw [toNat_serialAt_sub_of_le start above (by omega)]
    omega

private theorem byteAt_gap (small : k < 2 ^ 32)
    (outside : ∀ seg ∈ segments, offset start seg + seg.data_.length < 2 ^ 32 ∧
      (k < offset start seg ∨ offset start seg + seg.data_.length ≤ k)) :
    byteAt segments (serialAt start k) = 0 := by
  have none : segments.find? (fun seg => (serialAt start k - seg.begin).toNat <
      seg.data_.length) = none := by
    rw [List.find?_eq_none]
    intro seg member inside
    obtain ⟨room, apart⟩ := outside seg member
    have := (within_iff room small).mp (of_decide_eq_true inside)
    omega
  rw [byteAt, none]

private theorem byteAt_here (room : offset start seg + seg.data_.length < 2 ^ 32)
    (above : offset start seg ≤ k) (below : k < offset start seg + seg.data_.length)
    (past : ∀ x ∈ before, offset start x + x.data_.length ≤ offset start seg) :
    byteAt (before ++ seg :: tail) (serialAt start k) =
      seg.data_.getD (k - offset start seg) 0 := by
  have found : (before ++ seg :: tail).find? (fun x => (serialAt start k - x.begin).toNat <
      x.data_.length) = some seg := by
    have none : before.find? (fun x => (serialAt start k - x.begin).toNat < x.data_.length) =
        none := by
      rw [List.find?_eq_none]
      intro x member inside
      have ended := past x member
      have := (within_iff (by omega) (by omega)).mp (of_decide_eq_true inside)
      omega
    rw [List.find?_append, none, Option.none_or, List.find?_cons_of_pos]
    exact decide_eq_true ((within_iff room (by omega)).mpr ⟨above, below⟩)
  have distance : (serialAt start k - seg.begin).toNat = k - offset start seg := by
    rw [begin_offset start seg]
    exact toNat_serialAt_sub_of_le start above (by omega)
  rw [byteAt, found]
  simp only [distance]

theorem picture_add (segments : List Segment) (start : Seq) (p m n : Nat) :
    picture segments start p (m + n) =
      picture segments start p m ++ picture segments start (p + m) n := by
  simp [picture, List.range_add, Nat.add_assoc]

def stop (start : Seq) (p : Nat) (tail : List Segment) : Nat :=
  tail.foldl (fun _ seg => offset start seg + seg.data_.length) p

section

variable (placed : Placed start p tail)

include placed

private theorem le_stop : p ≤ stop start p tail := by
  induction tail generalizing p with
  | nil => exact Nat.le_refl p
  | cons seg tail ih =>
    have later := ih placed.2.2
    have first := placed.1
    rw [stop, List.foldl_cons]
    rw [stop] at later
    omega

theorem placed_above :
    ∀ seg ∈ tail, p ≤ offset start seg ∧ offset start seg + seg.data_.length < 2 ^ 32 := by
  induction tail generalizing p with
  | nil =>
    intro seg absent
    cases absent
  | cons first tail ih =>
    intro seg member
    rcases List.mem_cons.mp member with rfl | later
    · exact ⟨placed.1, placed.2.1⟩
    · obtain ⟨above, room⟩ := ih placed.2.2 seg later
      have first := placed.1
      exact ⟨by omega, room⟩

/-- The bridge over placed segments shows each byte at its place. By induction on the segments
ahead, with those that have been passed kept in `before`. -/
private theorem bridge_eq_picture
    (past : ∀ x ∈ before, offset start x + x.data_.length ≤ p) (low : p < 2 ^ 32) :
    bridge (serialAt start p) tail =
      picture (before ++ tail) start p (stop start p tail - p) := by
  induction tail generalizing p before with
  | nil => simp [bridge, picture, stop]
  | cons seg tail ih =>
    obtain ⟨ordered, room, placedTail⟩ := placed
    have later := placed_above placedTail
    have reached := le_stop placedTail
    have size : stop start p (seg :: tail) - p = (offset start seg - p) + seg.data_.length +
        (stop start (offset start seg + seg.data_.length) tail -
          (offset start seg + seg.data_.length)) := by
      have same : stop start p (seg :: tail) =
        stop start (offset start seg + seg.data_.length) tail := rfl
      omega
    have distance : (seg.begin - serialAt start p).toNat = offset start seg - p := by
      rw [begin_offset start seg]
      exact toNat_serialAt_sub_of_le start ordered (by omega)
    have gapBytes : zeros (seg.begin - serialAt start p).toNat =
        picture (before ++ seg :: tail) start p (offset start seg - p) := by
      rw [distance, zeros, eq_comm, List.eq_replicate_iff]
      refine ⟨by simp [picture], ?_⟩
      intro byte member
      obtain ⟨k, among, rfl⟩ := List.mem_map.mp member
      have inside := List.mem_range.mp among
      refine byteAt_gap (by omega) ?_
      intro x among
      rcases List.mem_append.mp among with passed | ahead
      · have ended := past x passed
        exact ⟨by omega, .inr (by omega)⟩
      · rcases List.mem_cons.mp ahead with rfl | behind
        · exact ⟨room, .inl (by omega)⟩
        · obtain ⟨above, room'⟩ := later x behind
          exact ⟨room', .inl (by omega)⟩
    have ownBytes : seg.data_ = picture (before ++ seg :: tail) start
        (p + (offset start seg - p)) seg.data_.length := by
      apply List.ext_getElem
      · simp [picture]
      · intro k inside _
        have place : p + (offset start seg - p) + k = offset start seg + k := by omega
        have byte : byteAt (before ++ seg :: tail) (serialAt start (offset start seg + k)) =
            seg.data_.getD (offset start seg + k - offset start seg) 0 :=
          byteAt_here room (by omega) (by omega) (fun x passed => (past x passed).trans ordered)
        rw [Nat.add_sub_cancel_left, List.getD_eq_getElem _ _ inside] at byte
        simp [picture, place, byte]
    have passed : ∀ x ∈ before ++ [seg], offset start x + x.data_.length ≤
        offset start seg + seg.data_.length := by
      intro x among
      rcases List.mem_append.mp among with passed | own
      · have ended := past x passed
        omega
      · rw [List.mem_singleton.mp own]
    have rest := ih placedTail passed room
    rw [← end_offset, List.append_assoc, List.singleton_append] at rest
    have place : p + (offset start seg - p + seg.data_.length) =
        offset start seg + seg.data_.length := by omega
    rw [bridge, size, picture_add, picture_add, ← gapBytes, ← ownBytes, rest, place]

private theorem placed_take (n : Nat) : Placed start p (tail.take n) := by
  induction tail generalizing p n with
  | nil =>
    rw [List.take_nil]
    trivial
  | cons seg tail ih =>
    cases n with
    | zero => trivial
    | succ n => exact ⟨placed.1, placed.2.1, ih placed.2.2 n⟩

end

private theorem placed_of_gapped {s : Seq} {g b : Nat} (lead : serialAt start g = s)
    (near : g < 2 ^ 31) (gapped : Gapped s b tail) : Placed start (g + b) tail := by
  induction tail generalizing b with
  | nil => trivial
  | cons seg tail ih =>
    obtain ⟨fits, above, -, -, gappedTail⟩ := gapped
    have short := fits.short
    have ordered := lo_le_hi (s := s) seg
    have length := length_eq fits
    have place : offset start seg = g + lo s seg := by
      have begins : seg.begin = serialAt start (g + lo s seg) := by
        rw [begin_eq fits, ← lead, serialAt, serialAt_add]
      have distance := toNat_serialAt_sub_of_le start (Nat.zero_le (g + lo s seg)) (by omega)
      rw [serialAt_zero] at distance
      rw [offset, begins, distance, Nat.sub_zero]
    have ends : offset start seg + seg.data_.length = g + hi s seg := by omega
    refine ⟨by omega, by omega, ?_⟩
    rw [ends]
    exact ih gappedTail

private theorem stop_take {last : Segment} {j : Nat} (here : segments[j]? = some last) :
    stop start p (segments.take (j + 1)) = offset start last + last.data_.length := by
  rw [stop, List.take_add_one, here]
  simp

end

section

variable {end_ : Seq} {maxMissingBytes : Nat} {first : Segment} {rest : List Segment}

def frontOf (end_ : Seq) (maxMissingBytes : Nat) (first : Segment) : Seq :=
  if (first.begin - end_).toNat ≤ maxMissingBytes then end_ else first.begin

private theorem final_fillFront (end_ : Seq) (maxMissingBytes : Nat) (first : Segment) :
    (fillFront end_ maxMissingBytes first).final_ = first.final_ := by
  rw [fillFront]
  dsimp only
  split_ifs <;> rfl

private theorem fillFront_solid (solid : first.data_ ≠ []) :
    (fillFront end_ maxMissingBytes first).data_ ≠ [] := by
  rw [fillFront]
  dsimp only
  split_ifs <;> simp [Segment.prepend, solid]

private theorem bridge_front (before : end_ = first.begin ∨ lessThan end_ first.begin = true)
    (tail : List Segment) :
    (fillFront end_ maxMissingBytes first).data_ ++ bridge first.end_ tail =
      bridge (frontOf end_ maxMissingBytes first) (first :: tail) := by
  rw [bridge, frontOf, fillFront]
  rcases before with rfl | less
  · have same : lessThan first.begin first.begin = false := by
      rw [Bool.eq_false_iff, ne_eq, lessThan_iff]
      exact fun both => both.1 rfl
    simp [same, zeros]
  · rw [if_pos less]
    dsimp only
    split
    · rfl
    · simp [zeros]

private theorem serialAt_frontOf (before : end_ = first.begin ∨ lessThan end_ first.begin = true) :
    ∃ g < 2 ^ 31, serialAt (frontOf end_ maxMissingBytes first) g = first.begin := by
  have near : (first.begin - end_).toNat < 2 ^ 31 := by
    rcases before with rfl | less
    · simp
    · exact ((lessThan_iff _ _).mp less).2
  rw [frontOf]
  split
  · refine ⟨_, near, ?_⟩
    rw [serialAt, BitVec.ofNat_toNat, BitVec.setWidth_eq, BitVec.add_comm, BitVec.sub_add_cancel]
  · exact ⟨0, by decide, serialAt_zero _⟩

private theorem hi_self (fits : Fits first.begin first) :
    hi first.begin first = first.data_.length := by
  have inside := fits.inside
  have distance : hi first.begin first = first.data_.length % 2 ^ 32 := by
    rw [hi, Segment.begin, sub_sub_cancel, narrow, BitVec.toNat_ofNat]
  omega

private theorem placed_cache {start : Seq} {g : Nat} (lead : serialAt start g = first.begin)
    (near : g < 2 ^ 31) (cache : Cache first rest) : Placed start 0 (first :: rest) := by
  have size := hi_self cache.fits
  have short := cache.fits.short
  have place : offset start first = g := by
    have distance := toNat_serialAt_sub_of_le start (Nat.zero_le g) (by omega)
    rw [serialAt_zero] at distance
    rw [offset, ← lead, distance, Nat.sub_zero]
  refine ⟨Nat.zero_le _, by omega, ?_⟩
  rw [place, ← size]
  exact placed_of_gapped lead near cache.gapped

private theorem picture_filled (cache : Cache first rest)
    (before : end_ = first.begin ∨ lessThan end_ first.begin = true) {j : Nat} {last : Segment}
    (here : (first :: rest)[j]? = some last) :
    (fillFront end_ maxMissingBytes first).data_ ++ bridge first.end_ (rest.take j) =
      picture ((first :: rest).take (j + 1)) (frontOf end_ maxMissingBytes first) 0
        (last.end_ - frontOf end_ maxMissingBytes first).toNat := by
  obtain ⟨g, near, lead⟩ := @serialAt_frontOf end_ maxMissingBytes first before
  have placed := placed_cache lead near cache
  generalize front : frontOf end_ maxMissingBytes first = start at lead placed
  have room := (placed_above placed last (List.mem_of_getElem? here)).2
  have size : (last.end_ - start).toNat = offset start last + last.data_.length := by
    have distance := toNat_serialAt_sub_of_le start
      (Nat.zero_le (offset start last + last.data_.length)) (by omega)
    rw [serialAt_zero] at distance
    rw [end_offset start last, distance, Nat.sub_zero]
  have shown := @bridge_eq_picture start [] _ 0 (placed_take placed (j + 1)) (by simp) (by decide)
  rw [serialAt_zero, stop_take here, Nat.sub_zero, List.nil_append] at shown
  rwa [bridge_front before, front, size]

end

/-- Filling the gaps keeps the data in place: the first segment goes as far as the gaps allow
and shows all bytes at their sequence numbers, and the other segments stay. -/
theorem addMissingData_fills (append : Append) (build : append = released ∨ append = asserted)
    (end_ : Seq) (maxMissingBytes : Nat) (first : Segment) (rest : List Segment)
    (cache : Cache first rest) (before : end_ = first.begin ∨ lessThan end_ first.begin = true) :
    ∃ j last filled, IsGreatest {j | Reach maxMissingBytes (first :: rest) j} j ∧
      (first :: rest)[j]? = some last ∧
      Settles (fun fuel => addMissingData append end_ maxMissingBytes fuel (first :: rest))
        (.done (filled :: rest.drop j)) ∧
      filled.begin = frontOf end_ maxMissingBytes first ∧ filled.end_ = last.end_ ∧
      filled.final_ = last.final_ ∧
      filled.data_ = picture ((first :: rest).take (j + 1))
        (frontOf end_ maxMissingBytes first) 0
        (last.end_ - frontOf end_ maxMissingBytes first).toNat := by
  have sameEnd := end_fillFront end_ maxMissingBytes first
  have sameFinal := final_fillFront end_ maxMissingBytes first
  have solid : (fillFront end_ maxMissingBytes first).data_ ≠ [] := fillFront_solid cache.filled
  have sameHi : hi first.begin (fillFront end_ maxMissingBytes first) = hi first.begin first := by
    rw [hi, sameEnd, hi]
  obtain ⟨stopped, settled⟩ := @settles_absorb maxMissingBytes
    (fillFront end_ maxMissingBytes first) rest append build first.begin (sameFinal ▸ cache.last)
    (sameHi ▸ cache.gapped)
  obtain ⟨j, last, greatest, here, absorbed⟩ :=
    @absorb_spec maxMissingBytes (fillFront end_ maxMissingBytes first) rest first.begin _
      cache.gapped solid
  obtain ⟨last', here', endLast, finalLast⟩ := exists_last here sameEnd sameFinal
  have reaches : {k | Reach maxMissingBytes (fillFront end_ maxMissingBytes first :: rest) k} =
      {k | Reach maxMissingBytes (first :: rest) k} :=
    Set.ext fun k => reach_congr sameEnd solid cache.filled
  have shown := @picture_filled end_ maxMissingBytes first rest cache before j last' here'
  rw [sameEnd] at absorbed
  refine ⟨j, last', ⟨last.end_, last.final_, (fillFront end_ maxMissingBytes first).data_ ++
    bridge first.end_ (rest.take j)⟩, reaches ▸ greatest, here', ?_, ?_, endLast.symm,
    finalLast.symm, shown⟩
  · have filled : first.data_.isEmpty = false := by
      rw [List.isEmpty_eq_false_iff]
      exact cache.filled
    rw [absorbed] at settled
    simp only [addMissingData, filled, Bool.false_eq_true, if_false]
    exact settled.map Filling.segments
  · have size : ((fillFront end_ maxMissingBytes first).data_ ++
        bridge first.end_ (rest.take j)).length =
        (last'.end_ - frontOf end_ maxMissingBytes first).toNat := by
      rw [shown, picture, List.length_map, List.length_range]
    show last.end_ - narrow ((fillFront end_ maxMissingBytes first).data_ ++
      bridge first.end_ (rest.take j)).length = _
    rw [size, narrow, BitVec.ofNat_toNat, BitVec.setWidth_eq, ← endLast, sub_sub_cancel]

/-- Two gaps of three and four bytes, and a final segment at the end. -/
theorem addMissingData_fills_both :
    let first : Segment := ⟨110, false, [1, 2]⟩
    let rest : List Segment := [⟨115, true, [3]⟩]
    Cache first rest ∧ lessThan 105 first.begin = true ∧
      ∃ j last filled, IsGreatest {j | Reach 4 (first :: rest) j} j ∧
        (first :: rest)[j]? = some last ∧
        Settles (fun fuel => addMissingData asserted 105 4 fuel (first :: rest))
          (.done (filled :: rest.drop j)) ∧ filled.begin = 105 := by
  intro first rest
  have cache : Cache first rest :=
    ⟨by decide, ⟨by decide, by decide⟩, by decide,
      ⟨⟨by decide, by decide⟩, by decide, by decide, by decide, trivial⟩⟩
  have before : lessThan 105 first.begin = true := by decide
  obtain ⟨j, last, filled, greatest, here, settled, begins, -⟩ :=
    addMissingData_fills asserted (.inr rfl) 105 4 first rest cache (.inr before)
  exact ⟨cache, before, j, last, filled, greatest, here, settled, begins.trans (by decide)⟩

end Libofp.Demux.GapFilling
