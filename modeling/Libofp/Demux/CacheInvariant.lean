/- GID: Libofp/Demux/CacheInvariant
   digest: Exactly when storing a segment keeps the invariant that the cache checks itself. -/

import Libofp.Demux.MissingData

/-!
The operations of the cache are run here as in a build with assertions, in which
`Segment::append` refuses to clear the final flag. All sequence numbers lie in one window
of less than half of the sequence space, so they are compared by their positions in it.
A cache that keeps the invariant is a chain: each segment begins where the one before it
ends or later. `store` keeps the chain, except where the segment that it makes longer
reaches further than the one neighbour that `update` repairs.
-/

set_option autoImplicit false

namespace Libofp.Demux.CacheInvariant

open Octets.ByteRange Base.Iteration Base.SerialSpace SegmentCache
open SegmentCache.Segment (lessThan)
open MissingData

/-- `SegmentCache::update`. -/
def updateWith (append : Append) (seg : Segment) : List Segment → Outcome (List Segment)
  | [] => .done [seg]
  | next :: rest =>
      if seg.end_ = next.begin then (append seg next.data_ next.final_).map (· :: rest)
      else if lessThan next.begin seg.end_ then
        (append seg (safeByteRange next.data_ (seg.end_ - next.begin).toNat) next.final_).map
          (· :: rest)
      else .done (seg :: next :: rest)

def withFront (new seg : Segment) : Segment :=
  if lessThan new.begin seg.begin then
    let newData := new.data_.take (min new.data_.length (seg.begin - new.begin).toNat)
    if newData.isEmpty then seg else seg.prepend newData
  else seg

/-- The branch of `store` for overlapping segments. -/
def overlapWith (append : Append) (new seg : Segment) (rest : List Segment) :
    Outcome (List Segment) :=
  let newData := safeByteRange new.data_ ((withFront new seg).end_ - new.begin).toNat
  if newData.isEmpty then .done (withFront new seg :: rest)
  else (append (withFront new seg) newData new.final_).bind fun seg => updateWith append seg rest

/-- The loop of `SegmentCache::store`. -/
def storeLoopWith (append : Append) (new : Segment) : List Segment → Outcome (List Segment)
  | [] => .done [new]
  | seg :: rest =>
      if new.begin = seg.end_ then
        if seg.final_ then .done (seg :: rest)
        else (append seg new.data_ new.final_).bind fun seg => updateWith append seg rest
      else if new.end_ = seg.begin then
        if new.final_ then .done (SegmentCache.insert new (seg :: rest))
        else .done (seg.prepend new.data_ :: rest)
      else if lessThan new.end_ seg.begin then .done (SegmentCache.insert new (seg :: rest))
      else if lessThan new.begin seg.end_ then overlapWith append new seg rest
      else if seg.final_ then .done (seg :: rest)
      else (storeLoopWith append new rest).map (seg :: ·)

/-- `SegmentCache::store`. -/
def storeWith (append : Append) (segments : List Segment) (end_ : Seq) (data : Bytes)
    (final : Bool) : Outcome (List Segment) :=
  if data.isEmpty && !final then .done segments
  else storeLoopWith append ⟨end_, final, data⟩ segments

def checkInvariant : List Segment → Bool
  | seg :: next :: rest =>
      if seg.end_ ≠ next.begin ∧ lessThan seg.end_ next.begin = false then false
      else if seg.data_.isEmpty && !seg.final_ then false
      else if seg.final_ then false
      else checkInvariant (next :: rest)
  | _ => true

theorem updateWith_released (seg : Segment) (rest : List Segment) :
    updateWith released seg rest = .done (update seg rest) := by
  cases rest with
  | nil => rfl
  | cons next rest =>
    simp only [updateWith, update, released, Outcome.map_done]
    split_ifs <;> rfl

private theorem storeLoopWith_released (new : Segment) (segments : List Segment) :
    storeLoopWith released new segments = .done (storeLoop new segments) := by
  induction segments with
  | nil => rfl
  | cons seg rest ih =>
    have overlapped : overlapWith released new seg rest = .done (overlap new seg rest) := by
      have unfolded : overlap new seg rest =
          if (safeByteRange new.data_ ((withFront new seg).end_ - new.begin).toNat).isEmpty then
            withFront new seg :: rest
          else update ((withFront new seg).append (safeByteRange new.data_
            ((withFront new seg).end_ - new.begin).toNat) new.final_) rest := rfl
      rw [unfolded]
      simp only [overlapWith, released, Outcome.bind_done, updateWith_released]
      split_ifs <;> rfl
    simp only [storeLoopWith, storeLoop, released, Outcome.bind_done, ih, Outcome.map_done]
    split_ifs
    · rfl
    · exact updateWith_released _ _
    · rfl
    · rfl
    · rfl
    · exact overlapped
    · rfl
    · rfl

theorem storeWith_released (segments : List Segment) (end_ : Seq) (data : Bytes) (final : Bool) :
    storeWith released segments end_ data final = .done (store segments end_ data final) := by
  simp only [storeWith, store, storeLoopWith_released]
  split_ifs <;> rfl

section

variable (s : Seq)

/-- The position of the end of a segment in the window that begins at `s`. -/
def hi (seg : Segment) : Nat := (seg.end_ - s).toNat

def lo (seg : Segment) : Nat := hi s seg - seg.data_.length

structure Fits (seg : Segment) : Prop where
  inside : seg.data_.length ≤ hi s seg
  short : hi s seg < 2 ^ 31

variable {s}

theorem lo_le_hi (seg : Segment) : lo s seg ≤ hi s seg := Nat.sub_le _ _

theorem end_eq (seg : Segment) : seg.end_ = serialAt s (hi s seg) := by
  rw [serialAt, hi, BitVec.ofNat_toNat, BitVec.setWidth_eq, BitVec.add_comm,
    BitVec.sub_add_cancel]

variable {seg : Segment} {data : Bytes}

theorem begin_eq (fits : Fits s seg) : seg.begin = serialAt s (lo s seg) := by
  rw [Segment.begin, end_eq (s := s) seg, narrow, serialAt_sub s fits.inside, lo]

theorem length_eq (fits : Fits s seg) :
    seg.data_.length = hi s seg - lo s seg := by
  have inside := fits.inside
  rw [lo]
  omega

private theorem hi_eq {p : Nat} (end_ : seg.end_ = serialAt s p) (short : p < 2 ^ 31) :
    hi s seg = p := by
  have distance := toNat_serialAt_sub_of_le s (Nat.zero_le p) (show p - 0 < 2 ^ 32 by omega)
  rw [serialAt_zero] at distance
  rw [hi, end_, distance, Nat.sub_zero]

section

variable {p q : Segment} (fitsP : Fits s p) (fitsQ : Fits s q)

include fitsP in
theorem Fits.lo_lt : lo s p < 2 ^ 31 := Nat.lt_of_le_of_lt (lo_le_hi p) fitsP.short

include fitsP fitsQ

theorem end_eq_begin_iff : p.end_ = q.begin ↔ hi s p = lo s q := by
  have short := fitsP.short
  have shortQ := fitsQ.lo_lt
  rw [end_eq (s := s) p, begin_eq fitsQ]
  exact serialAt_eq_iff s (by omega) (by omega)

theorem end_lessThan_begin_iff : lessThan p.end_ q.begin = true ↔ hi s p < lo s q := by
  rw [end_eq (s := s) p, begin_eq fitsQ]
  exact lessThan_serialAt s fitsP.short fitsQ.lo_lt

theorem begin_lessThan_end_iff : lessThan p.begin q.end_ = true ↔ lo s p < hi s q := by
  rw [begin_eq fitsP, end_eq (s := s) q]
  exact lessThan_serialAt s fitsP.lo_lt fitsQ.short

theorem toNat_end_sub_begin (ahead : lo s q ≤ hi s p) :
    (p.end_ - q.begin).toNat = hi s p - lo s q := by
  have short := fitsP.short
  rw [end_eq (s := s) p, begin_eq fitsQ]
  exact toNat_serialAt_sub_of_le s ahead (by omega)

end

theorem append_spec (fits : Fits s seg) (final : Bool) (short : hi s seg + data.length < 2 ^ 31) :
    Fits s (seg.append data final) ∧ lo s (seg.append data final) = lo s seg ∧
      hi s (seg.append data final) = hi s seg + data.length := by
  have inside := fits.inside
  have top : hi s (seg.append data final) = hi s seg + data.length := by
    refine hi_eq ?_ short
    rw [← serialAt_add, ← end_eq seg]
    rfl
  have length : (seg.append data final).data_.length = seg.data_.length + data.length :=
    List.length_append
  refine ⟨⟨by omega, by omega⟩, ?_, top⟩
  rw [lo, lo]
  omega

@[simp] theorem hi_prepend (seg : Segment) (data : Bytes) :
    hi s (seg.prepend data) = hi s seg := rfl

theorem lo_prepend (seg : Segment) (data : Bytes) :
    lo s (seg.prepend data) = lo s seg - data.length := by
  rw [lo, hi_prepend, lo, Segment.prepend, List.length_append]
  omega

theorem fits_prepend (fits : Fits s seg)
    (room : data.length ≤ lo s seg) : Fits s (seg.prepend data) := by
  have length := length_eq fits
  have ordered := lo_le_hi (s := s) seg
  constructor
  · rw [hi_prepend, Segment.prepend, List.length_append]
    omega
  · exact fits.short

theorem hi_consume (seg : Segment) (len : Nat) : hi s (seg.consume len) = hi s seg := rfl

private theorem lo_consume (fits : Fits s seg) {len : Nat}
    (part : len ≤ seg.data_.length) : lo s (seg.consume len) = lo s seg + len := by
  have inside := fits.inside
  rw [lo, hi_consume, lo, Segment.consume, List.length_drop]
  omega

end

section

variable (s : Seq)

/-- From position `b` on, the segments follow each other without overlap, only the last
one is final and only a final one is empty. -/
def Chain : Nat → List Segment → Prop
  | _, [] => True
  | b, seg :: rest =>
      Fits s seg ∧ b ≤ lo s seg ∧ (seg.final_ = false → lo s seg < hi s seg) ∧
        (seg.final_ = true → rest = []) ∧ Chain (hi s seg) rest

/-- `update` can repair the cache after a segment has been made longer, up to position `b`,
and has the final flag `final`. -/
def Room (b : Nat) (final : Bool) : List Segment → Prop
  | [] => True
  | [next] => final = true → next.final_ = true ∧ lo s next ≤ b
  | _ :: second :: _ => final = false ∧ b ≤ lo s second

/-- The new segment can be stored: at the first cached segment that it adjoins or overlaps
from behind, it does not append to a final segment and leaves room behind. -/
def Storable (new : Segment) : List Segment → Prop
  | [] => True
  | seg :: rest =>
      if lo s new = hi s seg then seg.final_ = true ∨ Room s (hi s new) new.final_ rest
      else if hi s new ≤ lo s seg then True
      else if lo s new < hi s seg then
        hi s new ≤ hi s seg ∨
          ((seg.final_ = true → new.final_ = true) ∧ Room s (hi s new) new.final_ rest)
      else seg.final_ = true ∨ Storable new rest

instance decidableRoom (b : Nat) (final : Bool) :
    ∀ segments : List Segment, Decidable (Room s b final segments)
  | [] => inferInstanceAs (Decidable True)
  | [next] => inferInstanceAs (Decidable (final = true → next.final_ = true ∧ lo s next ≤ b))
  | _ :: second :: _ => inferInstanceAs (Decidable (final = false ∧ b ≤ lo s second))

instance decidableStorable (new : Segment) :
    ∀ segments : List Segment, Decidable (Storable s new segments)
  | [] => inferInstanceAs (Decidable True)
  | seg :: rest =>
      have := decidableStorable new rest
      inferInstanceAs (Decidable (if lo s new = hi s seg then _ else if hi s new ≤ lo s seg then
        True else if lo s new < hi s seg then _ else _))

variable {s}

variable {b : Nat} {segments rest : List Segment} {seg : Segment}

theorem chain_mono {c : Nat} (le : c ≤ b) (chain : Chain s b segments) : Chain s c segments := by
  cases segments with
  | nil => trivial
  | cons seg rest => exact ⟨chain.1, le_trans le chain.2.1, chain.2.2⟩

theorem chain_fits (chain : Chain s b segments) :
    ∀ seg ∈ segments, Fits s seg := by
  induction segments generalizing b with
  | nil => exact List.forall_mem_nil _
  | cons first rest ih => exact List.forall_mem_cons.mpr ⟨chain.1, ih chain.2.2.2.2⟩

theorem not_final {next : Segment} (last : seg.final_ = true → next :: rest = []) :
    seg.final_ = false :=
  Bool.eq_false_iff.mpr fun flag => List.cons_ne_nil _ _ (last flag)

/-- What is known after a step of the cache: it went wrong just when the condition fails,
and otherwise it left segments that form a chain just when the condition holds. -/
def Result (b : Nat) (condition : Prop) (outcome : Outcome (List Segment)) : Prop :=
  (outcome = .fault ∧ ¬ condition) ∨
    ∃ segments, outcome = .done segments ∧ (∀ seg ∈ segments, Fits s seg) ∧
      (Chain s b segments ↔ condition)

theorem asserted_append {data : Bytes} {final : Bool} (ok : seg.final_ = true → final = true) :
    asserted seg data final = .done (seg.append data final) := by
  cases flag : seg.final_ with
  | false => simp [asserted, flag]
  | true => simp [asserted, ok flag]

theorem asserted_cases (seg : Segment) (data : Bytes) (final : Bool) :
    asserted seg data final = .fault ∧ seg.final_ = true ∧ final = false ∨
      asserted seg data final = .done (seg.append data final) ∧
        (seg.final_ = true → final = true) := by
  cases flag : seg.final_ <;> cases final <;> simp [asserted, flag]

theorem result_updateWith {c : Nat} {g : Segment} (fits : Fits s g) (above : b ≤ lo s g)
    (solid : g.final_ = false → lo s g < hi s g) (from_ : lo s g ≤ c) (chain : Chain s c rest) :
    Result (s := s) b (Room s (hi s g) g.final_ rest) (updateWith asserted g rest) := by
  cases rest with
  | nil =>
    refine Or.inr ⟨[g], rfl, List.forall_mem_singleton.mpr fits, fun _ => trivial, fun _ => ?_⟩
    exact ⟨fits, above, solid, fun _ => rfl, trivial⟩
  | cons q rest =>
    have fitsAll := chain_fits chain
    obtain ⟨fitsQ, aboveQ, solidQ, lastQ, chainQ⟩ := chain
    have shortQ := fitsQ.short
    have shortG := fits.short
    have lengthQ := length_eq fitsQ
    have meets := end_eq_begin_iff fits fitsQ
    have overlaps := begin_lessThan_end_iff fitsQ fits
    by_cases reaches : lo s q ≤ hi s g
    · -- The bytes of `q` behind the end of `g` are appended, with the flag of `q`.
      have tail : updateWith asserted g (q :: rest) =
          (asserted g (q.data_.drop (hi s g - lo s q)) q.final_).map (· :: rest) := by
        by_cases same : hi s g = lo s q
        · simp only [updateWith, if_pos (meets.mpr same), same, Nat.sub_self, List.drop_zero]
        · have inside : lo s q < hi s g := by omega
          have distance := toNat_end_sub_begin fits fitsQ reaches
          simp only [updateWith, if_neg (mt meets.mp same), if_pos (overlaps.mpr inside),
            safeByteRange_eq_drop, distance]
      rw [tail]
      rcases asserted_cases g (q.data_.drop (hi s g - lo s q)) q.final_ with
        ⟨fault, clears, more⟩ | ⟨done, ok⟩
      · refine Or.inl ⟨by rw [fault, Outcome.map_fault], ?_⟩
        cases rest with
        | nil => simp [Room, clears, more]
        | cons r rest => simp [Room, clears]
      · rw [done, Outcome.map_done]
        have length : (q.data_.drop (hi s g - lo s q)).length = hi s q - max (hi s g) (lo s q) := by
          rw [List.length_drop, lengthQ]
          omega
        obtain ⟨grown, bottom, top⟩ := append_spec fits q.final_
          (show hi s g + (q.data_.drop (hi s g - lo s q)).length < 2 ^ 31 by omega)
        have flag : (g.append (q.data_.drop (hi s g - lo s q)) q.final_).final_ = q.final_ := rfl
        generalize g.append (q.data_.drop (hi s g - lo s q)) q.final_ = grow at *
        refine Or.inr ⟨_, rfl, List.forall_mem_cons.mpr ⟨grown, chain_fits chainQ⟩, ?_⟩
        cases rest with
        | nil =>
          simp only [Room, Chain]
          grind
        | cons r rest =>
          have notLast := not_final lastQ
          simp only [Room, Chain] at chainQ ⊢
          grind
    · have behind : updateWith asserted g (q :: rest) = .done (g :: q :: rest) := by
        have apart : ¬ hi s g = lo s q := by omega
        have before : ¬ lo s q < hi s g := by omega
        simp only [updateWith, if_neg (mt meets.mp apart), if_neg (mt overlaps.mp before)]
      refine Or.inr ⟨_, behind, ?_, ?_⟩
      · exact List.forall_mem_cons.mpr ⟨fits, fitsAll⟩
      · cases rest with
        | nil =>
          simp only [Room, Chain]
          grind
        | cons r rest =>
          simp only [Room, Chain] at chainQ ⊢
          grind

private theorem withFront_spec {new : Segment} (fitsNew : Fits s new) (fits : Fits s seg)
    (above : lo s seg < hi s new) :
    Fits s (withFront new seg) ∧ lo s (withFront new seg) = min (lo s seg) (lo s new) ∧
      hi s (withFront new seg) = hi s seg ∧ (withFront new seg).final_ = seg.final_ := by
  have shortNew := fitsNew.short
  have orderedNew := lo_le_hi (s := s) new
  have lengthNew := length_eq fitsNew
  have before : lessThan new.begin seg.begin = true ↔ lo s new < lo s seg := by
    rw [begin_eq fitsNew, begin_eq fits]
    exact lessThan_serialAt s (by omega) (by omega)
  by_cases earlier : lo s new < lo s seg
  · have distance : (seg.begin - new.begin).toNat = lo s seg - lo s new := by
      rw [begin_eq fitsNew, begin_eq fits]
      exact toNat_serialAt_sub_of_le s (by omega) (by omega)
    have length : (new.data_.take (min new.data_.length (lo s seg - lo s new))).length =
        lo s seg - lo s new := by
      rw [List.length_take]
      omega
    have nonempty :
        (new.data_.take (min new.data_.length (lo s seg - lo s new))).isEmpty = false := by
      rw [List.isEmpty_eq_false_iff, ← List.length_pos_iff]
      omega
    have front : withFront new seg =
        seg.prepend (new.data_.take (min new.data_.length (lo s seg - lo s new))) := by
      simp only [withFront, if_pos (before.mpr earlier), distance, nonempty, Bool.false_eq_true,
        if_false]
    rw [front]
    refine ⟨fits_prepend fits (by omega), ?_, rfl, rfl⟩
    rw [lo_prepend, length]
    omega
  · have same : withFront new seg = seg := by
      simp only [withFront, if_neg (mt before.mp earlier)]
    rw [same]
    exact ⟨fits, by omega, rfl, rfl⟩

private theorem result_overlapWith {new : Segment} (fitsNew : Fits s new) (aboveNew : b ≤ lo s new)
    (chain : Chain s b (seg :: rest)) (above : lo s seg < hi s new) (below : lo s new < hi s seg) :
    Result (s := s) b
      (hi s new ≤ hi s seg ∨
        ((seg.final_ = true → new.final_ = true) ∧ Room s (hi s new) new.final_ rest))
      (overlapWith asserted new seg rest) := by
  obtain ⟨fits, aboveSeg, solid, last, chainRest⟩ := chain
  obtain ⟨fitsFront, loFront, hiFront, flagFront⟩ := withFront_spec fitsNew fits above
  have shortNew := fitsNew.short
  have distance : ((withFront new seg).end_ - new.begin).toNat = hi s seg - lo s new := by
    rw [toNat_end_sub_begin fitsFront fitsNew (by omega), hiFront]
  have length : (new.data_.drop (hi s seg - lo s new)).length = hi s new - hi s seg := by
    rw [List.length_drop, length_eq fitsNew]
    omega
  by_cases covered : hi s new ≤ hi s seg
  · have empty : (new.data_.drop (hi s seg - lo s new)).isEmpty = true := by
      rw [List.isEmpty_iff, ← List.length_eq_zero_iff]
      omega
    have kept : overlapWith asserted new seg rest = .done (withFront new seg :: rest) := by
      simp [overlapWith, safeByteRange_eq_drop, distance, empty]
    refine Or.inr ⟨_, kept, ?_, ?_⟩
    · exact List.forall_mem_cons.mpr ⟨fitsFront, chain_fits chainRest⟩
    · refine ⟨fun _ => Or.inl covered, fun _ => ⟨fitsFront, by omega, fun _ => by omega, ?_, ?_⟩⟩
      · rwa [flagFront]
      · rwa [hiFront]
  · have nonempty : (new.data_.drop (hi s seg - lo s new)).isEmpty = false := by
      rw [List.isEmpty_eq_false_iff, ← List.length_pos_iff]
      omega
    have grows : overlapWith asserted new seg rest =
        (asserted (withFront new seg) (new.data_.drop (hi s seg - lo s new)) new.final_).bind
          fun seg => updateWith asserted seg rest := by
      simp [overlapWith, safeByteRange_eq_drop, distance, nonempty]
    rw [grows]
    rcases asserted_cases (withFront new seg) (new.data_.drop (hi s seg - lo s new)) new.final_ with
      ⟨fault, clears, more⟩ | ⟨done, ok⟩
    · refine Or.inl ⟨by rw [fault, Outcome.bind_fault], ?_⟩
      rw [flagFront] at clears
      simp [covered, clears, more]
    · rw [flagFront] at ok
      obtain ⟨grown, bottom, top⟩ := append_spec fitsFront new.final_
        (show hi s (withFront new seg) + (new.data_.drop (hi s seg - lo s new)).length < 2 ^ 31 by
          omega)
      have updated := result_updateWith (b := b) (c := hi s seg) grown (by omega) (by omega)
        (by omega) chainRest
      rw [top, hiFront, length, Nat.add_sub_cancel' (by omega)] at updated
      rw [done, Outcome.bind_done]
      have condition : Room s (hi s new) new.final_ rest ↔
          (hi s new ≤ hi s seg ∨
            ((seg.final_ = true → new.final_ = true) ∧ Room s (hi s new) new.final_ rest)) := by
        rw [or_iff_right covered, and_iff_right ok]
      rwa [← condition]

private theorem result_storeLoopWith {new : Segment}
    (fitsNew : Fits s new) (solidNew : new.final_ = false → lo s new < hi s new)
    (aboveNew : b ≤ lo s new) (chain : Chain s b segments) :
    Result (s := s) b (Storable s new segments) (storeLoopWith asserted new segments) := by
  induction segments generalizing b with
  | nil =>
    refine Or.inr ⟨[new], rfl, List.forall_mem_singleton.mpr fitsNew, fun _ => trivial, fun _ => ?_⟩
    exact ⟨fitsNew, aboveNew, solidNew, fun _ => rfl, trivial⟩
  | cons seg rest ih =>
    have wholeChain := chain
    have fitsAll := chain_fits chain
    obtain ⟨fits, above, solid, last, chainRest⟩ := chain
    have shortNew := fitsNew.short
    have ordered := lo_le_hi (s := s) seg
    have orderedNew := lo_le_hi (s := s) new
    have follows : new.begin = seg.end_ ↔ lo s new = hi s seg := by
      rw [eq_comm, end_eq_begin_iff fits fitsNew, eq_comm]
    have precedes := end_eq_begin_iff fitsNew fits
    have before := end_lessThan_begin_iff fitsNew fits
    have overlaps := begin_lessThan_end_iff fitsNew fits
    have unchanged : Result (s := s) b True (.done (seg :: rest)) :=
      Or.inr ⟨_, rfl, fitsAll, fun _ => trivial, fun _ => wholeChain⟩
    simp only [storeLoopWith, Storable, follows, precedes, before, overlaps]
    by_cases adjoins : lo s new = hi s seg
    · rw [if_pos adjoins, if_pos adjoins]
      cases flag : seg.final_ with
      | true => simpa using unchanged
      | false =>
        have length := length_eq fitsNew
        obtain ⟨grown, bottom, top⟩ := append_spec fits new.final_
          (show hi s seg + new.data_.length < 2 ^ 31 by omega)
        have inside := solid flag
        have updated := result_updateWith (b := b) (c := hi s seg) grown (by omega) (by omega)
          (by omega) chainRest
        rw [top, show hi s seg + new.data_.length = hi s new by omega] at updated
        have fine : seg.final_ = true → new.final_ = true := by simp [flag]
        rw [asserted_append fine, Outcome.bind_done]
        simp only [Bool.false_eq_true, false_or, if_false]
        exact updated
    · rw [if_neg adjoins, if_neg adjoins]
      by_cases early : hi s new ≤ lo s seg
      · -- The new segment goes before the cached one, or becomes its first part.
        rw [if_pos early]
        have inserted : Result (s := s) b True (.done (SegmentCache.insert new (seg :: rest))) := by
          refine Or.inr ⟨_, rfl, ?_, fun _ => trivial, fun _ => ?_⟩
          · unfold SegmentCache.insert
            split_ifs
            · exact List.forall_mem_singleton.mpr fitsNew
            · exact List.forall_mem_cons.mpr ⟨fitsNew, fitsAll⟩
          · unfold SegmentCache.insert
            split_ifs with flag
            · exact ⟨fitsNew, aboveNew, solidNew, fun _ => rfl, trivial⟩
            · exact ⟨fitsNew, aboveNew, solidNew, fun final => absurd final flag, fits, early,
                solid, last, chainRest⟩
        by_cases touches : hi s new = lo s seg
        · rw [if_pos touches]
          cases flag : new.final_ with
          | true => exact inserted
          | false =>
            have length := length_eq fitsNew
            have fitsFront : Fits s (seg.prepend new.data_) := fits_prepend fits (by omega)
            have front : lo s (seg.prepend new.data_) = lo s new := by
              rw [lo_prepend]
              omega
            refine Or.inr ⟨_, rfl, ?_, fun _ => trivial, fun _ => ?_⟩
            · exact List.forall_mem_cons.mpr ⟨fitsFront, chain_fits chainRest⟩
            · refine ⟨fitsFront, by omega, ?_, last, chainRest⟩
              intro _
              rw [front, hi_prepend]
              omega
        · rwa [if_neg touches, if_pos (by omega)]
      · rw [if_neg early, if_neg (show ¬ hi s new = lo s seg by omega),
          if_neg (show ¬ hi s new < lo s seg by omega)]
        by_cases inside : lo s new < hi s seg
        · simp only [if_pos inside]
          exact result_overlapWith fitsNew aboveNew wholeChain (by omega) inside
        · rw [if_neg inside, if_neg inside]
          cases flag : seg.final_ with
          | true => simpa using unchanged
          | false =>
            rcases ih (b := hi s seg) (by omega) chainRest with
              ⟨fault, fails⟩ | ⟨stored, done, fitsStored, condition⟩
            · refine Or.inl ⟨?_, ?_⟩
              · simp [fault]
              · simpa using fails
            · refine Or.inr ⟨seg :: stored, by simp [done], ?_, ?_⟩
              · exact List.forall_mem_cons.mpr ⟨fits, fitsStored⟩
              · simp only [Chain, fits, above, flag, condition, true_and, Bool.false_eq_true,
                  false_or, false_implies]
                exact ⟨fun chain => chain.2, fun storable => ⟨fun _ => solid flag, storable⟩⟩

private theorem chain_fillFront {end_ : Seq} (below : b ≤ (end_ - s).toNat)
    (short : (end_ - s).toNat < 2 ^ 31) (chain : Chain s b (seg :: rest)) (maxMissingBytes : Nat) :
    Chain s b (fillFront end_ maxMissingBytes seg :: rest) := by
  have wholeChain := chain
  obtain ⟨fits, above, solid, last, chainRest⟩ := chain
  have ordered := lo_le_hi (s := s) seg
  have shortSeg := fits.short
  have position : end_ = serialAt s (end_ - s).toNat := end_eq ⟨end_, false, []⟩
  have before : lessThan end_ seg.begin = true ↔ (end_ - s).toNat < lo s seg := by
    rw [begin_eq fits]
    conv_lhs => rw [position]
    exact lessThan_serialAt s short (by omega)
  by_cases gap : (end_ - s).toNat < lo s seg
  · have distance : (seg.begin - end_).toNat = lo s seg - (end_ - s).toNat := by
      rw [begin_eq fits]
      conv_lhs => rw [position]
      exact toNat_serialAt_sub_of_le s (by omega) (by omega)
    by_cases small : lo s seg - (end_ - s).toNat ≤ maxMissingBytes
    · have front : fillFront end_ maxMissingBytes seg =
          seg.prepend (zeros (lo s seg - (end_ - s).toNat)) := by
        simp only [fillFront, if_pos (before.mpr gap), distance, if_pos small]
      have length : (zeros (lo s seg - (end_ - s).toNat)).length = lo s seg - (end_ - s).toNat :=
        List.length_replicate
      have bottom := lo_prepend (s := s) seg (zeros (lo s seg - (end_ - s).toNat))
      rw [front]
      refine ⟨fits_prepend fits (by omega), by omega, ?_, last, chainRest⟩
      intro flag
      rw [hi_prepend]
      omega
    · simpa only [fillFront, if_pos (before.mpr gap), distance, if_neg small] using wholeChain
  · rwa [fillFront, if_neg (mt before.mp gap)]

private theorem chain_join {first second : Segment} (chain : Chain s b (first :: second :: rest)) :
    Chain s b ((first.append (zeros (lo s second - hi s first)) false).append second.data_
      second.final_ :: rest) := by
  obtain ⟨fits, above, solid, last, fitsSecond, aboveSecond, solidSecond, lastSecond, chainRest⟩ :=
    chain
  have notLast := not_final last
  have inside := solid notLast
  have shortSecond := fitsSecond.short
  have ordered := lo_le_hi (s := s) second
  have lengthSecond := length_eq fitsSecond
  have lengthGap : (zeros (lo s second - hi s first)).length = lo s second - hi s first :=
    List.length_replicate
  obtain ⟨fitsGap, bottomGap, topGap⟩ := append_spec fits false
    (show hi s first + (zeros (lo s second - hi s first)).length < 2 ^ 31 by omega)
  obtain ⟨fitsAll, bottom, top⟩ := append_spec fitsGap second.final_
    (show _ + second.data_.length < 2 ^ 31 by omega)
  refine ⟨fitsAll, by omega, by omega, lastSecond, chain_mono (by omega) chainRest⟩

private theorem fillTurn_chain {maxMissingBytes : Nat} {state : Filling}
    (chain : Chain s b state.segments) (more : state.more = true) :
    ∃ state', fillTurn asserted maxMissingBytes state = .done state' ∧
      Chain s b state'.segments := by
  obtain ⟨segments, stopped⟩ := state
  match segments, more with
  | [], more => simp [Filling.more] at more
  | [_], more => simp [Filling.more] at more
  | first :: second :: rest, _ =>
    have joined := chain_join chain
    obtain ⟨fits, -, solid, last, fitsSecond, aboveSecond, -⟩ := id chain
    have notLast := not_final last
    have distance : (second.begin - first.end_).toNat = lo s second - hi s first := by
      rw [end_eq (s := s) first, begin_eq fitsSecond]
      have short := fitsSecond.short
      have ordered := lo_le_hi (s := s) second
      exact toNat_serialAt_sub_of_le s aboveSecond (by omega)
    have fill : (asserted first (zeros (lo s second - hi s first)) false).bind (fun first =>
        (asserted first second.data_ second.final_).map fun first =>
          (⟨first :: rest, stopped⟩ : Filling)) =
        .done ⟨(first.append (zeros (lo s second - hi s first)) false).append second.data_
          second.final_ :: rest, stopped⟩ := by
      rw [asserted_append (by simp [notLast]), Outcome.bind_done,
        asserted_append (by simp [Segment.append]), Outcome.map_done]
    simp only [fillTurn, distance, fill]
    split_ifs
    · exact ⟨_, rfl, chain⟩
    · exact ⟨_, rfl, chain⟩
    · exact ⟨_, rfl, joined⟩
    · exact ⟨_, rfl, chain⟩

private theorem addMissingData_chain {end_ : Seq} (short : (end_ - s).toNat < 2 ^ 31)
    (chain : Chain s 0 segments) (maxMissingBytes fuel : Nat) :
    addMissingData asserted end_ maxMissingBytes fuel segments = .running ∨
      ∃ filled, addMissingData asserted end_ maxMissingBytes fuel segments = .done filled ∧
        Chain s 0 filled := by
  cases segments with
  | nil => exact Or.inr ⟨[], rfl, trivial⟩
  | cons seg rest =>
    simp only [addMissingData]
    split_ifs
    · exact Or.inr ⟨_, rfl, chain⟩
    · have front := chain_fillFront (Nat.zero_le _) short chain maxMissingBytes
      have start : Chain s 0 (Filling.mk (fillFront end_ maxMissingBytes seg :: rest)
        false).segments := front
      rcases whileLoop_keeps (fun state : Filling => Chain s 0 state.segments)
          (fun state kept more => fillTurn_chain kept more) start fuel with
        running | ⟨state, done, kept⟩
      · exact Or.inl (by rw [running, Outcome.map_running])
      · exact Or.inr ⟨state.segments, by rw [done, Outcome.map_done], kept⟩

variable (s) in
/-- The invariant that the cache is meant to keep: `checkInvariant`, and what it stands
for. -/
structure Sound (segments : List Segment) : Prop where
  checked : checkInvariant segments = true
  sorted : segments.Pairwise fun p q => hi s p ≤ lo s q
  solid : ∀ seg ∈ segments, seg.final_ = false → seg.data_ ≠ []

theorem checkInvariant_cons_cons {next : Segment} (fits : Fits s seg) (fitsNext : Fits s next) :
    checkInvariant (seg :: next :: rest) = true ↔
      hi s seg ≤ lo s next ∧ seg.data_ ≠ [] ∧ seg.final_ = false ∧
        checkInvariant (next :: rest) = true := by
  have disorder : (seg.end_ ≠ next.begin ∧ lessThan seg.end_ next.begin = false) ↔
      ¬ hi s seg ≤ lo s next := by
    rw [ne_eq, end_eq_begin_iff fits fitsNext, ← Bool.not_eq_true,
      end_lessThan_begin_iff fits fitsNext]
    omega
  simp only [checkInvariant, disorder]
  cases seg.final_ with
  | true => simp
  | false =>
    by_cases order : hi s seg ≤ lo s next
    · simp [order]
    · simp [order]

private theorem chain_iff (fits : ∀ seg ∈ segments, Fits s seg) :
    Chain s b segments ↔ (∀ seg ∈ segments, b ≤ lo s seg) ∧ Sound s segments := by
  induction segments generalizing b with
  | nil => exact ⟨fun _ => ⟨nofun, rfl, .nil, nofun⟩, fun _ => trivial⟩
  | cons seg rest ih =>
    have fitsSeg := fits seg List.mem_cons_self
    have fitsRest : ∀ other ∈ rest, Fits s other :=
      fun other member => fits other (List.mem_cons_of_mem _ member)
    have nonempty : seg.data_ ≠ [] ↔ lo s seg < hi s seg := by
      have length := length_eq fitsSeg
      rw [← List.length_pos_iff, length]
      omega
    have ordered := lo_le_hi (s := s) seg
    rw [Chain, ih fitsRest]
    constructor
    · rintro ⟨-, above, solid, last, behind, sound⟩
      refine ⟨?_, ?_, ?_, ?_⟩
      · intro other member
        rcases List.mem_cons.mp member with rfl | later
        · exact above
        · have := behind other later
          omega
      · cases rest with
        | nil => rfl
        | cons next rest =>
          have notLast := not_final last
          rw [checkInvariant_cons_cons fitsSeg (fitsRest next List.mem_cons_self)]
          exact ⟨behind next List.mem_cons_self, nonempty.mpr (solid notLast), notLast,
            sound.checked⟩
      · exact List.pairwise_cons.mpr ⟨behind, sound.sorted⟩
      · intro other member flag
        rcases List.mem_cons.mp member with rfl | later
        · exact nonempty.mpr (solid flag)
        · exact sound.solid other later flag
    · rintro ⟨above, sound⟩
      obtain ⟨behind, sorted⟩ := List.pairwise_cons.mp sound.sorted
      refine ⟨fitsSeg, above seg List.mem_cons_self,
        fun flag => nonempty.mp (sound.solid seg List.mem_cons_self flag), ?_, behind, ?_, sorted,
        fun other member => sound.solid other (List.mem_cons_of_mem _ member)⟩
      · intro flag
        cases rest with
        | nil => rfl
        | cons next rest =>
          have checked := (checkInvariant_cons_cons fitsSeg
            (fitsRest next List.mem_cons_self)).mp sound.checked
          rw [checked.2.2.1] at flag
          cases flag
      · cases rest with
        | nil => rfl
        | cons next rest =>
          exact ((checkInvariant_cons_cons fitsSeg
            (fitsRest next List.mem_cons_self)).mp sound.checked).2.2.2

theorem chain_zero_iff (fits : ∀ seg ∈ segments, Fits s seg) :
    Chain s 0 segments ↔ Sound s segments := by
  rw [chain_iff fits]
  exact ⟨fun both => both.2, fun sound => ⟨fun _ _ => Nat.zero_le _, sound⟩⟩

end

inductive Op
  | store (end_ : Seq) (data : Bytes) (final : Bool)
  | consume (len : Nat)
  | addMissingData (end_ : Seq) (maxMissingBytes : Nat)
  deriving DecidableEq

/-- The call in a build with the assertion in `Segment::append`; a failing assertion is a
fault, and `fuel` bounds the turns of the loop in `addMissingData`. -/
def Op.run (fuel : Nat) : Op → List Segment → Outcome (List Segment)
  | .store end_ data final, segments => storeWith asserted segments end_ data final
  | .consume len, segments => .done (SegmentCache.consume len segments)
  | .addMissingData end_ maxMissingBytes, segments =>
      MissingData.addMissingData asserted end_ maxMissingBytes fuel segments

def runOps (fuel : Nat) (ops : List Op) : Outcome (List Segment) :=
  ops.foldl (fun outcome op => outcome.bind (op.run fuel)) (.done [])

/-- The sequence numbers of the call lie in the window that begins at `s`. -/
def Op.InWindow (s : Seq) : Op → Prop
  | .store end_ data final => Fits s ⟨end_, final, data⟩
  | .consume _ => True
  | .addMissingData end_ _ => (end_ - s).toNat < 2 ^ 31

def Op.Allowed (s : Seq) (segments : List Segment) : Op → Prop
  | .store end_ data final =>
      data = [] ∧ final = false ∨ Storable s ⟨end_, final, data⟩ segments
  | .consume _ => True
  | .addMissingData _ _ => True

/-- No assertion failed, and where the calls returned the cache keeps its invariant. -/
def Holds (s : Seq) : Outcome (List Segment) → Prop
  | .done segments => Sound s segments
  | .fault => False
  | .running => True

section

variable {s : Seq}

variable {segments : List Segment}

theorem result_storeWith (chain : Chain s 0 segments) {end_ : Seq}
    {data : Bytes} {final : Bool} (fits : Fits s ⟨end_, final, data⟩) :
    Result (s := s) 0 (data = [] ∧ final = false ∨ Storable s ⟨end_, final, data⟩ segments)
      (storeWith asserted segments end_ data final) := by
  by_cases ignored : data = [] ∧ final = false
  · refine Or.inr ⟨segments, ?_, chain_fits chain, ?_⟩
    · simp [storeWith, ignored.1, ignored.2]
    · exact ⟨fun _ => Or.inl ignored, fun _ => chain⟩
  · have kept : (data.isEmpty && !final) = false := by
      rwa [← Bool.not_eq_true, Bool.and_eq_true, List.isEmpty_iff, Bool.not_eq_true']
    have solid : final = false →
        lo s ⟨end_, final, data⟩ < hi s ⟨end_, final, data⟩ := by
      intro flag
      have nonempty : 0 < data.length := List.length_pos_iff.mpr fun empty => ignored ⟨empty, flag⟩
      have length : data.length = _ := length_eq fits
      omega
    simp only [storeWith, kept, Bool.false_eq_true, if_false]
    have condition : (data = [] ∧ final = false ∨ Storable s ⟨end_, final, data⟩ segments) ↔
        Storable s ⟨end_, final, data⟩ segments :=
      ⟨fun either => either.resolve_left ignored, Or.inr⟩
    rw [condition]
    exact result_storeLoopWith fits solid (Nat.zero_le _) chain

private theorem chain_consume {b : Nat} (len : Nat) (chain : Chain s b segments) :
    Chain s b (SegmentCache.consume len segments) := by
  cases segments with
  | nil => trivial
  | cons seg rest =>
    have ordered := lo_le_hi (s := s) seg
    obtain ⟨fits, above, solid, last, chainRest⟩ := chain
    have length := length_eq fits
    simp only [SegmentCache.consume]
    split_ifs with whole
    · exact chain_mono (by omega) chainRest
    · have bottom := lo_consume fits (Nat.le_of_not_le whole)
      refine ⟨⟨?_, fits.short⟩, by omega, ?_, last, chainRest⟩
      · rw [hi_consume, Segment.consume, List.length_drop]
        omega
      · intro _
        rw [bottom, hi_consume]
        omega

theorem holds_run_iff (chain : Chain s 0 segments) {op : Op}
    (inWindow : op.InWindow s) (fuel : Nat) :
    (∀ segments', op.run fuel segments = .done segments' → ∀ seg ∈ segments', Fits s seg) ∧
      (Holds s (op.run fuel segments) ↔
        op.run fuel segments = .running ∨ op.Allowed s segments) := by
  have of_done {kept : List Segment} (fits : ∀ seg ∈ kept, Fits s seg) :
      ∀ segments', Outcome.done kept = .done segments' → ∀ seg ∈ segments', Fits s seg := by
    rintro _ ⟨⟩
    exact fits
  cases op with
  | store end_ data final =>
    simp only [Op.run, Op.Allowed]
    rcases result_storeWith chain inWindow with ⟨fault, fails⟩ | ⟨stored, done, fits, condition⟩
    · rw [fault]
      exact ⟨nofun, by simp [Holds, fails]⟩
    · rw [done]
      refine ⟨of_done fits, ?_⟩
      rw [Holds, ← chain_zero_iff fits, condition]
      simp
  | consume len =>
    have kept := chain_consume len chain
    simp only [Op.run, Op.Allowed, Holds, or_true, iff_true]
    exact ⟨of_done (chain_fits kept), (chain_zero_iff (chain_fits kept)).mp kept⟩
  | addMissingData end_ maxMissingBytes =>
    simp only [Op.run, Op.Allowed, or_true, iff_true]
    rcases addMissingData_chain inWindow chain maxMissingBytes fuel with
      running | ⟨filled, done, kept⟩
    · rw [running]
      exact ⟨nofun, trivial⟩
    · rw [done]
      exact ⟨of_done (chain_fits kept), (chain_zero_iff (chain_fits kept)).mp kept⟩

theorem runOps_append (fuel : Nat) (ops : List Op) (op : Op) :
    runOps fuel (ops ++ [op]) = (runOps fuel ops).bind (op.run fuel) := by
  rw [runOps, List.foldl_append]
  rfl

private theorem fits_runOps {fuel : Nat} {ops : List Op} (inWindow : ∀ op ∈ ops, op.InWindow s)
    (sound : ∀ pre, pre <+: ops → Holds s (runOps fuel pre))
    (reached : runOps fuel ops = .done segments) : ∀ seg ∈ segments, Fits s seg := by
  induction ops using List.reverseRecOn generalizing segments with
  | nil =>
    rw [← Outcome.done.inj reached]
    exact nofun
  | append_singleton ops op ih =>
    have earlier : ∀ pre, pre <+: ops → Holds s (runOps fuel pre) :=
      fun pre part => sound pre (part.trans (List.prefix_append ops [op]))
    rw [runOps_append] at reached
    obtain ⟨before, done, last⟩ := Outcome.bind_eq_done reached
    have fits := ih (fun op member => inWindow op (List.mem_append_left _ member)) earlier done
    have state := earlier ops (List.prefix_refl ops)
    rw [done] at state
    exact (holds_run_iff ((chain_zero_iff fits).mpr state)
      (inWindow op (List.mem_append_right _ (List.mem_singleton_self op))) fuel).1 segments last

private theorem chain_of_allowed {ops pre : List Op} (fuel : Nat) (part : pre <+: ops)
    (inWindow : ∀ op ∈ pre, op.InWindow s)
    (allowed : ∀ pre op, pre ++ [op] <+: ops → ∀ fuel segments,
      runOps fuel pre = .done segments → op.Allowed s segments) :
    runOps fuel pre = .running ∨ ∃ segments, runOps fuel pre = .done segments ∧
      Chain s 0 segments := by
  induction pre using List.reverseRecOn with
  | nil => exact Or.inr ⟨[], rfl, trivial⟩
  | append_singleton pre op ih =>
    rw [runOps_append]
    rcases ih ((List.prefix_append pre [op]).trans part)
        (fun op member => inWindow op (List.mem_append_left _ member)) with
      running | ⟨segments, done, chain⟩
    · exact Or.inl (by rw [running, Outcome.bind_running])
    · rw [done, Outcome.bind_done]
      have window := inWindow op (List.mem_append_right _ (List.mem_singleton_self op))
      obtain ⟨fits, condition⟩ := holds_run_iff chain window fuel
      have holds := condition.mpr (Or.inr (allowed pre op part fuel segments done))
      cases outcome : op.run fuel segments with
      | running => exact Or.inl rfl
      | fault =>
        rw [outcome] at holds
        exact holds.elim
      | done segments' =>
        rw [outcome] at holds
        exact Or.inr ⟨segments', rfl, (chain_zero_iff (fits segments' outcome)).mpr holds⟩

/-- Along a run in one window, the assertion in `Segment::append` never fails and the
invariant holds after every call exactly when each call is allowed by the cache before it. -/
theorem runs_sound_iff (s : Seq) (ops : List Op) (inWindow : ∀ op ∈ ops, op.InWindow s) :
    (∀ pre, pre <+: ops → ∀ fuel, Holds s (runOps fuel pre)) ↔
      ∀ pre op, pre ++ [op] <+: ops → ∀ fuel segments, runOps fuel pre = .done segments →
        op.Allowed s segments := by
  have windowOf : ∀ pre, pre <+: ops → ∀ op ∈ pre, op.InWindow s :=
    fun pre part op member => inWindow op (part.subset member)
  constructor
  · intro sound pre op part fuel segments reached
    have partPre : pre <+: ops := (List.prefix_append pre [op]).trans part
    have fits := fits_runOps (windowOf pre partPre)
      (fun before early => sound before (early.trans partPre) fuel) reached
    have state := sound pre partPre fuel
    rw [reached] at state
    have window := windowOf _ part op (List.mem_append_right _ (List.mem_singleton_self op))
    have after := sound (pre ++ [op]) part fuel
    rw [runOps_append, reached, Outcome.bind_done,
      (holds_run_iff ((chain_zero_iff fits).mpr state) window fuel).2] at after
    rcases after with running | allowed
    · -- Only `addMissingData` has a loop, and it is always allowed.
      cases op with
      | store end_ data final =>
        rcases result_storeWith ((chain_zero_iff fits).mpr state) window with
          ⟨fault, -⟩ | ⟨stored, done, -⟩
        · simp [Op.run, fault] at running
        · simp [Op.run, done] at running
      | consume len => trivial
      | addMissingData end_ maxMissingBytes => trivial
    · exact allowed
  · intro allowed pre part fuel
    have reached := chain_of_allowed fuel part (windowOf pre part) allowed
    rcases reached with running | ⟨segments, done, chain⟩
    · rw [running]
      trivial
    · rw [done]
      exact (chain_zero_iff (chain_fits chain)).mp chain

end

/-- Storing `size` bytes that end at the sequence number `end_`. -/
def storeBytes (end_ : Seq) (size : Nat) (final : Bool) : Op :=
  .store end_ (List.replicate size 7) final

/-- A final segment that overlaps the only cached one. -/
theorem runs_sound_iff_two :
    runOps 0 [storeBytes 12 2 false, storeBytes 20 9 true] =
        .done [⟨20, true, List.replicate 10 7⟩] ∧
      ∀ pre, pre <+: [storeBytes 12 2 false, storeBytes 20 9 true] →
        ∀ fuel, Holds 0 (runOps fuel pre) := by
  refine ⟨by decide, (runs_sound_iff 0 _ ?_).mpr ?_⟩
  · intro op member
    simp only [List.mem_cons, List.not_mem_nil, or_false] at member
    rcases member with rfl | rfl
    · exact ⟨by decide, by decide⟩
    · exact ⟨by decide, by decide⟩
  · rintro pre op ⟨behind, split⟩ fuel segments reached
    rcases pre with _ | ⟨first, _ | ⟨second, pre⟩⟩
    · obtain ⟨rfl, -⟩ : op = storeBytes 12 2 false ∧ behind = [storeBytes 20 9 true] := by
        simpa using split
      rw [← Outcome.done.inj reached]
      exact Or.inr trivial
    · obtain ⟨rfl, rfl, -⟩ : first = storeBytes 12 2 false ∧ op = storeBytes 20 9 true ∧
          behind = [] := by simpa using split
      rw [← Outcome.done.inj reached]
      exact Or.inr (by decide)
    · simp at split

/-- The cache holds `[10,12)`, `[14,16)` and `[18,20)`. After `[11,30)` the first segment
overlaps the last one. And when `[12,16)` arrives as the final segment behind `[10,12)`,
appending the rest of `[14,16)` to it fails the assertion. -/
theorem store_breaks_invariant :
    runOps 0 [storeBytes 12 2 false, storeBytes 16 2 false, storeBytes 20 2 false,
        storeBytes 30 19 false] =
          .done [⟨30, false, List.replicate 20 7⟩, ⟨20, false, [7, 7]⟩] ∧
      checkInvariant [⟨30, false, List.replicate 20 7⟩, ⟨20, false, [7, 7]⟩] = false ∧
      runOps 0 [storeBytes 12 2 false, storeBytes 16 2 false, storeBytes 16 4 true] = .fault := by
  decide

end Libofp.Demux.CacheInvariant
