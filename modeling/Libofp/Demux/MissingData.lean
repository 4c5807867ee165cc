/- GID: Libofp/Demux/MissingData
   digest: Filling the gaps of the segment cache at the end of a capture, and when it ends. -/

import Libofp.Base.Iteration
import Libofp.Demux.FlowIsolation

/-!
`FlowCache::finish` asks every flow to fill the gaps between its cached segments with
zeros. The loop of `addMissingData` looks at the first two segments; when the second one
does not begin strictly after the end of the first, no branch changes the cache and the
loop runs forever.
-/

set_option autoImplicit false

namespace Libofp.Demux.MissingData

open Octets.ByteRange Base.Iteration SegmentCache
open SegmentCache.Segment (lessThan)
open FlowReceive TcpSessions TcpSessions.FlowCache SessionTracking
open FlowIsolation

/-- `Segment::append` as a build compiles it. -/
abbrev Append := Segment → Bytes → Bool → Outcome Segment

def released : Append := fun seg data final => .done (seg.append data final)

/-- A debug build checks first that a final segment stays final. -/
def asserted : Append := fun seg data final =>
  if seg.final_ && !final then .fault else .done (seg.append data final)

/-- The first bytes of `zeroBuf`. -/
def zeros (size : Nat) : Bytes := List.replicate size 0

/-- The cache inside the loop of `addMissingData`, and whether `break` was reached. -/
structure Filling where
  segments : List Segment
  stopped : Bool

def Filling.more (s : Filling) : Bool := !s.stopped && decide (1 < s.segments.length)

def fillTurn (append : Append) (maxMissingBytes : Nat) (s : Filling) : Outcome Filling :=
  match s.segments with
  | first :: second :: rest =>
      if second.data_.isEmpty then .done { s with stopped := true }
      else if lessThan first.end_ second.begin then
        let gapSize := (second.begin - first.end_).toNat
        if maxMissingBytes < gapSize then .done { s with stopped := true }
        else
          (append first (zeros gapSize) false).bind fun first =>
            (append first second.data_ second.final_).map fun first =>
              { s with segments := first :: rest }
      else .done s
  | _ => .done s

/-- The gap between `end_` and the first segment is filled if it is small enough. -/
def fillFront (end_ : Seq) (maxMissingBytes : Nat) (seg : Segment) : Segment :=
  if lessThan end_ seg.begin then
    let gapSize := (seg.begin - end_).toNat
    if gapSize ≤ maxMissingBytes then seg.prepend (zeros gapSize) else seg
  else seg

/-- `SegmentCache::addMissingData`, with at most `fuel` turns of its loop. -/
def addMissingData (append : Append) (end_ : Seq) (maxMissingBytes : Nat) (fuel : Nat) :
    List Segment → Outcome (List Segment)
  | [] => .done []
  | seg :: rest =>
      if seg.data_.isEmpty then .done (seg :: rest)
      else
        (whileLoop Filling.more (fillTurn append maxMissingBytes) fuel
          ⟨fillFront end_ maxMissingBytes seg :: rest, false⟩).map Filling.segments

/-- The loop ends when it starts with a segment that ends at `end_`: going through the
segments behind, it reaches an empty one or a gap that is too large before it reaches one
that does not begin after the end of its predecessor. -/
def fillable (maxMissingBytes : Nat) : Seq → List Segment → Bool
  | _, [] => true
  | end_, second :: rest =>
      second.data_.isEmpty ||
        (lessThan end_ second.begin &&
          (decide (maxMissingBytes < (second.begin - end_).toNat) ||
            fillable maxMissingBytes second.end_ rest))

def Fillable (maxMissingBytes : Nat) : List Segment → Prop
  | [] => True
  | seg :: rest => seg.data_.isEmpty = true ∨ fillable maxMissingBytes seg.end_ rest = true

instance (maxMissingBytes : Nat) : DecidablePred (Fillable maxMissingBytes)
  | [] => inferInstanceAs (Decidable True)
  | _ :: _ => inferInstanceAs (Decidable (_ ∨ _))

theorem end_append_append (first second : Segment) :
    ((first.append (zeros (second.begin - first.end_).toNat) false).append second.data_
      second.final_).end_ = second.end_ := by
  have gap : narrow (zeros (second.begin - first.end_).toNat).length =
      second.begin - first.end_ := by
    rw [zeros, List.length_replicate, narrow, BitVec.ofNat_toNat, BitVec.setWidth_eq]
  have moved : first.end_ + (second.begin - first.end_) = second.begin := by
    rw [BitVec.add_comm, BitVec.sub_add_cancel]
  simp only [Segment.append]
  rw [gap, moved, Segment.begin, BitVec.sub_add_cancel]

theorem end_fillFront (end_ : Seq) (maxMissingBytes : Nat) (seg : Segment) :
    (fillFront end_ maxMissingBytes seg).end_ = seg.end_ := by
  unfold fillFront
  simp only
  split_ifs <;> rfl

section

variable {maxMissingBytes : Nat}

variable {first second : Segment} {rest : List Segment}

theorem fillTurn_empty (append : Append) (empty : second.data_.isEmpty = true) :
    fillTurn append maxMissingBytes ⟨first :: second :: rest, false⟩ =
      .done ⟨first :: second :: rest, true⟩ := by
  simp [fillTurn, empty]

private theorem fillTurn_stuck (append : Append) (nonempty : second.data_.isEmpty = false)
    (stuck : lessThan first.end_ second.begin = false) :
    fillTurn append maxMissingBytes ⟨first :: second :: rest, false⟩ =
      .done ⟨first :: second :: rest, false⟩ := by
  simp [fillTurn, nonempty, stuck]

theorem fillTurn_wide (append : Append) (nonempty : second.data_.isEmpty = false)
    (apart : lessThan first.end_ second.begin = true)
    (wide : maxMissingBytes < (second.begin - first.end_).toNat) :
    fillTurn append maxMissingBytes ⟨first :: second :: rest, false⟩ =
      .done ⟨first :: second :: rest, true⟩ := by
  simp only [fillTurn, nonempty, apart, wide, Bool.false_eq_true, if_false, if_true]

theorem fillTurn_fill (nonempty : second.data_.isEmpty = false)
    (apart : lessThan first.end_ second.begin = true)
    (narrow : ¬ maxMissingBytes < (second.begin - first.end_).toNat) :
    fillTurn released maxMissingBytes ⟨first :: second :: rest, false⟩ =
      .done ⟨(first.append (zeros (second.begin - first.end_).toNat) false).append second.data_
        second.final_ :: rest, false⟩ := by
  simp only [fillTurn, nonempty, apart, narrow, Bool.false_eq_true, if_false, if_true, released,
    Outcome.bind_done, Outcome.map_done]

theorem more_cons_cons (first second : Segment) (rest : List Segment) :
    Filling.more ⟨first :: second :: rest, false⟩ = true := by
  simp [Filling.more]

theorem more_stopped (segments : List Segment) : Filling.more ⟨segments, true⟩ = false := rfl

private theorem settles_fill (first : Segment) (rest : List Segment)
    (ok : fillable maxMissingBytes first.end_ rest = true) :
    ∃ s, Settles (fun fuel => whileLoop Filling.more (fillTurn released maxMissingBytes) fuel
      ⟨first :: rest, false⟩) (.done s) := by
  induction rest generalizing first with
  | nil =>
    have stops : Filling.more ⟨[first], false⟩ = false := rfl
    refine ⟨⟨[first], false⟩, by simp, 0, fun fuel _ => ?_⟩
    exact whileLoop_of_guard_false _ fuel stops
  | cons second rest ih =>
    have hguard := more_cons_cons first second rest
    have leaves : ∀ segments, Settles (fun fuel => whileLoop Filling.more
        (fillTurn released maxMissingBytes) fuel ⟨segments, true⟩)
        (.done ⟨segments, true⟩) := by
      intro segments
      refine ⟨by simp, 0, fun fuel _ => ?_⟩
      exact whileLoop_of_guard_false _ fuel (more_stopped segments)
    cases empty : second.data_.isEmpty with
    | true => exact ⟨_, settles_whileLoop_step hguard (fillTurn_empty released empty) (leaves _)⟩
    | false =>
      simp only [fillable, empty, Bool.false_or, Bool.and_eq_true, Bool.or_eq_true,
        decide_eq_true_eq] at ok
      obtain ⟨apart, wide | later⟩ := ok
      · exact ⟨_, settles_whileLoop_step hguard (fillTurn_wide released empty apart wide)
          (leaves _)⟩
      · by_cases wide : maxMissingBytes < (second.begin - first.end_).toNat
        · exact ⟨_, settles_whileLoop_step hguard (fillTurn_wide released empty apart wide)
            (leaves _)⟩
        · rw [← end_append_append first second] at later
          obtain ⟨s, settled⟩ := ih _ later
          exact ⟨s, settles_whileLoop_step hguard (fillTurn_fill empty apart wide) settled⟩

theorem running_fill (first : Segment) (rest : List Segment)
    (bad : fillable maxMissingBytes first.end_ rest = false) (fuel : Nat) :
    whileLoop Filling.more (fillTurn released maxMissingBytes) fuel ⟨first :: rest, false⟩ =
      .running := by
  induction rest generalizing first fuel with
  | nil => simp [fillable] at bad
  | cons second rest ih =>
    have hguard := more_cons_cons first second rest
    simp only [fillable, Bool.or_eq_false_iff] at bad
    obtain ⟨nonempty, bad⟩ := bad
    cases apart : lessThan first.end_ second.begin with
    | false =>
      -- The turn leaves everything as it is, so the loop comes back to the same state.
      refine whileLoop_running (fun s => s = ⟨first :: second :: rest, false⟩) ?_ rfl fuel
      rintro s rfl
      exact ⟨hguard, _, fillTurn_stuck released nonempty apart, rfl⟩
    | true =>
      simp only [apart, Bool.true_and, Bool.or_eq_false_iff, decide_eq_false_iff_not] at bad
      cases fuel with
      | zero => simp [whileLoop, hguard]
      | succ fuel =>
        rw [whileLoop_succ _ _ hguard, fillTurn_fill nonempty apart bad.1, Outcome.bind_done]
        apply ih
        rw [end_append_append]
        exact bad.2

end

private theorem addMissingData_cases (end_ : Seq) (maxMissingBytes : Nat)
    (segments : List Segment) :
    (Fillable maxMissingBytes segments ∧ ∃ filled,
        Settles (fun fuel => addMissingData released end_ maxMissingBytes fuel segments)
          (.done filled)) ∨
      (¬ Fillable maxMissingBytes segments ∧
        ∀ fuel, addMissingData released end_ maxMissingBytes fuel segments = .running) := by
  cases segments with
  | nil =>
    exact Or.inl ⟨trivial, [], settles_const (by simp)⟩
  | cons seg rest =>
    cases empty : seg.data_.isEmpty with
    | true =>
      refine Or.inl ⟨Or.inl empty, seg :: rest, ?_⟩
      simp only [addMissingData, empty, if_true]
      exact settles_const (by simp)
    | false =>
      have sameEnd := end_fillFront end_ maxMissingBytes seg
      cases ok : fillable maxMissingBytes seg.end_ rest with
      | true =>
        refine Or.inl ⟨Or.inr ok, ?_⟩
        rw [← sameEnd] at ok
        obtain ⟨s, settled⟩ := settles_fill _ rest ok
        refine ⟨s.segments, ?_⟩
        simp only [addMissingData, empty, Bool.false_eq_true, if_false]
        exact settled.map Filling.segments
      | false =>
        refine Or.inr ⟨?_, ?_⟩
        · rw [Fillable, empty, ok]
          simp
        · intro fuel
          rw [← sameEnd] at ok
          simp [addMissingData, empty, running_fill _ rest ok fuel, Outcome.map_running]

/-- `FlowState::addMissingData`. -/
def flowAddMissingData (maxMissingBytes fuel : Nat) (st : FlowState) : Outcome FlowState :=
  (addMissingData released st.end_ maxMissingBytes fuel st.cache_).map
    fun segments => { st with cache_ := segments }

/-- A call of the `FlowCallback`. -/
structure Callback where
  src : IPv6Endpoint
  dst : IPv6Endpoint
  flow : FlowData

/-- What `finish` does with the entry under one key. -/
def finishEntry (maxMissingBytes fuel : Nat) (key : FlowCacheKey) (entry : FlowCacheEntry) :
    Outcome (FlowCacheEntry × List Callback) :=
  (flowAddMissingData maxMissingBytes fuel entry.x).bind fun x =>
    (flowAddMissingData maxMissingBytes fuel entry.y).map fun y =>
      ({ entry with x := x, y := y },
        [⟨key.x, key.y, x.latestData entry.sessionID⟩,
          ⟨key.y, key.x, y.latestData entry.sessionID⟩])

/-- `FlowCache::finish`, which visits the entries in the order of the hash map, `order`. -/
def finish (maxMissingBytes fuel : Nat) :
    List FlowCacheKey → FlowCache → Outcome (FlowCache × List Callback)
  | [], flows => .done (flows, [])
  | key :: order, flows =>
      (finishEntry maxMissingBytes fuel key (flows.cache_ key)).bind fun r =>
        (finish maxMissingBytes fuel order (flows.setEntry key r.1)).map fun rest =>
          (rest.1, r.2 ++ rest.2)

def FillableEntry (maxMissingBytes : Nat) (entry : FlowCacheEntry) : Prop :=
  Fillable maxMissingBytes entry.x.cache_ ∧ Fillable maxMissingBytes entry.y.cache_

instance (maxMissingBytes : Nat) : DecidablePred (FillableEntry maxMissingBytes) :=
  fun _ => inferInstanceAs (Decidable (_ ∧ _))

theorem flowAddMissingData_cases (maxMissingBytes : Nat) (st : FlowState) :
    (Fillable maxMissingBytes st.cache_ ∧ ∃ filled,
        Settles (fun fuel => flowAddMissingData maxMissingBytes fuel st) (.done filled)) ∨
      (¬ Fillable maxMissingBytes st.cache_ ∧
        ∀ fuel, flowAddMissingData maxMissingBytes fuel st = .running) := by
  rcases addMissingData_cases st.end_ maxMissingBytes st.cache_ with
    ⟨ok, filled, settled⟩ | ⟨bad, running⟩
  · exact Or.inl ⟨ok, _, settled.map _⟩
  · refine Or.inr ⟨bad, fun fuel => ?_⟩
    rw [flowAddMissingData, running fuel, Outcome.map_running]

private theorem finishEntry_cases (maxMissingBytes : Nat) (key : FlowCacheKey)
    (entry : FlowCacheEntry) :
    (FillableEntry maxMissingBytes entry ∧ ∃ r,
        Settles (fun fuel => finishEntry maxMissingBytes fuel key entry) (.done r)) ∨
      (¬ FillableEntry maxMissingBytes entry ∧
        ∃ n, ∀ fuel, n ≤ fuel → finishEntry maxMissingBytes fuel key entry = .running) := by
  rcases flowAddMissingData_cases maxMissingBytes entry.x with ⟨okX, x, settledX⟩ | ⟨badX, runningX⟩
  · rcases flowAddMissingData_cases maxMissingBytes entry.y with
      ⟨okY, y, settledY⟩ | ⟨badY, runningY⟩
    · exact Or.inl ⟨⟨okX, okY⟩, _, settles_bind settledX (settledY.map _)⟩
    · obtain ⟨-, n, reached⟩ := settledX
      refine Or.inr ⟨fun ok => badY ok.2, n, fun fuel enough => ?_⟩
      have first : flowAddMissingData maxMissingBytes fuel entry.x = .done x := reached fuel enough
      rw [finishEntry, first, Outcome.bind_done, runningY, Outcome.map_running]
  · refine Or.inr ⟨fun ok => badX ok.1, 0, fun fuel _ => ?_⟩
    rw [finishEntry, runningX, Outcome.bind_running]

/-- Finishing an entry does not touch the entries of other keys, so that each key of a
list without repetitions is visited in its original state. -/
private theorem finish_cases (maxMissingBytes : Nat) (order : List FlowCacheKey)
    (distinct : order.Nodup) (flows : FlowCache) :
    ((∀ key ∈ order, FillableEntry maxMissingBytes (flows.cache_ key)) ∧ ∃ r,
        Settles (fun fuel => finish maxMissingBytes fuel order flows) (.done r)) ∨
      ((∃ key ∈ order, ¬ FillableEntry maxMissingBytes (flows.cache_ key)) ∧
        ∃ n, ∀ fuel, n ≤ fuel → finish maxMissingBytes fuel order flows = .running) := by
  induction order generalizing flows with
  | nil =>
    refine Or.inl ⟨?_, (flows, []), settles_const (by simp)⟩
    intro key absent
    cases absent
  | cons key order ih =>
    obtain ⟨fresh, distinct⟩ := List.nodup_cons.mp distinct
    have untouched : ∀ (entry : FlowCacheEntry), ∀ other ∈ order,
        (flows.setEntry key entry).cache_ other = flows.cache_ other := by
      intro entry other member
      apply Function.update_of_ne
      rintro rfl
      exact fresh member
    rcases finishEntry_cases maxMissingBytes key (flows.cache_ key) with
      ⟨ok, r, settled⟩ | ⟨bad, n, running⟩
    · rcases ih distinct (flows.setEntry key r.1) with
        ⟨oks, rest, settledRest⟩ | ⟨⟨other, member, bad⟩, n, running⟩
      · refine Or.inl ⟨?_, _, settles_bind settled (settledRest.map _)⟩
        intro other member
        rcases List.mem_cons.mp member with rfl | later
        · exact ok
        · rw [← untouched r.1 other later]
          exact oks other later
      · rw [untouched r.1 other member] at bad
        obtain ⟨-, n', reached⟩ := settled
        refine Or.inr ⟨⟨other, List.mem_cons_of_mem _ member, bad⟩, max n n', ?_⟩
        intro fuel enough
        have first : finishEntry maxMissingBytes fuel key (flows.cache_ key) = .done r :=
          reached fuel (by omega)
        rw [finish, first, Outcome.bind_done, running fuel (by omega), Outcome.map_running]
    · refine Or.inr ⟨⟨key, List.mem_cons_self, bad⟩, n, fun fuel enough => ?_⟩
      rw [finish, running fuel enough, Outcome.bind_running]

/-- The keys that the hash map holds after a run: `operator[]` adds the key of every call
that is not ignored. -/
def cachedKeys (calls : List Call) : List FlowCacheKey :=
  ((calls.filter fun c => !c.ignored).map Call.key).dedup

/-- After any run, in whatever order the entries are visited, `finish` terminates exactly
when the caches of all entries meet the condition. -/
theorem finish_halts_iff (calls : List Call) (order : List FlowCacheKey)
    (visits : order.Perm (cachedKeys calls)) (maxMissingBytes : Nat) :
    (Halts fun fuel => finish maxMissingBytes fuel order (after {} calls)) ↔
      ∀ key ∈ cachedKeys calls,
        FillableEntry maxMissingBytes ((after {} calls).cache_ key) := by
  have distinct : order.Nodup := visits.nodup_iff.mpr (List.nodup_dedup _)
  rcases finish_cases maxMissingBytes order distinct (after {} calls) with
    ⟨ok, r, settled⟩ | ⟨⟨key, member, bad⟩, n, running⟩
  · refine ⟨fun _ key member => ok key (visits.mem_iff.mpr member), fun _ => ⟨_, settled⟩⟩
  · constructor
    · rintro ⟨r, notRunning, n', settled⟩
      refine absurd ?_ notRunning
      rw [← settled (max n n') (by omega)]
      exact running (max n n') (by omega)
    · intro ok
      exact absurd (ok key (visits.mem_iff.mp member)) bad

/-- A data segment of `size` bytes from the sequence number `seq` on; the caller takes
whatever it is given. -/
def dataSegment (seq : Seq) (size : Nat) : Call where
  ts := ⟨0, 0⟩
  src := ⟨1, 6633⟩
  dst := ⟨2, 6653⟩
  seq := seq
  data := List.replicate size 7
  flags := tcpAck
  take := fun data _ => some data.length

/-- A lost segment between two cached ones is filled with zeros. -/
theorem finish_halts_iff_lost :
    (after {} [dataSegment 100 1, dataSegment 102 1, dataSegment 105 2]).lookup ⟨1, 6633⟩
        ⟨2, 6653⟩ = ⟨101, true, false, [⟨103, false, [7]⟩, ⟨107, false, [7, 7]⟩]⟩ ∧
      Halts fun fuel => finish 2 fuel [⟨⟨1, 6633⟩, ⟨2, 6653⟩⟩]
        (after {} [dataSegment 100 1, dataSegment 102 1, dataSegment 105 2]) :=
  ⟨by decide, (finish_halts_iff [dataSegment 100 1, dataSegment 102 1, dataSegment 105 2] _
    (by decide) 2).mpr (by decide)⟩

/-- Segments `[102,103)`, `[104,105)` and `[106,107)` are cached when `[103,106)` arrives.
It is joined with the first two; the third one is left next to them, and `finish` never
returns. -/
theorem finish_runs_forever :
    (after {} [dataSegment 100 1, dataSegment 102 1, dataSegment 104 1, dataSegment 106 1,
        dataSegment 103 3]).lookup ⟨1, 6633⟩ ⟨2, 6653⟩ =
          ⟨101, true, false, [⟨106, false, [7, 7, 7, 7]⟩, ⟨107, false, [7]⟩]⟩ ∧
      ∀ maxMissingBytes, ¬ Halts fun fuel => finish maxMissingBytes fuel
        (cachedKeys [dataSegment 100 1, dataSegment 102 1, dataSegment 104 1, dataSegment 106 1,
          dataSegment 103 3])
        (after {} [dataSegment 100 1, dataSegment 102 1, dataSegment 104 1, dataSegment 106 1,
          dataSegment 103 3]) := by
  have keys : cachedKeys [dataSegment 100 1, dataSegment 102 1, dataSegment 104 1,
      dataSegment 106 1, dataSegment 103 3] = [⟨⟨1, 6633⟩, ⟨2, 6653⟩⟩] := by decide
  have cache : ((after {} [dataSegment 100 1, dataSegment 102 1, dataSegment 104 1,
      dataSegment 106 1, dataSegment 103 3]).cache_ ⟨⟨1, 6633⟩, ⟨2, 6653⟩⟩).x.cache_ =
        [⟨106, false, [7, 7, 7, 7]⟩, ⟨107, false, [7]⟩] := by decide
  refine ⟨by decide, fun maxMissingBytes => not_halts_of_running fun fuel => ?_⟩
  rw [keys, finish, finishEntry, flowAddMissingData, cache]
  have stuck : fillable maxMissingBytes 106 [⟨107, false, [7]⟩] = false := rfl
  have front : (fillFront ((after {} [dataSegment 100 1, dataSegment 102 1, dataSegment 104 1,
      dataSegment 106 1, dataSegment 103 3]).cache_ ⟨⟨1, 6633⟩, ⟨2, 6653⟩⟩).x.end_
      maxMissingBytes ⟨106, false, [7, 7, 7, 7]⟩).end_ = 106 := end_fillFront _ _ _
  rw [← front] at stuck
  simp only [addMissingData, List.isEmpty_cons, Bool.false_eq_true, if_false,
    running_fill _ _ stuck fuel, Outcome.map_running, Outcome.bind_running]

end Libofp.Demux.MissingData
