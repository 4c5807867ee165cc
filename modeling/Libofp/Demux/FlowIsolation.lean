/- GID: Libofp/Demux/FlowIsolation
   digest: The calls for other endpoints do not change what a pair of endpoints sees. -/

import Libofp.Demux.SessionTracking

/-!
Two runs are compared: all calls, and only those of one pair of endpoints. The entry of
the pair goes through the same states in both, except that its session numbers are drawn
from a counter that other pairs advance as well. A renaming of the numbers relates the
two entries; it grows by one number whenever the pair opens a session.
-/

set_option autoImplicit false

namespace Libofp.Demux.FlowIsolation

open Octets.ByteRange SegmentCache FlowReceive TcpSessions
open TcpSessions.FlowCache SessionTracking

section

variable (rename : UInt64 → UInt64)

def renameFlow (flow : FlowData) : FlowData := { flow with sessionID_ := rename flow.sessionID_ }

def renameEntry (entry : FlowCacheEntry) : FlowCacheEntry :=
  { entry with sessionID := rename entry.sessionID }

private theorem receive_rename (st : FlowState) (ts : Timestamp) (end_ : Seq) (data : Bytes)
    (sessionID : UInt64) (final : Bool) (lastSeen : Timestamp) :
    st.receive ts end_ data (rename sessionID) final lastSeen =
      ⟨(st.receive ts end_ data sessionID final lastSeen).state,
        renameFlow rename (st.receive ts end_ data sessionID final lastSeen).flow,
        (st.receive ts end_ data sessionID final lastSeen).lastSeen⟩ := by
  unfold FlowState.receive
  simp only
  split_ifs
  · rfl
  · rfl
  · rfl
  · simp only [FlowState.latestData]
    split
    · rfl
    · split_ifs <;> rfl

theorem side_renameEntry (entry : FlowCacheEntry) (isX : Bool) :
    (renameEntry rename entry).side isX = entry.side isX := by
  cases isX <;> rfl

theorem setSide_renameEntry (entry : FlowCacheEntry) (isX : Bool) (st : FlowState) :
    (renameEntry rename entry).setSide isX st = renameEntry rename (entry.setSide isX st) := by
  cases isX <;> rfl

theorem receiveOn_rename (c : Call) (entry : FlowCacheEntry) :
    receiveOn c (renameEntry rename entry) =
      (renameEntry rename (receiveOn c entry).1, renameFlow rename (receiveOn c entry).2) := by
  have number : (renameEntry rename entry).sessionID = rename entry.sessionID := rfl
  simp only [receiveOn, side_renameEntry, number, receive_rename, setSide_renameEntry]
  cases c.isX <;> rfl

private theorem consumeOn_rename (c : Call) (flow : FlowData) (entry : FlowCacheEntry) :
    consumeOn c (renameFlow rename flow) (renameEntry rename entry) =
      renameEntry rename (consumeOn c flow entry) := by
  have data : (renameFlow rename flow).data_ = flow.data_ := rfl
  have final : (renameFlow rename flow).final_ = flow.final_ := rfl
  unfold consumeOn
  rw [data, final]
  split
  · rw [side_renameEntry, setSide_renameEntry]
    rfl
  · rfl

variable {rename}

theorem admission_rename {entry : FlowCacheEntry}
    (numbered : entry.sessionID ≠ 0 → rename entry.sessionID ≠ 0) (zero : rename 0 = 0)
    (ts : Timestamp) (flags : BitVec 8) :
    admission (renameEntry rename entry) ts flags = admission entry ts flags := by
  have finished : (renameEntry rename entry).finished = entry.finished := rfl
  have idle : (renameEntry rename entry).idle ts = entry.idle ts := rfl
  have number : (renameEntry rename entry).sessionID = rename entry.sessionID := rfl
  unfold admission
  rw [finished, idle, number]
  by_cases fresh : entry.sessionID = 0
  · rw [fresh, zero]
  · rw [if_neg fresh, if_neg (numbered fresh)]

private theorem opens_rename {entry : FlowCacheEntry}
    (numbered : entry.sessionID ≠ 0 → rename entry.sessionID ≠ 0) (zero : rename 0 = 0) (c : Call) :
    c.opens (renameEntry rename entry) = c.opens entry := by
  rw [Call.opens, Call.opens, admission_rename numbered zero]

theorem submitOn_rename {entry : FlowCacheEntry}
    (numbered : entry.sessionID ≠ 0 → rename entry.sessionID ≠ 0) (zero : rename 0 = 0)
    (c : Call) (fresh : UInt64) :
    submitOn c (rename fresh) (renameEntry rename entry) =
      (renameEntry rename (submitOn c fresh entry).1,
        renameFlow rename (submitOn c fresh entry).2) := by
  have admitted : admitOn c (rename fresh) (renameEntry rename entry) =
      (renameEntry rename (admitOn c fresh entry).1,
        renameFlow rename (admitOn c fresh entry).2) := by
    have reset : (renameEntry rename entry).reset c.ts (rename fresh) =
        renameEntry rename (entry.reset c.ts fresh) := rfl
    have ignoredFlow : renameFlow rename (FlowData.none 0) = FlowData.none 0 := by
      simp only [renameFlow, FlowData.none, zero]
    simp only [admitOn, admission_rename numbered zero]
    split_ifs
    · rw [ignoredFlow]
    · split
      · rw [reset, receiveOn_rename]
      · rfl
      · exact receiveOn_rename rename c entry
  simp only [submitOn, admitted, consumeOn_rename]

end

def after (flows : FlowCache) (calls : List Call) : FlowCache :=
  calls.foldl (fun flows c => (submit flows c).1) flows

/-- The entry under `key` in a run of all calls is, up to the renaming, the one in the run
of the key's own calls. -/
structure Mirrors (key : FlowCacheKey) (rename : UInt64 → UInt64) (all own : FlowCache) :
    Prop where
  entry : all.cache_ key = renameEntry rename (own.cache_ key)
  drawn : (own.cache_ key).sessionID ≤ own.assignSessionID_
  zero : rename 0 = 0
  mono : ∀ a b, a < b → b ≤ own.assignSessionID_ → rename a < rename b
  behind : own.assignSessionID_ ≤ all.assignSessionID_
  room : rename own.assignSessionID_ ≤ all.assignSessionID_

section

variable {key : FlowCacheKey} {rename : UInt64 → UInt64} {all own : FlowCache} {c : Call}

theorem toNat_counterAfter (flows : FlowCache) (c : Call)
    (few : flows.assignSessionID_.toNat +
      (if c.opens (flows.cache_ c.key) then 1 else 0) < 2 ^ 64) :
    (counterAfter flows c).toNat =
      flows.assignSessionID_.toNat + if c.opens (flows.cache_ c.key) then 1 else 0 := by
  unfold counterAfter
  split_ifs at few ⊢ with opens
  · exact toNat_assignSessionID flows few
  · rfl

private theorem mirrors_other (mirrors : Mirrors key rename all own) (other : c.key ≠ key)
    (few : all.assignSessionID_.toNat +
      (if c.opens (all.cache_ c.key) then 1 else 0) < 2 ^ 64) :
    Mirrors key rename (submit all c).1 own := by
  have counter : all.assignSessionID_ ≤ (submit all c).1.assignSessionID_ := by
    rw [counter_submit, UInt64.le_iff_toNat_le, toNat_counterAfter all c few]
    exact Nat.le_add_right _ _
  refine ⟨?_, mirrors.drawn, mirrors.zero, mirrors.mono, ?_, ?_⟩
  · rw [(tracked_submit all c).others key other.symm]
    exact mirrors.entry
  · exact UInt64.le_trans mirrors.behind counter
  · exact UInt64.le_trans mirrors.room counter

theorem Mirrors.numbered (mirrors : Mirrors key rename all own)
    (opened : (own.cache_ key).sessionID ≠ 0) : rename (own.cache_ key).sessionID ≠ 0 := by
  have positive : (0 : UInt64) < (own.cache_ key).sessionID := UInt64.pos_iff_ne_zero.mpr opened
  have renamed := mirrors.mono 0 _ positive mirrors.drawn
  rw [mirrors.zero] at renamed
  exact UInt64.pos_iff_ne_zero.mp renamed

private theorem submitOn_fresh {entry : FlowCacheEntry} (stays : c.opens entry = false)
    (fresh fresh' : UInt64) : submitOn c fresh entry = submitOn c fresh' entry := by
  have admitted : admitOn c fresh entry = admitOn c fresh' entry := by
    cases ignored : c.ignored with
    | true => simp [admitOn, ignored]
    | false =>
      cases admitted : admission entry c.ts c.flags with
      | opened => simp [Call.opens, ignored, admitted] at stays
      | late => simp only [admitOn, ignored, admitted]
      | current => simp only [admitOn, ignored, admitted]
  simp only [submitOn, admitted]

theorem Mirrors.renameEntry_eq (mirrors : Mirrors key rename all own) {rename' : UInt64 → UInt64}
    (agrees : ∀ id, id ≤ own.assignSessionID_ → rename' id = rename id) :
    all.cache_ key = renameEntry rename' (own.cache_ key) := by
  rw [mirrors.entry, renameEntry, renameEntry, agrees _ mirrors.drawn]

theorem Mirrors.opens_eq (mirrors : Mirrors key rename all own) (c : Call) :
    c.opens (all.cache_ key) = c.opens (own.cache_ key) := by
  rw [mirrors.entry, opens_rename mirrors.numbered mirrors.zero]

private theorem mirrors_stay (mirrors : Mirrors c.key rename all own)
    (stays : c.opens (own.cache_ c.key) = false) :
    Mirrors c.key rename (submit all c).1 (submit own c).1 ∧
      (submit all c).2 = renameFlow rename (submit own c).2 := by
  have staysAll : c.opens (all.cache_ c.key) = false := by rw [mirrors.opens_eq, stays]
  have counter : (submit own c).1.assignSessionID_ = own.assignSessionID_ := by
    rw [counter_submit, counterAfter, stays]
    rfl
  have counterAll : (submit all c).1.assignSessionID_ = all.assignSessionID_ := by
    rw [counter_submit, counterAfter, staysAll]
    rfl
  have both : submitOn c all.assignSessionID (all.cache_ c.key) =
      (renameEntry rename (submitOn c own.assignSessionID (own.cache_ c.key)).1,
        renameFlow rename (submitOn c own.assignSessionID (own.cache_ c.key)).2) := by
    rw [submitOn_fresh staysAll _ (rename own.assignSessionID), mirrors.entry]
    exact submitOn_rename mirrors.numbered mirrors.zero c _
  constructor
  · refine ⟨?_, ?_, mirrors.zero, ?_, ?_, ?_⟩
    · rw [entry_submit, entry_submit, both]
    · rw [entry_submit, entryID_submitOn, stays, counter]
      exact mirrors.drawn
    · rw [counter]
      exact mirrors.mono
    · rw [counter, counterAll]
      exact mirrors.behind
    · rw [counter, counterAll]
      exact mirrors.room
  · rw [flow_submit, flow_submit, both]

private theorem mirrors_open (mirrors : Mirrors c.key rename all own)
    (opens : c.opens (own.cache_ c.key) = true) (few : all.assignSessionID_.toNat + 1 < 2 ^ 64) :
    (∀ id, id ≤ own.assignSessionID_ →
        Function.update rename own.assignSessionID all.assignSessionID id = rename id) ∧
      Mirrors c.key (Function.update rename own.assignSessionID all.assignSessionID)
        (submit all c).1 (submit own c).1 ∧
      (submit all c).2 =
        renameFlow (Function.update rename own.assignSessionID all.assignSessionID)
          (submit own c).2 := by
  have opensAll : c.opens (all.cache_ c.key) = true := by rw [mirrors.opens_eq, opens]
  have counter : (submit own c).1.assignSessionID_ = own.assignSessionID := by
    rw [counter_submit, counterAfter, opens]
    rfl
  have counterAll : (submit all c).1.assignSessionID_ = all.assignSessionID := by
    rw [counter_submit, counterAfter, opensAll]
    rfl
  have behind := UInt64.le_iff_toNat_le.mp mirrors.behind
  have nextAll := toNat_assignSessionID all few
  have next := toNat_assignSessionID own (by omega)
  have agrees : ∀ id, id ≤ own.assignSessionID_ →
      Function.update rename own.assignSessionID all.assignSessionID id = rename id := by
    intro id drawn
    apply Function.update_of_ne
    rintro rfl
    have := UInt64.le_iff_toNat_le.mp drawn
    omega
  have newest : Function.update rename own.assignSessionID all.assignSessionID
      own.assignSessionID = all.assignSessionID := Function.update_self _ _ _
  generalize Function.update rename own.assignSessionID all.assignSessionID = rename'
    at agrees newest ⊢
  have zero : rename' 0 = 0 := by
    rw [agrees 0 (UInt64.zero_le), mirrors.zero]
  have numbered : (own.cache_ c.key).sessionID ≠ 0 → rename' (own.cache_ c.key).sessionID ≠ 0 := by
    rw [agrees _ mirrors.drawn]
    exact mirrors.numbered
  have both : submitOn c all.assignSessionID (all.cache_ c.key) =
      (renameEntry rename' (submitOn c own.assignSessionID (own.cache_ c.key)).1,
        renameFlow rename' (submitOn c own.assignSessionID (own.cache_ c.key)).2) := by
    rw [mirrors.renameEntry_eq agrees, ← newest]
    exact submitOn_rename numbered zero c _
  refine ⟨agrees, ⟨?_, ?_, zero, ?_, ?_, ?_⟩, ?_⟩
  · rw [entry_submit, entry_submit, both]
  · rw [entry_submit, entryID_submitOn, opens, counter, if_pos rfl]
    exact UInt64.le_refl _
  · rw [counter]
    intro a b less drawn
    have below : a ≤ own.assignSessionID_ := by
      rw [UInt64.le_iff_toNat_le] at drawn ⊢
      rw [UInt64.lt_iff_toNat_lt] at less
      omega
    by_cases last : b = own.assignSessionID
    · -- Every number drawn before is renamed to one that the full run drew before.
      rw [last, newest, agrees a below]
      have old : rename a ≤ all.assignSessionID_ := by
        by_cases top : a = own.assignSessionID_
        · rw [top]
          exact mirrors.room
        · have strict : a < own.assignSessionID_ := UInt64.lt_of_le_of_ne below top
          exact UInt64.le_trans (UInt64.le_of_lt (mirrors.mono a _ strict (UInt64.le_refl _)))
            mirrors.room
      rw [UInt64.le_iff_toNat_le] at old
      rw [UInt64.lt_iff_toNat_lt]
      omega
    · have old : b ≤ own.assignSessionID_ := by
        have strict := UInt64.lt_of_le_of_ne drawn last
        rw [UInt64.lt_iff_toNat_lt] at strict
        rw [UInt64.le_iff_toNat_le]
        omega
      rw [agrees a below, agrees b old]
      exact mirrors.mono a b less old
  · rw [counter, counterAll, UInt64.le_iff_toNat_le]
    omega
  · rw [counter, counterAll, newest]
    exact UInt64.le_refl _
  · rw [flow_submit, flow_submit, both]

end

private theorem toNat_counter_after (flows : FlowCache) (calls : List Call)
    (few : flows.assignSessionID_.toNat + (openedIDs (trace flows calls)).length < 2 ^ 64) :
    (after flows calls).assignSessionID_.toNat =
      flows.assignSessionID_.toNat + (openedIDs (trace flows calls)).length := by
  induction calls generalizing flows with
  | nil => rfl
  | cons c rest ih =>
    have number := toNat_counterAfter flows c
    rw [← counter_submit] at number
    have next := ih (submit flows c).1
    change (after (submit flows c).1 rest).assignSessionID_.toNat = _
    rw [openedIDs_cons] at few ⊢
    split_ifs at few number ⊢ with opens
    · simp only [List.singleton_append, List.length_cons] at few ⊢
      rw [next (by omega), number (by omega)]
      omega
    · simp only [List.nil_append] at few ⊢
      rw [next (by omega), number (by omega)]
      rfl

private theorem mirrors_run {key : FlowCacheKey} (calls : List Call) {all own : FlowCache}
    {rename : UInt64 → UInt64} (mirrors : Mirrors key rename all own)
    (few : all.assignSessionID_.toNat + (openedIDs (trace all calls)).length < 2 ^ 64) :
    ∃ rename' : UInt64 → UInt64,
      (∀ id, id ≤ own.assignSessionID_ → rename' id = rename id) ∧
      Mirrors key rename' (after all calls)
        (after own (calls.filter fun c => decide (c.key = key))) ∧
      ((trace all calls).filter fun s => decide (s.call.key = key)).map Step.flow =
        (trace own (calls.filter fun c => decide (c.key = key))).map
          (fun s => renameFlow rename' s.flow) ∧
      (openedIDs (trace own (calls.filter fun c => decide (c.key = key)))).length ≤
        (openedIDs (trace all calls)).length := by
  induction calls generalizing all own rename with
  | nil => exact ⟨rename, fun _ _ => rfl, mirrors, rfl, Nat.le_refl _⟩
  | cons c rest ih =>
    rw [openedIDs_cons] at few ⊢
    rw [List.length_append] at few
    have count : ((if c.opens (all.cache_ c.key) then [all.assignSessionID] else [] :
        List UInt64)).length = if c.opens (all.cache_ c.key) then 1 else 0 := by
      split_ifs <;> rfl
    have number := toNat_counterAfter all c (by omega)
    rw [← counter_submit] at number
    by_cases same : c.key = key
    · subst same
      -- The renaming after this call, as far as the two kinds of calls agree on it.
      obtain ⟨rename₁, agrees₁, mirrors₁, flow₁⟩ : ∃ rename₁ : UInt64 → UInt64,
          (∀ id, id ≤ own.assignSessionID_ → rename₁ id = rename id) ∧
          Mirrors c.key rename₁ (submit all c).1 (submit own c).1 ∧
          (submit all c).2 = renameFlow rename₁ (submit own c).2 := by
        cases opens : c.opens (own.cache_ c.key) with
        | true =>
          have opensAll : c.opens (all.cache_ c.key) = true := by rw [mirrors.opens_eq, opens]
          simp only [opensAll, if_true, List.length_singleton] at few
          exact ⟨_, mirrors_open mirrors opens (by omega)⟩
        | false => exact ⟨rename, fun _ _ => rfl, mirrors_stay mirrors opens⟩
      obtain ⟨rename₂, agrees₂, mirrors₂, flows₂, fewer⟩ := ih mirrors₁ (by omega)
      have advanced : own.assignSessionID_ ≤ (submit own c).1.assignSessionID_ := by
        rw [UInt64.le_iff_toNat_le, counter_submit, toNat_counterAfter]
        · exact Nat.le_add_right _ _
        · have behind := UInt64.le_iff_toNat_le.mp mirrors.behind
          rw [← mirrors.opens_eq]
          omega
      have drawn : (submit own c).2.sessionID_ ≤ (submit own c).1.assignSessionID_ := by
        by_cases numbered : (submit own c).2.sessionID_ = 0
        · rw [numbered]
          exact UInt64.zero_le
        · rw [(tracked_submit own c).current numbered]
          exact mirrors₁.drawn
      refine ⟨rename₂, ?_, ?_, ?_, ?_⟩
      · intro id old
        rw [agrees₂ id (UInt64.le_trans old advanced), agrees₁ id old]
      · simp only [List.filter_cons, decide_true, if_true]
        exact mirrors₂
      · simp [trace, flows₂, flow₁, renameFlow, agrees₂ _ drawn]
      · simp only [List.filter_cons, decide_true, if_true]
        rw [openedIDs_cons, mirrors.opens_eq, List.length_append, List.length_append]
        split_ifs
        · simpa using fewer
        · simpa using fewer
    · obtain ⟨rename₂, agrees₂, mirrors₂, flows₂, fewer⟩ :=
        ih (mirrors_other mirrors same (by omega)) (by omega)
      refine ⟨rename₂, agrees₂, ?_, ?_, ?_⟩
      · simp only [List.filter_cons, same, decide_false, Bool.false_eq_true, if_false]
        exact mirrors₂
      · simp only [trace, List.filter_cons, same, decide_false, Bool.false_eq_true, if_false]
        exact flows₂
      · simp only [List.filter_cons, same, decide_false, Bool.false_eq_true, if_false,
          List.length_append]
        exact Nat.le_add_left_of_le fewer

def between (A B : IPv6Endpoint) (c : Call) : Bool :=
  decide ((c.src = A ∧ c.dst = B) ∨ (c.src = B ∧ c.dst = A))

theorem between_eq (A B : IPv6Endpoint) (c : Call) :
    between A B c = decide (c.key = (flowCacheKey A B).1) := by
  rw [between, Call.key, decide_eq_decide]
  exact (flowCacheKey_eq_iff c.src c.dst A B).symm

private theorem mirrors_initial (key : FlowCacheKey) : Mirrors key id {} {} where
  entry := rfl
  drawn := UInt64.le_refl _
  zero := rfl
  mono := fun _ _ less _ => less
  behind := UInt64.le_refl _
  room := UInt64.le_refl _

/-- What the calls for one pair of endpoints return, and the entry they leave behind, are
the same as when only these calls are made, up to a renaming of the session numbers that
preserves their order. -/
theorem pair_isolated (calls : List Call) (few : (openedIDs (trace {} calls)).length < 2 ^ 64)
    (A B : IPv6Endpoint) :
    ∃ rename : UInt64 → UInt64, rename 0 = 0 ∧
      (∀ a ∈ 0 :: openedIDs (trace {} (calls.filter (between A B))),
        ∀ b ∈ 0 :: openedIDs (trace {} (calls.filter (between A B))),
          a < b → rename a < rename b) ∧
      ((trace {} calls).filter fun s => between A B s.call).map Step.flow =
        (trace {} (calls.filter (between A B))).map (fun s => renameFlow rename s.flow) ∧
      (after {} calls).cache_ (flowCacheKey A B).1 =
        renameEntry rename
          ((after {} (calls.filter (between A B))).cache_ (flowCacheKey A B).1) := by
  have pair : between A B = fun c => decide (c.key = (flowCacheKey A B).1) :=
    funext (between_eq A B)
  obtain ⟨rename, -, mirrors, flows, fewer⟩ :=
    mirrors_run calls (mirrors_initial (flowCacheKey A B).1) (by simpa using few)
  rw [← pair] at mirrors flows fewer
  simp only [← between_eq] at flows
  have fewOwn : (({} : FlowCache).assignSessionID_.toNat +
      (openedIDs (trace {} (calls.filter (between A B)))).length) < 2 ^ 64 := by
    have start : ({} : FlowCache).assignSessionID_.toNat = 0 := rfl
    omega
  have bounded : ∀ b ∈ 0 :: openedIDs (trace {} (calls.filter (between A B))),
      b ≤ (after {} (calls.filter (between A B))).assignSessionID_ := by
    intro b member
    rcases List.mem_cons.mp member with rfl | drawn
    · exact UInt64.zero_le
    · have position := List.mem_map_of_mem (f := UInt64.toNat) drawn
      rw [openedIDs_eq_range' _ _ fewOwn, List.mem_range'_1] at position
      rw [UInt64.le_iff_toNat_le, toNat_counter_after _ _ fewOwn]
      omega
  exact ⟨rename, mirrors.zero, fun a _ b member less => mirrors.mono a b less (bounded b member),
    flows, mirrors.entry⟩

/-- A connection whose session is preceded by one of other endpoints keeps its results;
its session number is renamed from `1` to `2`. -/
theorem pair_isolated_second :
    openedIDs (trace {} [{ segmentAt 0 true tcpFin with src := ⟨9, 9⟩ }, segmentAt 1 true tcpFin,
        segmentAt 2 false tcpFin]) = [1, 2] ∧
      ∃ rename : UInt64 → UInt64, rename 0 = 0 ∧
        ((trace {} [{ segmentAt 0 true tcpFin with src := ⟨9, 9⟩ }, segmentAt 1 true tcpFin,
            segmentAt 2 false tcpFin]).filter
              fun s => between ⟨1, 6633⟩ ⟨2, 6653⟩ s.call).map Step.flow =
          (trace {} [segmentAt 1 true tcpFin, segmentAt 2 false tcpFin]).map
            (fun s => renameFlow rename s.flow) := by
  refine ⟨by decide, ?_⟩
  obtain ⟨rename, zero, -, flows, -⟩ := pair_isolated
    [{ segmentAt 0 true tcpFin with src := ⟨9, 9⟩ }, segmentAt 1 true tcpFin,
      segmentAt 2 false tcpFin] (by decide) ⟨1, 6633⟩ ⟨2, 6653⟩
  exact ⟨rename, zero, flows⟩

end Libofp.Demux.FlowIsolation
