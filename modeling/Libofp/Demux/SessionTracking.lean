/- GID: Libofp/Demux/SessionTracking
   digest: Runs of the session cache: when a call opens a session and which number it gets. -/

import Libofp.Demux.Segmentation
import Mathlib.Data.List.Range

/-!
A run is a list of calls of `FlowCache::receive`, each followed by the consumption of
some of the data it returned. A call reads and writes one entry of the cache; besides
that entry it touches only the counter from which session numbers are drawn.
-/

set_option autoImplicit false

namespace Libofp.Demux.SessionTracking

open Octets.ByteRange SegmentCache FlowReceive TcpSessions
open TcpSessions.FlowCache Segmentation

namespace Endpoint

theorem le_iff (a b : IPv6Endpoint) :
    a.le b = true ↔
      a.addr_.toNat < b.addr_.toNat ∨ (a.addr_.toNat = b.addr_.toNat ∧ a.port_ ≤ b.port_) := by
  simp only [IPv6Endpoint.le, Bool.or_eq_true, Bool.and_eq_true, decide_eq_true_eq, beq_iff_eq,
    BitVec.lt_def, BitVec.toNat_inj]

theorem le_total (a b : IPv6Endpoint) : a.le b = true ∨ b.le a = true := by
  rw [le_iff, le_iff]
  omega

theorem le_antisymm {a b : IPv6Endpoint} (ab : a.le b = true) (ba : b.le a = true) : a = b := by
  rw [le_iff] at ab ba
  have addr : a.addr_ = b.addr_ := BitVec.eq_of_toNat_eq (by omega)
  have port : a.port_ = b.port_ := by omega
  cases a
  cases b
  simp only at addr port
  rw [addr, port]

end Endpoint

theorem flowCacheKey_comm (a b : IPv6Endpoint) : (flowCacheKey a b).1 = (flowCacheKey b a).1 := by
  unfold flowCacheKey
  by_cases ab : a.le b = true
  · by_cases ba : b.le a = true
    · rw [Endpoint.le_antisymm ab ba]
    · simp only [ab, ba, if_true, Bool.false_eq_true, if_false]
  · have ba : b.le a = true := (Endpoint.le_total a b).resolve_left ab
    simp only [ab, ba, if_true, Bool.false_eq_true, if_false]

theorem flowCacheKey_eq_iff (a b c d : IPv6Endpoint) :
    (flowCacheKey a b).1 = (flowCacheKey c d).1 ↔ (a = c ∧ b = d) ∨ (a = d ∧ b = c) := by
  constructor
  · intro key
    by_cases same : c = a ∧ d = b
    · exact Or.inl ⟨same.1.symm, same.2.symm⟩
    · obtain ⟨ca, db, -⟩ := reverse_of_key_eq key same
      exact Or.inr ⟨db.symm, ca.symm⟩
  · rintro (⟨rfl, rfl⟩ | ⟨rfl, rfl⟩)
    · rfl
    · exact flowCacheKey_comm a b

/-- The arguments of a call, and what the caller consumes of the data it gets: `none`
stands for no call of `consume`. -/
structure Call where
  ts : Timestamp
  src : IPv6Endpoint
  dst : IPv6Endpoint
  seq : Seq
  data : Bytes
  flags : BitVec 8
  take : Bytes → Bool → Option Nat

namespace Call

def key (c : Call) : FlowCacheKey := (flowCacheKey c.src c.dst).1

def isX (c : Call) : Bool := (flowCacheKey c.src c.dst).2

def end_ (c : Call) : Seq :=
  if anyFlag c.flags tcpSyn then c.seq + 1 else c.seq + narrow c.data.length

def final (c : Call) : Bool := anyFlag c.flags (tcpFin ||| tcpRst)

/-- The segment is dropped before the cache is looked at: a `SYN` with data, or neither
data nor one of the flags that matter. -/
def ignored (c : Call) : Bool :=
  (anyFlag c.flags tcpSyn && !c.data.isEmpty) ||
    (c.data.isEmpty && !anyFlag c.flags (tcpSyn ||| tcpFin ||| tcpRst))

def opens (c : Call) (entry : FlowCacheEntry) : Bool :=
  !c.ignored && admission entry c.ts c.flags == .opened

end Call

/-- A call of `receive` and the consumption of what it returned. -/
def submit (flows : FlowCache) (c : Call) : FlowCache × FlowData :=
  let r := flows.receive c.ts c.src c.dst c.seq c.data c.flags
  match c.take r.2.data_ r.2.final_ with
  | some len => (r.1.consume c.src c.dst r.2 len, r.2)
  | none => r

def receiveOn (c : Call) (entry : FlowCacheEntry) : FlowCacheEntry × FlowData :=
  let r := (entry.side c.isX).receive c.ts c.end_ c.data entry.sessionID c.final entry.lastSeen
  ({ (entry.setSide c.isX r.state) with lastSeen := r.lastSeen }, r.flow)

/-- What `receive` does to the entry when `fresh` is the next session number. -/
def admitOn (c : Call) (fresh : UInt64) (entry : FlowCacheEntry) : FlowCacheEntry × FlowData :=
  if c.ignored then (entry, FlowData.none 0)
  else
    match admission entry c.ts c.flags with
    | .opened => receiveOn c (entry.reset c.ts fresh)
    | .late => (entry, FlowData.none entry.sessionID)
    | .current => receiveOn c entry

def consumeOn (c : Call) (flow : FlowData) (entry : FlowCacheEntry) : FlowCacheEntry :=
  match c.take flow.data_ flow.final_ with
  | some len => entry.setSide c.isX ((entry.side c.isX).consume flow len)
  | none => entry

def submitOn (c : Call) (fresh : UInt64) (entry : FlowCacheEntry) : FlowCacheEntry × FlowData :=
  (consumeOn c (admitOn c fresh entry).2 (admitOn c fresh entry).1, (admitOn c fresh entry).2)

def counterAfter (flows : FlowCache) (c : Call) : UInt64 :=
  if c.opens (flows.cache_ c.key) then flows.assignSessionID else flows.assignSessionID_

private theorem receive_eq (flows : FlowCache) (c : Call) :
    flows.receive c.ts c.src c.dst c.seq c.data c.flags =
      ({ cache_ := Function.update flows.cache_ c.key
          (admitOn c flows.assignSessionID (flows.cache_ c.key)).1
         assignSessionID_ := counterAfter flows c },
       (admitOn c flows.assignSessionID (flows.cache_ c.key)).2) := by
  by_cases syn : (anyFlag c.flags tcpSyn && !c.data.isEmpty) = true
  · have ignored : c.ignored = true := by simp [Call.ignored, syn]
    simp only [FlowCache.receive, syn, if_true, admitOn, ignored, Function.update_eq_self,
      counterAfter, Call.opens, Bool.not_true, Bool.false_and, Bool.false_eq_true, if_false]
  by_cases bare : (c.data.isEmpty && !anyFlag c.flags (tcpSyn ||| tcpFin ||| tcpRst)) = true
  · have ignored : c.ignored = true := by simp [Call.ignored, bare]
    simp only [FlowCache.receive, syn, bare, if_true, admitOn, ignored, Function.update_eq_self,
      counterAfter, Call.opens, Bool.not_true, Bool.false_and, Bool.false_eq_true, if_false]
  have kept : c.ignored = false := by
    simp [Call.ignored, syn, bare]
  have key : flowCacheKey c.src c.dst = (c.key, c.isX) := rfl
  cases admitted : admission (flows.cache_ c.key) c.ts c.flags with
  | opened =>
    simp only [FlowCache.receive, syn, bare, key, admitted, admitOn, kept, counterAfter,
      Call.opens, Bool.false_eq_true, if_false, Bool.not_false, Bool.true_and, beq_self_eq_true,
      if_true, receiveSide, restart, setEntry, Function.update_self, Function.update_idem,
      receiveOn]
    rfl
  | late =>
    simp only [FlowCache.receive, syn, bare, key, admitted, admitOn, kept, counterAfter,
      Call.opens, Bool.false_eq_true, if_false, Bool.not_false, Bool.true_and,
      Function.update_eq_self]
    rfl
  | current =>
    simp only [FlowCache.receive, syn, bare, key, admitted, admitOn, kept, counterAfter,
      Call.opens, Bool.false_eq_true, if_false, Bool.not_false, Bool.true_and, receiveSide,
      setEntry, receiveOn]
    rfl

private theorem sessionID_receive (st : FlowState) (ts : Timestamp) (end_ : Seq) (data : Bytes)
    (sessionID : UInt64) (final : Bool) (lastSeen : Timestamp) :
    (st.receive ts end_ data sessionID final lastSeen).flow.sessionID_ = sessionID := by
  unfold FlowState.receive
  simp only
  split_ifs
  · rfl
  · rfl
  · rfl
  · simp only [FlowState.latestData]
    split
    · rfl
    · split_ifs <;> rfl

@[simp] theorem entryID_receiveOn (c : Call) (entry : FlowCacheEntry) :
    (receiveOn c entry).1.sessionID = entry.sessionID := by
  simp only [receiveOn, sessionID_setSide]

@[simp] theorem flowID_receiveOn (c : Call) (entry : FlowCacheEntry) :
    (receiveOn c entry).2.sessionID_ = entry.sessionID := by
  simp only [receiveOn, sessionID_receive]

@[simp] theorem entryID_consumeOn (c : Call) (flow : FlowData) (entry : FlowCacheEntry) :
    (consumeOn c flow entry).sessionID = entry.sessionID := by
  unfold consumeOn
  split
  · exact sessionID_setSide _ _ _
  · rfl

theorem consumeOn_none (c : Call) (sessionID : UInt64) (entry : FlowCacheEntry) :
    consumeOn c (FlowData.none sessionID) entry = entry := by
  unfold consumeOn
  split
  · cases c.isX <;> rfl
  · rfl

theorem entryID_submitOn (c : Call) (fresh : UInt64) (entry : FlowCacheEntry) :
    (submitOn c fresh entry).1.sessionID =
      if c.opens entry then fresh else entry.sessionID := by
  cases ignored : c.ignored with
  | true => simp [submitOn, admitOn, Call.opens, ignored]
  | false =>
    cases admitted : admission entry c.ts c.flags with
    | opened =>
      simp only [submitOn, entryID_consumeOn, admitOn, Call.opens, ignored, admitted]
      exact entryID_receiveOn c _
    | late => simp [submitOn, admitOn, Call.opens, ignored, admitted]
    | current => simp [submitOn, admitOn, Call.opens, ignored, admitted]

private theorem flowID_submitOn (c : Call) (fresh : UInt64) (entry : FlowCacheEntry)
    (numbered : (submitOn c fresh entry).2.sessionID_ ≠ 0) :
    (submitOn c fresh entry).2.sessionID_ = (submitOn c fresh entry).1.sessionID := by
  rw [entryID_submitOn]
  cases ignored : c.ignored with
  | true =>
    simp only [submitOn, admitOn, ignored, if_true] at numbered
    exact absurd rfl numbered
  | false =>
    cases admitted : admission entry c.ts c.flags with
    | opened =>
      simp only [submitOn, admitOn, Call.opens, ignored, admitted]
      exact flowID_receiveOn c _
    | late => simp [submitOn, admitOn, Call.opens, ignored, admitted, FlowData.none]
    | current => simp [submitOn, admitOn, Call.opens, ignored, admitted]

private theorem submitOn_late {c : Call} (fresh : UInt64) {entry : FlowCacheEntry}
    (late : admission entry c.ts c.flags = .late) :
    (submitOn c fresh entry).1 = entry ∧
      ∃ sessionID, (submitOn c fresh entry).2 = FlowData.none sessionID := by
  cases ignored : c.ignored with
  | true =>
    simp only [submitOn, admitOn, ignored, if_true]
    exact ⟨consumeOn_none c _ _, _, rfl⟩
  | false =>
    simp only [submitOn, admitOn, ignored, late, Bool.false_eq_true, if_false]
    exact ⟨consumeOn_none c _ _, _, rfl⟩

theorem submit_eq (flows : FlowCache) (c : Call) :
    submit flows c =
      ({ cache_ := Function.update flows.cache_ c.key
          (submitOn c flows.assignSessionID (flows.cache_ c.key)).1
         assignSessionID_ := counterAfter flows c },
       (submitOn c flows.assignSessionID (flows.cache_ c.key)).2) := by
  have key : flowCacheKey c.src c.dst = (c.key, c.isX) := rfl
  simp only [submit, receive_eq, submitOn, consumeOn]
  split
  · simp [FlowCache.consume, key, setEntry]
  · rfl

theorem entry_submit (flows : FlowCache) (c : Call) :
    (submit flows c).1.cache_ c.key =
      (submitOn c flows.assignSessionID (flows.cache_ c.key)).1 := by
  rw [submit_eq]
  exact Function.update_self _ _ _

theorem flow_submit (flows : FlowCache) (c : Call) :
    (submit flows c).2 = (submitOn c flows.assignSessionID (flows.cache_ c.key)).2 := by
  rw [submit_eq]

structure Step where
  call : Call
  before : FlowCache
  after : FlowCache
  flow : FlowData

/-- The steps of a run that starts with the cache `flows`. -/
def trace : FlowCache → List Call → List Step
  | _, [] => []
  | flows, c :: rest =>
      ⟨c, flows, (submit flows c).1, (submit flows c).2⟩ :: trace (submit flows c).1 rest

namespace Step

def entryBefore (s : Step) : FlowCacheEntry := s.before.cache_ s.call.key

def entryAfter (s : Step) : FlowCacheEntry := s.after.cache_ s.call.key

def opens (s : Step) : Bool := s.call.opens s.entryBefore

end Step

def openedIDs (steps : List Step) : List UInt64 :=
  (steps.filter Step.opens).map fun s => s.entryAfter.sessionID

structure Tracked (s : Step) : Prop where
  /-- The other direction has the same entry. -/
  shared : (flowCacheKey s.call.dst s.call.src).1 = s.call.key
  current : s.flow.sessionID_ ≠ 0 → s.flow.sessionID_ = s.entryAfter.sessionID
  others : ∀ key, key ≠ s.call.key → s.after.cache_ key = s.before.cache_ key
  steady : s.opens = false → s.entryAfter.sessionID = s.entryBefore.sessionID
  reason : s.entryBefore.sessionID ≠ 0 → s.opens = true →
    (s.entryBefore.finished = true ∧
        (anyFlag s.call.flags tcpSyn = true ∨ s.entryBefore.idle s.call.ts = true)) ∨
      (s.entryBefore.finished = false ∧ isSyn s.call.flags = true ∧
        s.entryBefore.idle s.call.ts = true)
  late : s.entryBefore.sessionID ≠ 0 → s.entryBefore.finished = true →
    anyFlag s.call.flags tcpSyn = false → s.entryBefore.idle s.call.ts = false →
    s.flow.data_ = [] ∧ s.flow.final_ = false ∧ s.after.cache_ = s.before.cache_

section

variable (flows : FlowCache)

theorem tracked_submit (c : Call) : Tracked ⟨c, flows, (submit flows c).1, (submit flows c).2⟩ := by
  refine ⟨flowCacheKey_comm _ _, ?_, ?_, ?_, ?_, ?_⟩
  · intro numbered
    simp only [flow_submit, Step.entryAfter, entry_submit] at numbered ⊢
    exact flowID_submitOn c _ _ numbered
  · intro key other
    simp only [submit_eq]
    exact Function.update_of_ne other _ _
  · intro stays
    simp only [Step.entryAfter, entry_submit]
    rw [entryID_submitOn, show c.opens (flows.cache_ c.key) = false from stays]
    rfl
  · intro exists_ opens
    have opened : admission (flows.cache_ c.key) c.ts c.flags = .opened := by
      simp only [Step.opens, Call.opens, Bool.and_eq_true, beq_iff_eq] at opens
      exact opens.2
    simp only [Step.entryBefore] at exists_ ⊢
    rw [admission, if_neg exists_] at opened
    split_ifs at opened with finished fresh restarted
    · exact Or.inl ⟨finished, by simpa only [Bool.or_eq_true] using fresh⟩
    · rw [Bool.and_eq_true] at restarted
      exact Or.inr ⟨by simpa using finished, restarted⟩
  · intro exists_ finished noSyn waiting
    have late : admission (flows.cache_ c.key) c.ts c.flags = .late := by
      simp only [Step.entryBefore] at exists_ finished waiting
      simp only [admission, if_neg exists_, finished, if_true, noSyn, waiting, Bool.or_self,
        Bool.false_eq_true, if_false]
    obtain ⟨entry, sessionID, flow⟩ := submitOn_late flows.assignSessionID late
    rw [submit_eq]
    refine ⟨?_, ?_, ?_⟩
    · rw [flow]
      rfl
    · rw [flow]
      rfl
    · rw [entry]
      exact Function.update_eq_self _ _

theorem tracked_trace (calls : List Call) : ∀ s ∈ trace flows calls, Tracked s := by
  induction calls generalizing flows with
  | nil =>
    intro s member
    cases member
  | cons c rest ih =>
    intro s member
    rcases List.mem_cons.mp member with rfl | later
    · exact tracked_submit flows c
    · exact ih _ s later

theorem openedIDs_cons (c : Call) (rest : List Call) : openedIDs (trace flows (c :: rest)) =
      (if c.opens (flows.cache_ c.key) then [flows.assignSessionID] else []) ++
        openedIDs (trace (submit flows c).1 rest) := by
  cases opens : c.opens (flows.cache_ c.key) with
  | true =>
    have number : ((submit flows c).1.cache_ c.key).sessionID = flows.assignSessionID := by
      rw [entry_submit, entryID_submitOn, opens, if_pos rfl]
    simp only [trace, openedIDs, List.filter_cons, Step.opens, Step.entryBefore, opens, if_true,
      List.map_cons, Step.entryAfter, number, List.singleton_append]
  | false =>
    simp [trace, openedIDs, Step.opens, Step.entryBefore, opens]

theorem toNat_assignSessionID (room : flows.assignSessionID_.toNat + 1 < 2 ^ 64) :
    flows.assignSessionID.toNat = flows.assignSessionID_.toNat + 1 := by
  have next : (flows.assignSessionID_ + 1).toNat = flows.assignSessionID_.toNat + 1 := by
    exact Nat.mod_eq_of_lt room
  have ne : flows.assignSessionID_ + 1 ≠ 0 := by
    intro zero
    rw [zero] at next
    simp at next
  rw [assignSessionID, if_neg ne, next]

theorem counter_submit (c : Call) : (submit flows c).1.assignSessionID_ = counterAfter flows c := by
  rw [submit_eq]

theorem openedIDs_eq_range' (calls : List Call)
    (few : flows.assignSessionID_.toNat + (openedIDs (trace flows calls)).length < 2 ^ 64) :
    (openedIDs (trace flows calls)).map UInt64.toNat =
      List.range' (flows.assignSessionID_.toNat + 1) (openedIDs (trace flows calls)).length := by
  induction calls generalizing flows with
  | nil => rfl
  | cons c rest ih =>
    have counter := counter_submit flows c
    rw [openedIDs_cons] at few ⊢
    cases opens : c.opens (flows.cache_ c.key) with
    | false =>
      simp only [counterAfter, opens, Bool.false_eq_true, if_false] at counter
      simp only [opens, Bool.false_eq_true, if_false, List.nil_append] at few ⊢
      have later := ih (submit flows c).1
      rw [counter] at later
      exact later few
    | true =>
      simp only [counterAfter, opens, if_true] at counter
      simp only [opens, if_true, List.singleton_append, List.length_cons] at few ⊢
      have number := toNat_assignSessionID flows (by omega)
      have later := ih (submit flows c).1
      rw [counter, number] at later
      rw [List.map_cons, number, List.range'_succ, later (by omega)]

private theorem entryID_mem_openedIDs (calls : List Call) (ids : List UInt64)
    (known : ∀ key, (flows.cache_ key).sessionID ≠ 0 → (flows.cache_ key).sessionID ∈ ids) :
    ∀ s ∈ trace flows calls, s.entryAfter.sessionID ≠ 0 →
      s.entryAfter.sessionID ∈ ids ++ openedIDs (trace flows calls) := by
  induction calls generalizing flows ids with
  | nil =>
    intro s member
    cases member
  | cons c rest ih =>
    have after : ∀ key, ((submit flows c).1.cache_ key).sessionID ≠ 0 →
        ((submit flows c).1.cache_ key).sessionID ∈
          ids ++ if c.opens (flows.cache_ c.key) then [flows.assignSessionID] else [] := by
      intro key numbered
      by_cases same : key = c.key
      · subst same
        rw [entry_submit, entryID_submitOn] at numbered ⊢
        split_ifs at numbered ⊢
        · exact List.mem_append_right _ (List.mem_singleton_self _)
        · exact List.mem_append_left _ (known _ numbered)
      · rw [(tracked_submit flows c).others key same] at numbered ⊢
        exact List.mem_append_left _ (known key numbered)
    intro s member numbered
    rw [openedIDs_cons, ← List.append_assoc]
    rcases List.mem_cons.mp member with rfl | later
    · exact List.mem_append_left _ (after c.key numbered)
    · exact ih _ _ after s later numbered

end

/-- Along every run of fewer than `2 ^ 64` sessions: the steps track the sessions, session
numbers are non-zero and strictly increasing in the order of creation, and every number
that a call returns is that of a session opened in the run. -/
theorem sessions_tracked (calls : List Call) (few : (openedIDs (trace {} calls)).length < 2 ^ 64) :
    (∀ s ∈ trace {} calls, Tracked s) ∧
      (openedIDs (trace {} calls)).Pairwise (· < ·) ∧
      (∀ id ∈ openedIDs (trace {} calls), id ≠ 0) ∧
      ∀ s ∈ trace {} calls, s.flow.sessionID_ ≠ 0 →
        s.flow.sessionID_ ∈ openedIDs (trace {} calls) := by
  have numbers := openedIDs_eq_range' {} calls (by simpa using few)
  refine ⟨tracked_trace {} calls, ?_, ?_, ?_⟩
  · have increasing : ((openedIDs (trace {} calls)).map UInt64.toNat).Pairwise (· < ·) := by
      rw [numbers]
      exact List.pairwise_lt_range'
    rwa [List.pairwise_map] at increasing
  · intro id member zero
    have inside := List.mem_map_of_mem (f := UInt64.toNat) member
    rw [numbers, zero, List.mem_range'_1] at inside
    exact absurd inside.1 (by simp)
  · intro s member numbered
    have entry := (tracked_trace {} calls s member).current numbered
    rw [entry] at numbered ⊢
    have known := entryID_mem_openedIDs {} calls [] (fun key other => absurd rfl other)
    simpa using known s member numbered

/-- A segment at `seconds` between two fixed endpoints, all of whose data is consumed. -/
def segmentAt (seconds : Nat) (forward : Bool) (flags : BitVec 8) : Call where
  ts := ⟨seconds, 0⟩
  src := if forward then ⟨1, 6633⟩ else ⟨2, 6653⟩
  dst := if forward then ⟨2, 6653⟩ else ⟨1, 6633⟩
  seq := 7
  data := []
  flags := flags
  take := fun data _ => some data.length

/-- Both sides of a connection are finished; a late segment is dropped and a `SYN` opens
the next session. -/
theorem sessions_tracked_reopened :
    openedIDs (trace {} [segmentAt 0 true tcpFin, segmentAt 1 false tcpFin,
        segmentAt 2 true tcpFin, segmentAt 3 true tcpSyn]) = [1, 2] ∧
      ∀ s ∈ trace {} [segmentAt 0 true tcpFin, segmentAt 1 false tcpFin,
        segmentAt 2 true tcpFin, segmentAt 3 true tcpSyn], Tracked s :=
  ⟨by decide, (sessions_tracked _ (by decide)).1⟩

end Libofp.Demux.SessionTracking
