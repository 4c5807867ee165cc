/- GID: Libofp/Normalize/Termination
   digest: When normalisation of a message ends. -/

import Libofp.Normalize.Dispatch
import Libofp.Normalize.RecordProgress

set_option autoImplicit false

namespace Libofp.Normalize.Termination

open Octets.ByteRange Octets.ByteList Octets.BigEndian
open Base.Iteration Oxm.Field Messages Messages.Header
open Actions.ActionRange ActionRewrite ActionSpans
open ActionProgress FlowMessages Ports Queues
open MultipartReplies RecordProgress Dispatch

variable {host : Host} {slack : Slack}

def scanSize (returned : Bool) (left : Bytes) : Nat := bif returned then 0 else left.length + 1

theorem scanSize_returned {left left' : Bytes} : scanSize true left' < scanSize false left :=
  Nat.succ_pos _

theorem scanSize_drop {left : Bytes} {n : Nat} (positive : 0 < n) (nonempty : 0 < left.length) :
    scanSize false (left.drop n) < scanSize false left := by
  simp only [scanSize, cond_false, List.length_drop]
  omega

private theorem halts_properties (s : PropertyScan) :
    Halts fun fuel => whileLoop PropertyScan.more propertyTurn fuel s := by
  apply halts_whileLoop (fun _ => True) (fun s => scanSize s.returned s.left)
  · intro s _ _
    apply halts_const
    unfold propertyTurn
    simp only
    split <;> simp
  · rintro s s' - ⟨more, settled⟩
    have turn := eq_of_settles_const settled
    simp only [PropertyScan.more, Bool.and_eq_true, Bool.not_eq_true', decide_eq_true_eq] at more
    refine ⟨trivial, ?_⟩
    unfold propertyTurn at turn
    simp only at turn
    split at turn
    · obtain rfl := Outcome.done.inj turn
      simp only [more.1]
      exact scanSize_returned
    · obtain rfl := Outcome.done.inj turn
      simp only [more.1]
      exact scanSize_drop (by omega) (by omega)
  · trivial

private theorem halts_queueTurn (s : QueueScan) : Halts fun fuel => queueTurn fuel s := by
  refine halts_past fun _ => ?_
  exact halts_map (halts_properties _) _

theorem halts_queues (buf : Bytes) :
    Halts fun fuel => normalizeQueueGetConfigReplyV2 fuel buf := by
  refine halts_past fun _ => halts_map ?_ _
  apply halts_whileLoop (fun _ => True) (fun s => scanSize s.returned s.left)
  · intro s _ _
    exact halts_queueTurn s
  · rintro s s' - ⟨more, _, n, settled⟩
    have turn : queueTurn n s = .done s' := settled n (Nat.le_refl n)
    simp only [QueueScan.more, Bool.and_eq_true, Bool.not_eq_true', decide_eq_true_eq] at more
    refine ⟨trivial, ?_⟩
    unfold queueTurn at turn
    simp only at turn
    split at turn
    · obtain rfl := Outcome.done.inj turn
      simp only [more.1]
      exact scanSize_returned
    · obtain ⟨props, _, turn⟩ := Outcome.bind_eq_done turn
      obtain rfl := Outcome.done.inj turn
      simp only [more.1]
      split
      · exact scanSize_returned
      · exact scanSize_drop (by omega) (by omega)
  · trivial

theorem halts_window (buf : Bytes) {address pos len ipProto : Nat} (inside : pos + len ≤ buf.length)
    (valid : validateInput address (window buf pos len) = true) :
    Halts fun fuel => normActionsV1orV2 host slack fuel ipProto ⟨buf, pos, pos + len, 0, []⟩ :=
  halts_of_accepted (spans_window inside) (accepts_of_validateInput valid)

private theorem halts_flowMod (buf : Bytes) :
    Halts fun fuel => normalizeFlowModV1 host slack fuel buf := by
  iterate 3 refine halts_past fun _ => ?_
  refine halts_ite (fun actions => ?_) fun _ => halts_done _
  refine halts_ite (fun valid => ?_) fun _ => halts_done _
  apply halts_map
  refine halts_window _ (Nat.le_of_eq ?_) valid
  -- 72 bytes in front of the actions become 144; every write before that is inside.
  symm
  apply length_poke_of 88 (by omega) (Nat.le_of_eq (Match.Standard.length_toBytes ..))
  rw [length_insertUninitialized, if_pos actions]
  have origin : buf.length + (64 + 8) = 144 + (buf.length - 72) := by omega
  refine Eq.trans (congrArg (· + (64 + 8)) ?_) origin
  apply length_poke_of 2 (by omega) (by simp)
  apply length_poke_of 2 (by omega) (length_window_le ..)
  apply length_poke_of 4 (by omega) (by simp)
  apply length_poke_of 4 (by omega) (by simp)
  apply length_poke_of 12 (by omega) (length_window_le ..)
  apply length_poke_of 8 (by omega) (by simp)
  apply length_poke_of 8 (by omega) (length_window_le ..)
  rfl

private theorem halts_packetOut (buf : Bytes) :
    Halts fun fuel => normalizePacketOutV1 host slack fuel buf := by
  iterate 3 refine halts_past fun _ => ?_
  refine halts_past fun inside => ?_
  refine halts_ite (fun _ => ?_) fun _ => halts_done _
  refine halts_ite (fun valid => ?_) fun _ => halts_done _
  apply halts_map
  refine halts_window _ ?_ valid
  rw [length_poke_of 6 (by omega) (by simp)
    (length_poke_of 4 (by omega) (by simp) (length_insertUninitialized slack buf 12 8))]
  omega

section

variable {buf : Bytes} {kind : RecordKind} {start : Walk}

theorem followPlan_of_entered {plan : ReplyPlan} (h : enteredBy plan buf = some (kind, start))
    (fuel : Nat) :
    followPlan host slack plan fuel buf = (records host slack kind fuel start).map Walk.buf := by
  cases plan with
  | records kind' =>
    obtain ⟨rfl, rfl⟩ := Prod.mk.inj (Option.some.inj h)
    rfl
  | portDescV1 => simp [enteredBy] at h
  | portDescV4 => simp [enteredBy] at h
  | leave => simp [enteredBy] at h

theorem halts_followPlan {plan : ReplyPlan} (h : enteredBy plan buf = none) :
    Halts fun fuel => followPlan host slack plan fuel buf := by
  cases plan with
  | records kind => simp [enteredBy] at h
  | portDescV1 => exact halts_done _
  | portDescV4 => exact halts_done _
  | leave => exact halts_done _

theorem normalizeBody_replyV1 (fuel : Nat) (buf : Bytes) :
    normalizeBody host slack 1 OFPT.multipartReply fuel buf =
      normalizeMultipartReplyV1 host slack fuel buf := by
  rw [normalizeBody, if_pos rfl, normalizeV1]
  iterate 8 rw [if_neg (by decide)]
  rw [if_pos rfl]

theorem normalizeBody_reply {version : Nat} (later : 2 ≤ version) (fuel : Nat) (buf : Bytes) :
    normalizeBody host slack version OFPT.multipartReply fuel buf =
      normalizeMultipartReply host slack (laterReplyPlan version) fuel buf := by
  unfold normalizeBody laterReplyPlan
  rw [if_neg (by omega)]
  by_cases two : version = 2
  · rw [if_pos two, if_pos two, normalizeV2]
    iterate 3 rw [if_neg (by decide)]
    rw [if_pos rfl, normalizeMultipartReplyV2]
  by_cases three : version = 3
  · rw [if_neg two, if_neg two, if_pos three, if_pos three, normalizeV3]
    iterate 3 rw [if_neg (by decide)]
    rw [if_pos rfl, normalizeMultipartReplyV3]
  rw [if_neg two, if_neg two, if_neg three, if_neg three]
  by_cases four : version = 4
  · rw [if_pos four, if_pos four, normalizeV4]
    iterate 3 rw [if_neg (by decide)]
    rw [if_pos rfl, normalizeMultipartReplyV4]
  · rw [if_neg four, if_neg four, if_pos (by omega), normalizeV5, if_pos rfl,
      normalizeMultipartReplyV5]

theorem normalize_of_entered (h : enteredLoop buf = some (kind, start)) (fuel : Nat) :
    normalize host slack fuel buf =
      (records host slack kind fuel start).map fun w => finishHeader w.buf := by
  rw [Dispatch.normalize, ← Outcome.map_map _ Walk.buf finishHeader]
  congr 1
  unfold enteredLoop at h
  simp only at h
  split at h
  · simp at h
  rename_i reply
  obtain ⟨reply, known⟩ := not_or.mp reply
  rw [Classical.not_not.mp reply]
  split at h
  · rename_i one
    split at h
    · simp at h
    · rename_i long
      rw [one, normalizeBody_replyV1, normalizeMultipartReplyV1, if_neg long]
      exact followPlan_of_entered h fuel
  · split at h
    · simp at h
    · rename_i long
      rw [normalizeBody_reply (by omega), normalizeMultipartReply, if_neg long]
      exact followPlan_of_entered h fuel

private theorem halts_multipartReplyV1
    (h : ¬ Header.length buf < 12 →
      enteredBy (replyPlanV1 (replyType (insertZeros buf 12 4))) (insertZeros buf 12 4) = none) :
    Halts fun fuel => normalizeMultipartReplyV1 host slack fuel buf := by
  exact halts_past fun long => halts_followPlan (h long)

private theorem halts_multipartReply {plan : MultipartType → ReplyPlan}
    (h : ¬ Header.length buf < sizeofMultipart → enteredBy (plan (replyType buf)) buf = none) :
    Halts fun fuel => normalizeMultipartReply host slack plan fuel buf := by
  exact halts_past fun long => halts_followPlan (h long)

private theorem halts_reply_of_not_entered (reply : messageType buf = OFPT.multipartReply)
    (h : enteredLoop buf = none) :
    Halts fun fuel =>
      normalizeBody host slack (version buf) OFPT.multipartReply fuel (repairHeader buf) := by
  unfold enteredLoop at h
  generalize repairHeader buf = repaired at h ⊢
  by_cases none : version buf = 0
  · rw [none]
    exact halts_done _
  rw [if_neg (by simp [reply, none])] at h
  by_cases one : version buf = 1
  · simp only [one, normalizeBody_replyV1]
    rw [if_pos one] at h
    exact halts_multipartReplyV1 fun long => (if_neg long).symm.trans h
  · simp only [normalizeBody_reply (show 2 ≤ version buf by omega)]
    rw [if_neg one] at h
    exact halts_multipartReply fun long => (if_neg long).symm.trans h

section

variable {type : Nat} (other : type ≠ OFPT.multipartReply) (buf : Bytes)

include other

private theorem halts_otherV1 : Halts fun fuel => normalizeV1 host slack type fuel buf := by
  refine halts_past fun _ => ?_
  refine halts_ite (fun _ => halts_flowMod buf) fun _ => ?_
  refine halts_past fun _ => ?_
  refine halts_past fun _ => ?_
  refine halts_ite (fun _ => halts_packetOut buf) fun _ => ?_
  iterate 3 refine halts_past fun _ => ?_
  refine halts_ite (fun reply => absurd reply other) fun _ => ?_
  exact halts_past fun _ => halts_done _

private theorem halts_otherV2 : Halts fun fuel => normalizeV2 host slack type fuel buf := by
  iterate 3 refine halts_past fun _ => ?_
  refine halts_ite (fun reply => absurd reply other) fun _ => ?_
  exact halts_past fun _ => halts_done _

private theorem halts_otherV3 : Halts fun fuel => normalizeV3 host slack type fuel buf := by
  iterate 3 refine halts_past fun _ => ?_
  refine halts_ite (fun reply => absurd reply other) fun _ => ?_
  exact halts_ite (fun _ => halts_queues buf) fun _ => halts_done _

private theorem halts_otherV4 : Halts fun fuel => normalizeV4 host slack type fuel buf := by
  iterate 3 refine halts_past fun _ => ?_
  refine halts_ite (fun reply => absurd reply other) fun _ => ?_
  refine halts_past fun _ => ?_
  exact halts_ite (fun _ => halts_queues buf) fun _ => halts_done _

private theorem halts_otherV5 : Halts fun fuel => normalizeV5 host slack type fuel buf := by
  exact halts_ite (fun reply => absurd reply other) fun _ => halts_done _

private theorem halts_other (version : Nat) :
    Halts fun fuel => normalizeBody host slack version type fuel buf := by
  refine halts_ite (fun _ => halts_otherV1 other buf) fun _ => ?_
  refine halts_ite (fun _ => halts_otherV2 other buf) fun _ => ?_
  refine halts_ite (fun _ => halts_otherV3 other buf) fun _ => ?_
  refine halts_ite (fun _ => halts_otherV4 other buf) fun _ => ?_
  exact halts_ite (fun _ => halts_otherV5 other buf) fun _ => halts_done _

end

private theorem halts_of_not_entered (h : enteredLoop buf = none) :
    Halts fun fuel => normalize host slack fuel buf := by
  refine halts_map ?_ finishHeader
  by_cases reply : messageType buf = OFPT.multipartReply
  · simp only [reply]
    exact halts_reply_of_not_entered reply h
  · exact halts_other reply (repairHeader buf) (version buf)

end

section

variable {kind : RecordKind} {start w w' : Walk}

variable (host slack) in
/-- The walk can step over the record that comes next: a group statistics entry does not
state the length 0, and the actions of an accepted flow statistics entry are calm. -/
def Advances (kind : RecordKind) (w : Walk) : Prop :=
  match kind with
  | .groupStatsV3 => 32 ≤ w.remaining → statLen w ≠ 0
  | .flowV1 => FlowAccepted slack w → CalmEntry host slack w
  | _ => True

theorem steady_turn (kind : RecordKind) (w : Walk) :
    Steady fun fuel => turn host slack kind fuel w := by
  cases kind with
  | flowV1 => exact steady_flow w
  | _ => exact steady_const _

private theorem halts_turn (h : Advances host slack kind w) :
    Halts fun fuel => turn host slack kind fuel w := by
  cases kind with
  | flowV1 => exact halts_flow h
  | _ => exact halts_done _

private theorem turn_of_settles (h : Turn Walk.more (turn host slack kind) w w') :
    ∃ fuel, turn host slack kind fuel w = .done w' :=
  let ⟨_, _, n, settled⟩ := h
  ⟨n, settled n (Nat.le_refl n)⟩

private theorem shrinks_turn (grouped : kind = .groupStatsV3 → 32 ≤ w.remaining → statLen w ≠ 0)
    (h : Turn Walk.more (turn host slack kind) w w') : Shrinks w w' := by
  have more := h.1
  obtain ⟨fuel, ended⟩ := turn_of_settles h
  cases kind with
  | flowV1 => exact shrinks_flow more ended
  | portStatsV1 =>
    obtain rfl := Outcome.done.inj ended
    exact shrinks_portStatsV1 slack more
  | queueStatsV1 =>
    obtain rfl := Outcome.done.inj ended
    exact shrinks_portOrQueueV1 (by omega) more
  | portStatsV2 =>
    obtain rfl := Outcome.done.inj ended
    exact shrinks_portStatsV2 slack more
  | queueStatsV3 =>
    obtain rfl := Outcome.done.inj ended
    exact shrinks_portOrQueueV3 (by omega) more
  | groupStatsV3 =>
    obtain rfl := Outcome.done.inj ended
    exact (shrinks_groupStats_iff (by omega) more).mpr (grouped rfl)
  | portStatsV4 =>
    obtain rfl := Outcome.done.inj ended
    exact shrinks_portStatsV4 slack more
  | tableStatsV4 =>
    obtain rfl := Outcome.done.inj ended
    exact shrinks_tableStats more

variable (host slack) in
/-- The part of the condition that the bytes of the message decide. Where the second of
two stalled headers lies behind the end of the buffer, what is read there is not known. -/
def AdvancesInside (kind : RecordKind) (w : Walk) : Prop :=
  match kind with
  | .groupStatsV3 => 32 ≤ w.remaining → statLen w ≠ 0
  | .flowV1 => FlowAccepted slack w →
      ∀ c, Reaches host slack (entryProto w) (actionStart slack w) c → c.more = true →
        c.iter + 20 ≤ c.buf.length → ¬ Spins slack (entryProto w) c
  | _ => True

variable (host slack) in
def Throughout (condition : RecordKind → Walk → Prop) (buf : Bytes) : Prop :=
  ∀ kind start, enteredLoop buf = some (kind, start) →
    ∀ w, Visits Walk.more (turn host slack kind) start w → w.more = true → condition kind w

variable (host slack) in
/-- Normalisation takes finitely many steps, and each turn of the loop over the records of
a multipart reply leaves less of the message. -/
def Terminates (buf : Bytes) : Prop :=
  (Halts fun fuel => normalize host slack fuel buf) ∧
    ∀ kind start, enteredLoop buf = some (kind, start) →
      ∀ w w', Visits Walk.more (turn host slack kind) start w →
        Turn Walk.more (turn host slack kind) w w' → w'.remaining < w.remaining

private theorem terminates_of_advances {buf : Bytes}
    (h : Throughout host slack (Advances host slack) buf) : Terminates host slack buf := by
  have shrinks : ∀ kind start, enteredLoop buf = some (kind, start) →
      ∀ w w', Visits Walk.more (turn host slack kind) start w →
        Turn Walk.more (turn host slack kind) w w' → w'.remaining < w.remaining := by
    intro kind start entered w w' visited step
    refine shrinks_turn ?_ step
    rintro rfl
    exact h _ start entered w visited step.1
  refine ⟨?_, shrinks⟩
  cases entered : enteredLoop buf with
  | none => exact halts_of_not_entered entered
  | some loop =>
    obtain ⟨kind, start⟩ := loop
    simp only [normalize_of_entered entered]
    apply halts_map
    apply halts_whileLoop_of_visits Walk.remaining
    · intro w visited more
      exact halts_turn (h kind start entered w visited more)
    · exact shrinks kind start entered

private theorem advancesInside_of_terminates {buf : Bytes} (h : Terminates host slack buf) :
    Throughout host slack (AdvancesInside host slack) buf := by
  obtain ⟨halts, shrinks⟩ := h
  intro kind start entered w visited more
  simp only [normalize_of_entered entered] at halts
  have loop := (steady_whileLoop (steady_turn kind) start).halts_of_map halts
  have first := halts_body_of_halts (steady_turn kind) more
    (halts_of_visits (steady_turn kind) visited loop)
  cases kind with
  | groupStatsV3 =>
    apply (shrinks_groupStats_iff (by omega) more).mp
    exact shrinks _ start entered w _ visited ⟨more, settles_const (by simp)⟩
  | flowV1 =>
    intro accepted c reached ahead room
    exact not_spins_of_halts accepted first reached ahead room
  | _ => trivial

/-- Normalisation ends when the walk can step over every record that it comes to, and it
ends only when it can as far as the bytes of the message decide. -/
theorem normalize_terminates (host : Host) (slack : Slack) (buf : Bytes) :
    (Throughout host slack (Advances host slack) buf → Terminates host slack buf) ∧
      (Terminates host slack buf → Throughout host slack (AdvancesInside host slack) buf) :=
  ⟨terminates_of_advances, advancesInside_of_terminates⟩

private theorem groupStats_zeros {pre : Bytes} {n : Nat} (room : 32 ≤ n) :
    normalizeMPGroupStatsReplyV3 32 ⟨pre ++ List.replicate n 0, pre.length⟩ =
      ⟨pre ++ [0, 8, 0, 0, 0, 0, 0, 0] ++ List.replicate n 0, pre.length + 8⟩ := by
  obtain ⟨m, rfl⟩ := Nat.exists_eq_add_of_le room
  have rest : (⟨pre ++ List.replicate (32 + m) 0, pre.length⟩ : Walk).remaining = 32 + m := by
    simp [Walk.remaining]
  have zero : statLen ⟨pre ++ List.replicate (32 + m) 0, pre.length⟩ = 0 := by
    simp only [statLen, big16, big8, List.getD_eq_getElem?_getD]
    rw [List.getElem?_append_right (by omega), List.getElem?_append_right (by omega),
      List.getElem?_replicate_of_lt (by omega), List.getElem?_replicate_of_lt (by omega)]
    rfl
  have stored : poke (pre ++ List.replicate (32 + m) 0) pre.length (bigBytes 2 (0 + 8)) =
      pre ++ ([0, 8] ++ List.replicate 30 0) ++ List.replicate m 0 := by
    have split : List.replicate (32 + m) (0 : UInt8) =
        List.replicate 2 0 ++ (List.replicate 30 0 ++ List.replicate m 0) := by
      rw [← List.replicate_add, ← List.replicate_add]
      congr 1
      omega
    rw [poke, replace, split, List.take_left, ← List.append_assoc, List.drop_left' (by simp)]
    simp [bigBytes]
  rw [normalizeMPGroupStatsReplyV3, rest, zero, if_neg (by omega), if_neg (by omega)]
  simp only [stored]
  rw [insertZeros, Octets.ByteList.insert, List.take_left' (by simp), List.drop_left' (by simp)]
  have zeros : List.replicate (32 + m) (0 : UInt8) =
      List.replicate 24 0 ++ List.replicate 8 0 ++ List.replicate m 0 := by
    rw [← List.replicate_add, ← List.replicate_add]
  rw [zeros]
  simp only [List.append_assoc]
  rfl

private theorem groupStats_running (pre : Bytes) {n : Nat} (room : 32 ≤ n) (fuel : Nat) :
    records host slack .groupStatsV3 fuel ⟨pre ++ List.replicate n 0, pre.length⟩ = .running := by
  apply whileLoop_running
    (fun w => ∃ pre n, 32 ≤ n ∧ w = ⟨pre ++ List.replicate n 0, pre.length⟩)
  · rintro _ ⟨pre, n, room, rfl⟩
    refine ⟨by simp [Walk.more]; omega, _, rfl, ?_⟩
    rw [groupStats_zeros room]
    exact ⟨pre ++ [0, 8, 0, 0, 0, 0, 0, 0], n, room, by simp⟩
  · exact ⟨pre, n, room, rfl⟩

def zeroGroupReply : Bytes :=
  [3, 19, 0, 48, 0, 0, 0, 1, 0, 6, 0, 0, 0, 0, 0, 0] ++ List.replicate 32 0

/-- A version 1 reply with one flow statistics entry that has two actions of type
`SET_VLAN_VID` and length 0, 16 bytes apart. -/
def stalledFlowReply : Bytes :=
  [1, 17, 0, 124, 0, 0, 0, 1, 0, 1, 0, 0] ++ [0, 112] ++ List.replicate 86 0 ++
    [0, 1, 0, 0, 0, 0, 0, 0, 0, 0, 0, 0, 0, 0, 0, 0, 0, 1, 0, 0, 0, 0, 0, 0]

private theorem flow_running (accepted : FlowAccepted slack w) (actions : 88 < flowLength slack w)
    (spins : Spins slack (entryProto w) (actionStart slack w))
    (room : (actionStart slack w).iter + 20 ≤ (actionStart slack w).buf.length) (fuel : Nat) :
    records host slack .flowV1 fuel w = .running := by
  have ahead : (actionStart slack w).more = true := by
    apply decide_eq_true
    simp only [actionStart]
    omega
  apply whileLoop_running_of_body
  · obtain ⟨inside, _, _⟩ := accepted
    exact decide_eq_true (by omega)
  · show normalizeMPFlowReplyV1 host slack fuel w = .running
    rw [flow_of_accepted accepted fuel actions,
      (sound_actionStart accepted).running ahead spins room, Outcome.map_running]

theorem normalize_never_ends :
    (∀ fuel, normalize .little (fun _ _ => 0) fuel zeroGroupReply = .running) ∧
      ∀ fuel, normalize .little (fun _ _ => 0) fuel stalledFlowReply = .running := by
  constructor
  · intro fuel
    have entered : enteredLoop zeroGroupReply =
        some (.groupStatsV3, ⟨zeroGroupReply, 16⟩) := by decide +kernel
    rw [normalize_of_entered entered]
    have stuck : records .little (fun _ _ => 0) .groupStatsV3 fuel ⟨zeroGroupReply, 16⟩ =
        .running := groupStats_running _ (Nat.le_refl 32) fuel
    rw [stuck, Outcome.map_running]
  · intro fuel
    have entered : enteredLoop stalledFlowReply =
        some (.flowV1, ⟨insertZeros (repairHeader stalledFlowReply) 12 4, 16⟩) := by
      decide +kernel
    rw [normalize_of_entered entered, flow_running (by decide +kernel) (by decide +kernel)
      (by decide +kernel) (by decide +kernel), Outcome.map_running]

end

end Libofp.Normalize.Termination
