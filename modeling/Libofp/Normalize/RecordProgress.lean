/- GID: Libofp/Normalize/RecordProgress
   digest: What one turn over a record of a multipart reply leaves of the reply. -/

import Libofp.Normalize.ActionProgress
import Libofp.Normalize.MultipartReplies

set_option autoImplicit false

namespace Libofp.Normalize.RecordProgress

open Octets.ByteRange Octets.ByteList Octets.BigEndian
open Base.Iteration Oxm.Field Messages.Header
open Match.Standard (StandardMatch)
open ActionRewrite ActionTurns ActionProgress FlowMessages
open MultipartReplies

section

variable {w : Walk}

def Shrinks (w w' : Walk) : Prop := w'.remaining < w.remaining

theorem shrinks_stop (more : w.more = true) : Shrinks w w.stop := by
  have ahead := of_decide_eq_true more
  simp only [Shrinks, Walk.remaining, Walk.stop]
  omega

theorem shrinks_reject {buf : Bytes} (more : w.more = true) (same : buf.length = w.buf.length) :
    Shrinks w (Walk.reject { w with buf := buf }) := by
  have ahead := of_decide_eq_true more
  have size := length_markInputInvalid (by omega : 0 < buf.length)
  simp only [Shrinks, Walk.remaining, Walk.reject, size, same]
  omega

theorem shrinks_tableStats (more : w.more = true) :
    Shrinks w (normalizeMPTableStatsReplyV4 w) := by
  have ahead := of_decide_eq_true more
  unfold normalizeMPTableStatsReplyV4
  split
  · exact shrinks_reject more rfl
  · simp only [Shrinks, Walk.remaining, length_insertZeros]
    omega

theorem shrinks_portOrQueueV1 {len : Nat} (wide : 4 ≤ len) (more : w.more = true) :
    Shrinks w (normalizeMPPortOrQueueStatsReplyV1 len w) := by
  unfold normalizeMPPortOrQueueStatsReplyV1
  split
  · exact shrinks_stop more
  · rename_i room
    rw [Walk.remaining] at room
    have size : (poke w.buf w.start (bigBytes 4 (normPortNumberV1 (big16 w.buf w.start)))).length =
        w.buf.length := length_poke_of 4 (by omega) (by simp) rfl
    simp only [Shrinks, Walk.remaining, length_insertZeros, size]
    omega

theorem shrinks_portOrQueueV3 {len : Nat} (wide : 0 < len) (more : w.more = true) :
    Shrinks w (normalizeMPPortOrQueueStatsReplyV3 len w) := by
  have ahead := of_decide_eq_true more
  unfold normalizeMPPortOrQueueStatsReplyV3
  split
  · exact shrinks_stop more
  · simp only [Shrinks, Walk.remaining, length_insertZeros]
    omega

private theorem remaining_groupStats {len : Nat} (wide : 2 ≤ len) (room : len ≤ w.remaining)
    (inside : statLen w ≤ w.remaining) :
    (normalizeMPGroupStatsReplyV3 len w).remaining = w.remaining - statLen w := by
  rw [Walk.remaining] at room inside
  have size : (poke w.buf w.start (bigBytes 2 (statLen w + 8))).length = w.buf.length :=
    length_poke_of 2 (by omega) (by simp) rfl
  rw [normalizeMPGroupStatsReplyV3, if_neg (by rw [Walk.remaining]; omega),
    if_neg (by rw [Walk.remaining]; omega)]
  simp only [Walk.remaining, length_insertZeros, size]
  omega

theorem shrinks_groupStats_iff {len : Nat} (wide : 2 ≤ len) (more : w.more = true) :
    Shrinks w (normalizeMPGroupStatsReplyV3 len w) ↔ (len ≤ w.remaining → statLen w ≠ 0) := by
  by_cases room : len ≤ w.remaining
  · by_cases inside : statLen w ≤ w.remaining
    · rw [Shrinks, remaining_groupStats wide room inside]
      omega
    · have stops : normalizeMPGroupStatsReplyV3 len w = w.stop := by
        rw [normalizeMPGroupStatsReplyV3, if_neg (by omega), if_pos (by omega)]
      rw [stops]
      have shrinks := shrinks_stop more
      exact ⟨fun _ _ => by omega, fun _ => shrinks⟩
  · rw [normalizeMPGroupStatsReplyV3, if_pos (by omega)]
    have shrinks := shrinks_stop more
    exact ⟨fun _ enough => absurd enough room, fun _ => shrinks⟩

section

variable (slack : Slack)

private theorem length_portStatsV4 (room : 112 ≤ w.remaining) :
    (normalizeMPPortStatsReplyV4 slack w).buf.length = w.buf.length + 8 := by
  rw [normalizeMPPortStatsReplyV4, if_neg (by omega)]
  rw [Walk.remaining] at room
  apply length_poke_of 2 (by omega) (by simp)
  apply length_poke_of 40 (by omega)
  · simp only [List.length_append, length_bigBytes, List.length_replicate]
    exact Nat.add_le_add_left (length_window_le ..) 8
  apply length_poke_of 8 (by omega) (length_window_le ..)
  apply length_poke_of 64 (by omega) (length_window_le ..)
  apply length_poke_of 8 (by omega)
  · rw [List.length_append]
    exact Nat.add_le_add (length_window_le ..) (length_window_le ..)
  exact length_insertUninitialized ..

theorem remaining_portStatsV4 (room : 112 ≤ w.remaining) :
    (normalizeMPPortStatsReplyV4 slack w).remaining = w.remaining - 112 := by
  have size := length_portStatsV4 slack room
  have next : (normalizeMPPortStatsReplyV4 slack w).start = w.start + 120 := by
    rw [normalizeMPPortStatsReplyV4, if_neg (by omega)]
  rw [Walk.remaining, size, next]
  rw [Walk.remaining] at room ⊢
  omega

theorem shrinks_portStatsV4 (more : w.more = true) :
    Shrinks w (normalizeMPPortStatsReplyV4 slack w) := by
  by_cases room : w.remaining < 112
  · rw [normalizeMPPortStatsReplyV4, if_pos room]
    exact shrinks_stop more
  · rw [Shrinks, remaining_portStatsV4 slack (by omega)]
    omega

theorem shrinks_widened {buf : Bytes} (room : 104 ≤ w.remaining)
    (same : buf.length = w.buf.length) :
    Shrinks w (normalizeMPPortStatsReplyV4 slack
      { w with buf := insertZeros buf (w.start + 104) 8 }) := by
  have wide : (⟨insertZeros buf (w.start + 104) 8, w.start⟩ : Walk).remaining =
      w.remaining + 8 := by
    rw [Walk.remaining] at room
    simp only [Walk.remaining, length_insertZeros, same]
    omega
  rw [Shrinks, remaining_portStatsV4 slack (by omega), wide]
  omega

theorem shrinks_portStatsV1 (more : w.more = true) :
    Shrinks w (normalizeMPPortStatsReplyV1 slack w) := by
  unfold normalizeMPPortStatsReplyV1
  split
  · exact shrinks_stop more
  · rename_i room
    refine shrinks_widened slack (by omega) ?_
    rw [Walk.remaining] at room
    exact length_poke_of 4 (by omega) (by simp) rfl

theorem shrinks_portStatsV2 (more : w.more = true) :
    Shrinks w (normalizeMPPortStatsReplyV2 slack w) := by
  unfold normalizeMPPortStatsReplyV2
  split
  · exact shrinks_stop more
  · exact shrinks_widened slack (by omega) rfl

end

end

section

variable {host : Host} {slack : Slack} {w w' : Walk} {c c' : Cursor} {ipProto : Nat}

theorem length_openFlowEntry (slack : Slack) (needed : Nat) (room : w.start + 88 ≤ w.buf.length)
    (wide : 48 ≤ needed) : (openFlowEntry slack w needed).length = w.buf.length + needed := by
  apply length_poke_of 88 (by omega) (Nat.le_of_eq (Match.Standard.length_toBytes ..))
  rw [length_insertUninitialized, length_poke_of 44 (by omega) (length_window_le ..) rfl]

/-- What the action loop of an entry keeps: the part of the entry before the actions is
in the buffer, and the buffer has grown by the length change. -/
structure Accounts (front : Nat) (size : Int) (c : Cursor) : Prop where
  iter : front ≤ c.iter
  buffer : front ≤ c.buf.length
  change : (c.buf.length : Int) = size + c.lengthChange

theorem Accounts.turn {front : Nat} {size : Int} (h : Accounts front size c)
    (turn : normTurn host slack ipProto c = .done c') : Accounts front size c' := by
  have iter := h.iter
  have change := h.change
  rcases turn_cases turn with ⟨_, rfl⟩ | ⟨r, _, room, rfl⟩
  · exact ⟨Nat.le_trans iter (Nat.le_add_right ..), h.buffer, change⟩
  · have grown := length_replaced slack r room
    refine ⟨Nat.le_trans iter (Nat.le_add_right ..), by omega, ?_⟩
    rw [grown]
    simp only [replaced]
    omega

theorem Accounts.reaches {front : Nat} {size : Int} (h : Accounts front size c)
    (reached : Reaches host slack ipProto c c') : Accounts front size c' := by
  induction reached with
  | refl => exact h
  | tail _ turn ih => exact ih.turn (eq_of_settles_const turn.2)

theorem sound_actionStart (accepted : FlowAccepted slack w) : Sound (actionStart slack w) := by
  obtain ⟨inside, long, units⟩ := accepted
  have size := length_openFlowEntry slack 56 (w := w) (by omega) (by omega)
  refine ⟨by simp only [actionStart]; omega, ?_, ?_⟩
  · simp only [actionStart]
    omega
  · simp only [actionStart, size]
    omega

theorem accounts_actionStart (accepted : FlowAccepted slack w) :
    Accounts (w.start + 144) (w.buf.length + 56) (actionStart slack w) := by
  obtain ⟨inside, long, units⟩ := accepted
  have size := length_openFlowEntry slack 56 (w := w) (by omega) (by omega)
  refine ⟨Nat.le_refl _, ?_, ?_⟩
  · simp only [actionStart, size]
    omega
  · simp only [actionStart, size]
    omega

/-- Whatever the actions are, an entry that has been rewritten is behind the walk: what
is left of the message shrinks by the length of the entry, or the walk is at an offset
that the buffer does not have. -/
private theorem shrinks_closeFlowEntry (accepted : FlowAccepted slack w)
    (h : Accounts (w.start + 144) (w.buf.length + 56) c) :
    Shrinks w (closeFlowEntry slack w c) := by
  obtain ⟨inside, long, units⟩ := accepted
  have buffer := h.buffer
  have change := h.change
  have size : (closeFlowEntry slack w c).buf.length = c.buf.length := by
    apply length_poke_of 2 (by omega) (by simp [narrow16])
    exact length_poke_of 8 (by omega) (by simp [applyActionsHeader, narrow16]) rfl
  rw [Shrinks, Walk.remaining, size, Walk.remaining]
  simp only [closeFlowEntry, unsignedCast]
  split <;> omega

theorem shrinks_flow (more : w.more = true) {fuel : Nat}
    (h : normalizeMPFlowReplyV1 host slack fuel w = .done w') : Shrinks w w' := by
  unfold normalizeMPFlowReplyV1 at h
  simp only at h
  split at h
  · obtain rfl := Outcome.done.inj h
    exact shrinks_reject more rfl
  split at h
  · obtain rfl := Outcome.done.inj h
    exact shrinks_reject more rfl
  split at h
  · obtain rfl := Outcome.done.inj h
    exact shrinks_reject more (length_poke_of 44 (by omega) (length_window_le ..) rfl)
  have accepted : FlowAccepted slack w := ⟨by omega, by omega, by omega⟩
  split at h
  · obtain ⟨c, loop, close⟩ := Outcome.bind_eq_done h
    obtain rfl := Outcome.done.inj close
    apply shrinks_closeFlowEntry accepted
    exact (inv_of_whileLoop_done _ (fun c c' kept _ turn => Accounts.turn kept turn)
      (accounts_actionStart accepted) loop).1
  · obtain rfl := Outcome.done.inj h
    have size := length_openFlowEntry slack 48 (w := w) (by omega) (by omega)
    rw [Shrinks, Walk.remaining, length_poke_of 2 (by omega) (by simp [narrow16]) size]
    simp only [Walk.remaining]
    omega

def entryProto (w : Walk) : Nat := (flowMatch w).nwProto.toNat

variable (host slack) in
/-- No two stalled actions come one after the other while the actions of the entry are
rewritten. -/
def CalmEntry (w : Walk) : Prop :=
  ∀ c, Reaches host slack (entryProto w) (actionStart slack w) c → c.more = true →
    ¬ Spins slack (entryProto w) c

theorem flow_of_accepted (accepted : FlowAccepted slack w) (fuel : Nat)
    (actions : 88 < flowLength slack w) :
    normalizeMPFlowReplyV1 host slack fuel w =
      (normActionsV1orV2 host slack fuel (entryProto w) (actionStart slack w)).map
        (closeFlowEntry slack w) := by
  obtain ⟨inside, long, units⟩ := accepted
  unfold normalizeMPFlowReplyV1
  rw [if_neg (by omega), if_neg (by omega), if_neg (by omega), if_pos (by omega)]
  rfl

variable (host) in
theorem flow_of_plain (plain : ¬ (FlowAccepted slack w ∧ 88 < flowLength slack w)) :
    ∃ w', ∀ fuel, normalizeMPFlowReplyV1 host slack fuel w = .done w' := by
  unfold normalizeMPFlowReplyV1
  by_cases inside : w.start + flowLength slack w > w.buf.length
  · exact ⟨_, fun _ => if_pos inside⟩
  by_cases short : flowLength slack w < 88
  · exact ⟨_, fun _ => by rw [if_neg inside, if_pos short]⟩
  by_cases units : (flowLength slack w - 88) % 8 ≠ 0
  · exact ⟨_, fun _ => by rw [if_neg inside, if_neg short, if_pos units]⟩
  have empty : ¬ flowLength slack w - 88 > 0 := by
    intro actions
    exact plain ⟨⟨by omega, by omega, by omega⟩, by omega⟩
  exact ⟨_, fun _ => by rw [if_neg inside, if_neg short, if_neg units, if_neg empty]⟩

theorem steady_flow (w : Walk) : Steady fun fuel => normalizeMPFlowReplyV1 host slack fuel w := by
  by_cases rewritten : FlowAccepted slack w ∧ 88 < flowLength slack w
  · simp only [flow_of_accepted rewritten.1 _ rewritten.2]
    exact (steady_actions _).map _
  · obtain ⟨w', plain⟩ := flow_of_plain host rewritten
    simp only [plain]
    exact steady_const _

theorem halts_flow (calm : FlowAccepted slack w → CalmEntry host slack w) :
    Halts fun fuel => normalizeMPFlowReplyV1 host slack fuel w := by
  by_cases rewritten : FlowAccepted slack w ∧ 88 < flowLength slack w
  · simp only [flow_of_accepted rewritten.1 _ rewritten.2]
    exact halts_map (halts_of_calm (sound_actionStart rewritten.1) (calm rewritten.1)) _
  · obtain ⟨w', plain⟩ := flow_of_plain host rewritten
    simp only [plain]
    exact halts_const (by simp)

theorem not_spins_of_halts (accepted : FlowAccepted slack w)
    (halts : Halts fun fuel => normalizeMPFlowReplyV1 host slack fuel w)
    (reached : Reaches host slack (entryProto w) (actionStart slack w) c) (more : c.more = true)
    (room : c.iter + 20 ≤ c.buf.length) : ¬ Spins slack (entryProto w) c := by
  intro spins
  have actions : 88 < flowLength slack w := by
    have ahead := of_decide_eq_true (more_of_reaches reached more)
    simp only [actionStart] at ahead
    omega
  simp only [flow_of_accepted accepted _ actions] at halts
  have loop := (steady_actions _).halts_of_map halts
  have sound := (sound_actionStart accepted).reaches reached
  exact not_halts_of_running (sound.running more spins room) (halts_of_reaches reached loop)

end

end Libofp.Normalize.RecordProgress
