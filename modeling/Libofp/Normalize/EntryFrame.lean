/- GID: Libofp/Normalize/EntryFrame
   digest: What the rewriting of a flow statistics entry touches. -/

import Libofp.Normalize.Dispatch
import Libofp.Normalize.RecordProgress

set_option autoImplicit false

namespace Libofp.Normalize.EntryFrame

open Octets.ByteRange Octets.ByteList
open Base.Iteration Oxm.Field Messages.Header
open Actions.ActionRange ActionRewrite ActionTurns
open ActionProgress
open FlowMessages MultipartReplies RecordProgress Dispatch

section

variable (host : Host) (slack : Slack) (w : Walk)

def before : Bytes := w.buf.take w.start

def behind : Bytes := w.buf.drop (w.start + flowLength slack w)

/-- An access to the entry, wherever its end is when the buffer has the size given. -/
def Inside (a : Access) : Prop :=
  w.start ≤ a.pos ∧ a.pos + a.len + (behind slack w).length ≤ a.size

instance (a : Access) : Decidable (Inside slack w a) := instDecidableAnd

/-- An action that is rewritten as a set-field action ends inside the list, and so does
the part of its value that is read. -/
def FitsAt (ipProto : Nat) (c : Cursor) : Prop :=
  ∀ f, fieldAt slack ipProto c = some f → Rewrites f (actionLength (c.header slack)) →
    c.iter + actionLength (c.header slack) ≤ c.iterEnd ∧ c.iter + (4 + f.size) ≤ c.iterEnd

def FitsEntry : Prop :=
  ∀ c, Reaches host slack (entryProto w) (actionStart slack w) c → c.more = true →
    FitsAt slack (entryProto w) c

/-- An accepted entry is rewritten in place: no turn of the action loop leaves the buffer,
everything that is read or written is in the entry, the bytes before the entry and behind
it stay, and the walk goes on at the bytes behind it. -/
structure Rewritten : Prop where
  safe : ∀ c, Reaches host slack (entryProto w) (actionStart slack w) c → c.more = true →
    normTurn host slack (entryProto w) c ≠ .fault
  accesses : ∀ c, Reaches host slack (entryProto w) (actionStart slack w) c →
    ∀ a ∈ c.accesses, Inside slack w a
  frame : ∀ c, Reaches host slack (entryProto w) (actionStart slack w) c →
    Framed (before w) (behind slack w) c.buf
  result : ∀ fuel w', normalizeMPFlowReplyV1 host slack fuel w = .done w' →
    (∀ a ∈ closeAccesses slack w w'.buf.length, Inside slack w a) ∧
      Framed (before w) (behind slack w) w'.buf ∧
      w'.start + (behind slack w).length = w'.buf.length

/-- A rejected entry: the message is marked and the walk stops. At most the bytes of the
entry itself have changed by then. -/
def Rejected : Prop :=
  ∃ buf, Framed (before w) (behind slack w) buf ∧ buf.length = w.buf.length ∧
    ∀ fuel, normalizeMPFlowReplyV1 host slack fuel w = .done (Walk.reject ⟨buf, w.start⟩)

end

section

variable {host : Host} {slack : Slack} {w w' : Walk} {c c' : Cursor} {ipProto : Nat}

theorem inside_mk {pos len size : Nat} :
    Inside slack w ⟨pos, len, size⟩ ↔
      w.start ≤ pos ∧ pos + len + (behind slack w).length ≤ size := Iff.rfl

private theorem end_turn (turn : normTurn host slack ipProto c = .done c') :
    c'.buf.length - c'.iterEnd = c.buf.length - c.iterEnd := by
  rcases turn_cases turn with ⟨_, rfl⟩ | ⟨r, _, room, rfl⟩
  · rfl
  · rw [length_replaced slack r room]
    simp only [replaced]
    omega

theorem length_before (accepted : FlowAccepted slack w) : (before w).length = w.start := by
  have inside := accepted.1
  rw [before, List.length_take]
  omega

theorem length_behind (slack : Slack) (w : Walk) :
    (behind slack w).length = w.buf.length - (w.start + flowLength slack w) :=
  List.length_drop

theorem end_reaches (accepted : FlowAccepted slack w)
    (reached : Reaches host slack ipProto (actionStart slack w) c) :
    c.iterEnd + (behind slack w).length = c.buf.length := by
  induction reached with
  | refl =>
    obtain ⟨inside, long, _⟩ := accepted
    simp only [actionStart, length_behind, length_openFlowEntry slack 56 (w := w) (by omega)
      (by omega)]
    omega
  | tail _ turn ih =>
    have same := end_turn (eq_of_settles_const turn.2)
    omega

theorem inside_replaceAccesses {r : Rewrite} (front : w.start ≤ c.iter)
    (stop : c.iterEnd + (behind slack w).length = c.buf.length)
    (room : c.iter + r.size ≤ c.buf.length) :
    (∀ a ∈ replaceAccesses slack c r, Inside slack w a) ↔
      c.iter + r.size ≤ c.iterEnd ∧ c.iter + (4 + r.read) ≤ c.iterEnd := by
  simp only [replaceAccesses, length_resized slack c r.size room, List.mem_cons,
    List.mem_append, List.not_mem_nil, or_false, forall_eq_or_imp, Inside]
  constructor
  · intro h
    have read := (h.2 _ (.inr rfl)).2
    simp only at read
    omega
  · rintro ⟨old, value⟩
    refine ⟨by omega, ?_⟩
    rintro a (removed | rfl)
    · split at removed
      · obtain rfl := List.mem_singleton.mp removed
        simp only
        omega
      · simp at removed
    · simp only
      omega

theorem fitsAt_iff (host : Host) (sound : Sound c) (more : c.more = true) :
    FitsAt slack ipProto c ↔
      ∀ r, rewriteAt host slack ipProto c = some r →
        c.iter + r.size ≤ c.iterEnd ∧ c.iter + (4 + r.read) ≤ c.iterEnd := by
  have ahead := of_decide_eq_true more
  have units := sound.units
  constructor
  · intro fits r replacement
    unfold rewriteAt at replacement
    split at replacement
    · simp only [Option.ite_none_right_eq_some, Option.some.injEq] at replacement
      obtain ⟨_, rfl⟩ := replacement
      simp only [outputRewrite]
      omega
    · obtain ⟨f, field, replacement⟩ := Option.bind_eq_some_iff.mp replacement
      simp only [Option.ite_none_right_eq_some, Option.some.injEq] at replacement
      obtain ⟨rewrites, rfl⟩ := replacement
      exact fits f field rewrites
  · intro fits f field rewrites
    exact fits _ (rewriteAt_of_field host field rewrites)

structure Kept (slack : Slack) (w : Walk) (c : Cursor) : Prop where
  size : (w.start + 144 : Int) ≤ c.iterEnd
  accesses : ∀ a ∈ c.accesses, Inside slack w a
  frame : Framed (before w) (behind slack w) c.buf

section

variable (accepted : FlowAccepted slack w)

include accepted

private theorem framed_replaced {r : Rewrite} (front : w.start ≤ c.iter)
    (stop : c.iterEnd + (behind slack w).length = c.buf.length) (whole : c.iter + 4 ≤ c.iterEnd)
    (old : c.iter + r.size ≤ c.iterEnd) (frame : Framed (before w) (behind slack w) c.buf) :
    Framed (before w) (behind slack w) (replaced slack c r).buf := by
  have start := length_before accepted
  have size := length_resized slack c r.size (by omega)
  have opened : Framed (before w) (behind slack w) (resized slack c r.size) := by
    unfold resized
    split
    · exact frame.insertUninitialized slack _ (by omega) (by omega)
    · exact frame.remove (by omega) (by omega)
  exact opened.poke (by omega) (by rw [size, r.full]; omega)

theorem Kept.turn (reached : Reaches host slack ipProto (actionStart slack w) c)
    (more : c.more = true) (kept : Kept slack w c) (fits : FitsAt slack ipProto c) :
    ∃ c', normTurn host slack ipProto c = .done c' ∧ Kept slack w c' := by
  have sound := (sound_actionStart accepted).reaches reached
  have front := ((accounts_actionStart accepted).reaches reached).iter
  have stop := end_reaches accepted reached
  have ahead := of_decide_eq_true more
  have units := sound.units
  have size := kept.size
  have header : ∀ a ∈ (⟨c.iter, 4, c.buf.length⟩ : Access) :: c.accesses, Inside slack w a :=
    List.forall_mem_cons.mpr ⟨inside_mk.mpr (by omega), kept.accesses⟩
  cases replacement : rewriteAt host slack ipProto c with
  | none =>
    refine ⟨_, normTurn_pass host slack ipProto c replacement, size, ?_, kept.frame⟩
    exact List.forall_mem_cons.mpr ⟨inside_mk.mpr (by omega), header⟩
  | some r =>
    obtain ⟨old, value⟩ := (fitsAt_iff host sound more).mp fits r replacement
    have room : c.iter + r.size ≤ c.buf.length := by omega
    refine ⟨replaced slack c r, ?_, ?_, ?_, ?_⟩
    · rw [normTurn_replace host slack ipProto c replacement, if_pos room]
    · simp only [replaced]
      omega
    · refine List.forall_mem_cons.mpr ⟨inside_mk.mpr ?_, List.forall_mem_append.mpr ⟨?_, header⟩⟩
      · rw [length_resized slack c r.size room]
        omega
      · exact (inside_replaceAccesses (by omega) stop room).mpr ⟨old, value⟩
    · exact framed_replaced accepted (by omega) stop (by omega) old kept.frame

theorem framed_openFlowEntry {needed : Nat} (wide : 48 ≤ needed) :
    Framed (before w) (behind slack w) (openFlowEntry slack w needed) := by
  obtain ⟨inside, long, units⟩ := accepted
  have start := length_before ⟨inside, long, units⟩
  have rest := length_behind slack w
  have moved : (poke w.buf (w.start + 4) (window w.buf (w.start + 44) 44)).length =
      w.buf.length := length_poke_of 44 (by omega) (length_window_le ..) rfl
  have short := length_window_le w.buf (w.start + 44) 44
  have frame : Framed (before w) (behind slack w) w.buf := framed_self ..
  refine Framed.poke ?_ (by omega) ?_
  · refine Framed.insertUninitialized ?_ slack _ (by omega) (by omega)
    exact frame.poke (by omega) (by omega)
  · rw [length_insertUninitialized, moved, Match.Standard.length_toBytes]
    have eightyEight : Match.Standard.ofpmtStandardLength = 88 := rfl
    omega

theorem inside_openAccesses {needed : Nat}
    (wide : 48 ≤ needed) : ∀ a ∈ openAccesses w needed, Inside slack w a := by
  obtain ⟨inside, long, _⟩ := accepted
  have rest := length_behind slack w
  simp only [openAccesses, List.forall_mem_cons, List.not_mem_nil, false_implies, implies_true,
    and_true, inside_mk]
  omega

private theorem kept_actionStart : Kept slack w (actionStart slack w) where
  size := by
    simp only [actionStart]
    omega
  accesses := inside_openAccesses accepted (by omega)
  frame := framed_openFlowEntry accepted (by omega)

theorem kept_reaches (fits : FitsEntry host slack w)
    (reached : Reaches host slack (entryProto w) (actionStart slack w) c) : Kept slack w c := by
  induction reached with
  | refl => exact kept_actionStart accepted
  | tail before turn ih =>
    obtain ⟨c', ended, kept⟩ := ih.turn accepted before turn.1 (fits _ before turn.1)
    obtain rfl := Outcome.done.inj (ended.symm.trans (eq_of_settles_const turn.2))
    exact kept

private theorem closed_of_kept (actions : 88 < flowLength slack w)
    (reached : Reaches host slack ipProto (actionStart slack w) c) (kept : Kept slack w c) :
    (∀ a ∈ closeAccesses slack w (closeFlowEntry slack w c).buf.length, Inside slack w a) ∧
      Framed (before w) (behind slack w) (closeFlowEntry slack w c).buf ∧
      (closeFlowEntry slack w c).start + (behind slack w).length =
        (closeFlowEntry slack w c).buf.length := by
  have start := length_before accepted
  have rest := length_behind slack w
  have inside := accepted.1
  have change := ((accounts_actionStart accepted).reaches reached).change
  have stop := end_reaches accepted reached
  have size := kept.size
  have headed : (poke c.buf (w.start + 136) (applyActionsHeader
      (flowLength slack w - 88 + 8 + c.lengthChange))).length = c.buf.length :=
    length_poke_of 8 (by omega) (Nat.le_of_eq (length_applyActionsHeader _)) rfl
  have closed : (closeFlowEntry slack w c).buf.length = c.buf.length :=
    length_poke_of 2 (by omega) (Nat.le_of_eq (length_narrow16 _)) headed
  rw [closed]
  refine ⟨?_, ?_, ?_⟩
  · simp only [closeAccesses, if_pos actions, List.forall_mem_cons, List.not_mem_nil,
      false_implies, implies_true, and_true, inside_mk]
    omega
  · refine Framed.poke ?_ (by omega) (by rw [headed, length_narrow16]; omega)
    exact kept.frame.poke (by omega) (by rw [length_applyActionsHeader]; omega)
  · simp only [closeFlowEntry, unsignedCast]
    split <;> omega

private theorem flow_of_empty (empty : ¬ 88 < flowLength slack w) (fuel : Nat) :
    normalizeMPFlowReplyV1 host slack fuel w =
      .done ⟨poke (openFlowEntry slack w 48) w.start (narrow16 (flowLength slack w + 48)),
        w.start + flowLength slack w + 48⟩ := by
  obtain ⟨inside, long, units⟩ := accepted
  unfold normalizeMPFlowReplyV1
  rw [if_neg (by omega), if_neg (by omega), if_neg (by omega), if_neg (by omega)]

private theorem rewritten_of_fits (fits : FitsEntry host slack w) : Rewritten host slack w where
  safe := by
    intro c reached more
    obtain ⟨c', ended, _⟩ :=
      (kept_reaches accepted fits reached).turn accepted reached more (fits c reached more)
    simp [ended]
  accesses c reached := (kept_reaches accepted fits reached).accesses
  frame c reached := (kept_reaches accepted fits reached).frame
  result := by
    intro fuel w' ended
    by_cases actions : 88 < flowLength slack w
    · rw [flow_of_accepted accepted fuel actions] at ended
      obtain ⟨c, loop, close⟩ := Outcome.bind_eq_done ended
      obtain rfl := Outcome.done.inj close
      have reached : Reaches host slack (entryProto w) (actionStart slack w) c :=
        visits_of_whileLoop_done loop
      exact closed_of_kept accepted actions reached (kept_reaches accepted fits reached)
    · rw [flow_of_empty accepted actions] at ended
      obtain rfl := Outcome.done.inj ended
      have start := length_before accepted
      have rest := length_behind slack w
      have frame := framed_openFlowEntry accepted (Nat.le_refl 48)
      have opened := inside_openAccesses accepted (Nat.le_refl 48)
      obtain ⟨inside, long, _⟩ := accepted
      have size := length_openFlowEntry slack 48 (w := w) (by omega) (by omega)
      have closed : (poke (openFlowEntry slack w 48) w.start
          (narrow16 (flowLength slack w + 48))).length = w.buf.length + 48 :=
        length_poke_of 2 (by omega) (Nat.le_of_eq (length_narrow16 _)) size
      simp only [closed]
      refine ⟨?_, frame.poke (by omega) (by rw [size, length_narrow16]; omega), by omega⟩
      rw [closeAccesses, if_neg actions]
      exact List.forall_mem_cons.mpr ⟨inside_mk.mpr (by omega), opened⟩

private theorem fits_of_rewritten (h : Rewritten host slack w) : FitsEntry host slack w := by
  intro c reached more
  have sound := (sound_actionStart accepted).reaches reached
  have front := ((accounts_actionStart accepted).reaches reached).iter
  apply (fitsAt_iff host sound more).mpr
  intro r replacement
  have turn := normTurn_replace host slack (entryProto w) c replacement
  by_cases room : c.iter + r.size ≤ c.buf.length
  · rw [if_pos room] at turn
    -- The turn is part of the run, so what it reads and writes is in the entry.
    have next : Reaches host slack (entryProto w) (actionStart slack w) (replaced slack c r) :=
      reached.tail ⟨more, turn ▸ settles_const (by simp [turn])⟩
    apply (inside_replaceAccesses (by omega) (end_reaches accepted reached) room).mp
    intro a touched
    exact h.accesses _ next a (List.mem_cons_of_mem _ (List.mem_append_left _ touched))
  · rw [if_neg room] at turn
    exact absurd turn (h.safe c reached more)

end

private theorem rejected_of_not_accepted (h : ¬ FlowAccepted slack w) : Rejected host slack w := by
  have frame : Framed (before w) (behind slack w) w.buf := framed_self ..
  unfold Rejected normalizeMPFlowReplyV1
  by_cases overrun : w.start + flowLength slack w > w.buf.length
  · exact ⟨w.buf, frame, rfl, fun _ => if_pos overrun⟩
  by_cases short : flowLength slack w < 88
  · exact ⟨w.buf, frame, rfl, fun _ => by rw [if_neg overrun, if_pos short]⟩
  have units : (flowLength slack w - 88) % 8 ≠ 0 := by
    intro whole
    exact h ⟨by omega, by omega, whole⟩
  -- The fields above the actions have moved by the time the length is checked.
  refine ⟨poke w.buf (w.start + 4) (window w.buf (w.start + 44) 44), frame.poke ?_ ?_,
    length_poke_of 44 (by omega) (length_window_le ..) rfl,
    fun _ => by rw [if_neg overrun, if_neg short, if_pos units]⟩
  · rw [before, List.length_take]
    omega
  · have rest := length_behind slack w
    have moved := length_window_le w.buf (w.start + 44) 44
    omega

end

/-- An entry is kept apart from the rest of the message: its length field is in the
buffer, it is rewritten in place when it is accepted, and a rejected one is left. -/
structure EntryKept (host : Host) (slack : Slack) (w : Walk) : Prop where
  header : w.start + 2 ≤ w.buf.length
  accepted : FlowAccepted slack w → Rewritten host slack w
  rejected : ¬ FlowAccepted slack w → Rejected host slack w

/-- Normalising a flow statistics entry reads and writes nothing but the entry exactly
when the message has room for its length field and the set-field actions of an accepted
entry end inside it. -/
theorem entryKept_iff (host : Host) (slack : Slack) (w : Walk) :
    EntryKept host slack w ↔
      w.start + 2 ≤ w.buf.length ∧ (FlowAccepted slack w → FitsEntry host slack w) := by
  constructor
  · intro h
    exact ⟨h.header, fun accepted => fits_of_rewritten accepted (h.accepted accepted)⟩
  · rintro ⟨header, fits⟩
    exact ⟨header, fun accepted => rewritten_of_fits accepted (fits accepted),
      rejected_of_not_accepted⟩

/-- A version 1 flow statistics reply with two entries. The last 8 bytes of the first are
an action `SET_VLAN_VID` that states the length 16. -/
def overreachingReply : Bytes :=
  [1, 17, 0, 196, 0, 0, 0, 1, 0, 1, 0, 0] ++
    ([0, 96] ++ List.replicate 86 0 ++ [0, 1, 0, 16, 0, 100, 0, 0]) ++
    ([0, 88] ++ List.replicate 86 0)

def overreachingWalk : Walk := ⟨insertZeros (repairHeader overreachingReply) 12 4, 16⟩

/-- The new action of 16 bytes runs over the length of the second entry. -/
theorem entry_overwrites_next :
    enteredLoop overreachingReply = some (.flowV1, overreachingWalk) ∧
      ((normalizeMPFlowReplyV1 .little (fun _ _ => 0) 1 overreachingWalk).map fun w =>
        w.buf.drop w.start) = .done ([0, 100] ++ List.replicate 86 0) ∧
      ¬ EntryKept .little (fun _ _ => 0) overreachingWalk := by
  have next : ((normalizeMPFlowReplyV1 .little (fun _ _ => 0) 1 overreachingWalk).map fun w =>
      w.buf.drop w.start) = .done ([0, 100] ++ List.replicate 86 0) := by decide +kernel
  refine ⟨by decide +kernel, next, ?_⟩
  intro kept
  obtain ⟨w', ended, rest⟩ := Outcome.bind_eq_done next
  obtain ⟨-, frame, stop⟩ := (kept.accepted (by decide +kernel)).result 1 w' ended
  have same := (Outcome.done.inj rest).symm.trans (frame.drop_eq stop)
  exact absurd same (by decide +kernel)

end Libofp.Normalize.EntryFrame
