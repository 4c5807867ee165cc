/- GID: Libofp/Normalize/ActionSpans
   digest: The action loop as a walk over the bytes of the list, with what lies before and
     behind it left alone. -/

import Libofp.Normalize.ActionTurns

set_option autoImplicit false

namespace Libofp.Normalize.ActionSpans

open Octets.ByteRange Octets.ByteList Octets.BigEndian Oxm.Field Actions.ActionRange
open ActionRewrite ActionTurns

/-- The cursor stands in front of the actions `acts`, between the bytes `pre` and `post`. -/
structure Spans (c : Cursor) (pre acts post : Bytes) : Prop where
  buf : c.buf = pre ++ acts ++ post
  iter : c.iter = pre.length
  iterEnd : c.iterEnd = pre.length + acts.length

variable {c : Cursor} {pre acts post : Bytes}

theorem spans_window {buf : Bytes} {pos len : Nat} (inside : pos + len ≤ buf.length) :
    Spans ⟨buf, pos, pos + len, 0, []⟩ (buf.take pos) (window buf pos len)
      (buf.drop (pos + len)) where
  buf := by
    rw [List.append_assoc, take_window_drop]
  iter := by
    simp only [List.length_take]
    omega
  iterEnd := by
    simp only [length_window buf inside, List.length_take]
    omega

section

variable (h : Spans c pre acts post)

include h

theorem Spans.length : c.buf.length = c.iter + acts.length + post.length := by
  rw [h.buf, h.iter, List.length_append, List.length_append]

theorem Spans.take : c.buf.take c.iter = pre := by
  rw [h.buf, h.iter, List.append_assoc, List.take_left]

theorem Spans.drop {k : Nat} (inside : k ≤ acts.length) :
    c.buf.drop (c.iter + k) = acts.drop k ++ post := by
  rw [h.buf, h.iter, List.append_assoc, ← List.drop_drop, List.drop_left,
    List.drop_append_of_le_length inside]

theorem Spans.fetch_eq (slack : Slack) {k n : Nat} (inside : k + n ≤ acts.length) :
    fetch slack c.buf (c.iter + k) n = (acts.drop k).take n := by
  have size := h.length
  rw [fetch_eq_window slack (by omega), window, h.drop (by omega),
    List.take_append_of_le_length (by rw [List.length_drop]; omega)]

theorem Spans.header_eq (slack : Slack) (inside : 4 ≤ acts.length) : c.header slack = acts.take 4 :=
  h.fetch_eq slack (k := 0) (n := 4) (by omega)

end

theorem poke_resized (slack : Slack) (c : Cursor) {size : Nat} {out : Bytes} (stated : 4 ≤ size)
    (room : c.iter + size ≤ c.buf.length) (full : out.length = 16) :
    poke (resized slack c size) c.iter out =
      c.buf.take c.iter ++ out ++ c.buf.drop (c.iter + size) := by
  have front : (c.buf.take c.iter).length = c.iter := by
    rw [List.length_take]
    omega
  unfold resized
  split
  · -- The gap begins behind the header, so the bytes before the cursor are old ones.
    have inside : c.iter + 4 ≤ c.buf.length := by omega
    have kept := take_insertUninitialized slack inside (16 - size) (k := c.iter) (by omega)
    have rest : (insertUninitialized slack c.buf (c.iter + 4) (16 - size)).drop (c.iter + 16) =
        c.buf.drop (c.iter + size) := by
      have behind := drop_insertUninitialized_add slack inside (16 - size) (size - 4)
      rwa [show c.iter + 4 + (16 - size) + (size - 4) = c.iter + 16 by omega,
        show c.iter + 4 + (size - 4) = c.iter + size by omega] at behind
    rw [poke, replace, full, kept, rest]
  · have kept : (remove c.buf c.iter (size - 16)).take c.iter = c.buf.take c.iter :=
      List.take_left' front
    have rest : (remove c.buf c.iter (size - 16)).drop (c.iter + 16) =
        c.buf.drop (c.iter + size) := by
      rw [remove, ← List.drop_drop, List.drop_left' front, List.drop_drop]
      congr 1
      omega
    rw [poke, replace, full, kept, rest]

/-- An action of length 0 is replaced by more than it took: what comes next is four bytes
of the opened gap and then the rest of the action. -/
theorem poke_resized_zero (slack : Slack) (c : Cursor) {out : Bytes}
    (room : c.iter + 4 ≤ c.buf.length) (full : out.length = 16) :
    poke (resized slack c 0) c.iter out =
      c.buf.take c.iter ++ out ++
        (fetch slack c.buf (c.iter + 16) 4 ++ c.buf.drop (c.iter + 4)) := by
  have kept := take_insertUninitialized slack room 16 (k := c.iter) (by omega)
  have rest : (insertUninitialized slack c.buf (c.iter + 4) 16).drop (c.iter + 16) = _ :=
    drop_insertUninitialized slack room (k := 12) (by omega)
  rw [resized, if_pos (by omega), poke, replace, full, Nat.sub_zero, kept, rest]

theorem Spans.passed (h : Spans c pre acts post) (slack : Slack) {k : Nat}
    (reach : padLength (max 4 (actionLength (c.header slack))) = k) (inside : k ≤ acts.length) :
    Spans (ActionTurns.passed slack c) (pre ++ acts.take k) (acts.drop k) post where
  buf := by
    rw [List.append_assoc pre, List.take_append_drop]
    exact h.buf
  iter := by
    simp only [ActionTurns.passed, reach, h.iter, List.length_append, List.length_take]
    omega
  iterEnd := by
    simp only [ActionTurns.passed, h.iterEnd, List.length_append, List.length_take,
      List.length_drop]
    omega

theorem Spans.replaced (h : Spans c pre acts post) (slack : Slack) {r : Rewrite}
    (stated : 4 ≤ r.size) (inside : r.size ≤ acts.length) :
    Spans (ActionTurns.replaced slack c r) (pre ++ r.out) (acts.drop r.size) post where
  buf := by
    have size := h.length
    show poke (resized slack c r.size) c.iter r.out = _
    rw [poke_resized slack c stated (by omega) r.full, h.take, h.drop inside, List.append_assoc,
      List.append_assoc, List.append_assoc]
  iter := by
    rw [ActionTurns.replaced, h.iter, List.length_append, r.full]
  iterEnd := by
    simp only [ActionTurns.replaced, h.iterEnd, List.length_append, List.length_drop, r.full]
    omega

theorem size_of_rewriteAt {host : Host} {slack : Slack} {ipProto : Nat} {r : Rewrite}
    (h : rewriteAt host slack ipProto c = some r) :
    r.size = actionLength (c.header slack) ∧ r.size % 8 = 0 := by
  unfold rewriteAt at h
  split at h
  · simp only [Option.ite_none_right_eq_some, Option.some.injEq] at h
    obtain ⟨eight, rfl⟩ := h
    exact ⟨eight.symm, by simp [outputRewrite]⟩
  · obtain ⟨f, _, h⟩ := Option.bind_eq_some_iff.mp h
    simp only [Option.ite_none_right_eq_some, Option.some.injEq] at h
    obtain ⟨rewrites, rfl⟩ := h
    exact ⟨rfl, rewrites.1⟩

theorem exists_turn (host : Host) (slack : Slack) (ipProto : Nat) (h : Spans c pre acts post)
    (accepted : actionLayout.Accepts acts) (nonempty : acts ≠ []) :
    ∃ c' out, normTurn host slack ipProto c = .done c' ∧
      Spans c' (pre ++ out) (acts.drop (padLength (actionLength acts))) post := by
  obtain ⟨stated, inside, -⟩ := accepts_first accepted nonempty
  have long := le_padLength (actionLength acts)
  have size := h.length
  have header : actionLength (c.header slack) = actionLength acts := by
    rw [h.header_eq slack (by omega)]
    exact big16_take (by omega)
  cases replacement : rewriteAt host slack ipProto c with
  | none =>
    refine ⟨ActionTurns.passed slack c, acts.take (padLength (actionLength acts)),
      normTurn_pass host slack ipProto c replacement, ?_⟩
    apply h.passed slack _ inside
    rw [header, Nat.max_eq_right stated]
  | some r =>
    obtain ⟨sameSize, units⟩ := size_of_rewriteAt replacement
    rw [header] at sameSize
    have whole : padLength (actionLength acts) = r.size := by
      rw [← sameSize, padLength_of_mod units]
    refine ⟨ActionTurns.replaced slack c r, r.out, ?_, ?_⟩
    · rw [normTurn_replace host slack ipProto c replacement, if_pos (by omega)]
    · rw [whole]
      exact h.replaced slack (by omega) (by omega)

end Libofp.Normalize.ActionSpans
