/- GID: Libofp/Normalize/ActionProgress
   digest: When the action loop ends. -/

import Libofp.Normalize.ActionSpans

set_option autoImplicit false

namespace Libofp.Normalize.ActionProgress

open Octets.ByteRange Octets.ByteList Octets.BigEndian
open Base.Iteration Oxm.Field Messages Actions.ActionRange
open ActionRewrite ActionTurns ActionSpans

def StalledHeader (version ipProto : Nat) (header : Bytes) : Prop :=
  (fieldOf version ipProto header).isSome = true ∧ actionLength header = 0

instance (version ipProto : Nat) (header : Bytes) :
    Decidable (StalledHeader version ipProto header) := instDecidableAnd

/-- What the loop keeps: the list fills whole units of 8 bytes inside the buffer and does
not start at its first byte. -/
structure Sound (c : Cursor) : Prop where
  front : 0 < c.iter
  units : (c.iterEnd - c.iter) % 8 = 0
  inside : c.iterEnd ≤ c.buf.length

section

variable (host : Host) (slack : Slack) (ipProto : Nat)

/-- The action at the cursor sets a field and states the length 0: the turn puts in 16
bytes and steps over as many. -/
def Stalled (c : Cursor) : Prop := StalledHeader (Header.version c.buf) ipProto (c.header slack)

instance (c : Cursor) : Decidable (Stalled slack ipProto c) :=
  inferInstanceAs (Decidable (StalledHeader _ _ _))

/-- The action at the cursor is stalled, and so is the one that the turn will find behind
it, which is the 16 bytes further that the gap leaves over. -/
def Spins (c : Cursor) : Prop :=
  Stalled slack ipProto c ∧
    StalledHeader (Header.version c.buf) ipProto (fetch slack c.buf (c.iter + 16) 4)

instance (c : Cursor) : Decidable (Spins slack ipProto c) := instDecidableAnd

variable {host slack ipProto} {c c' : Cursor}

theorem normTurn_ne_running (c : Cursor) : normTurn host slack ipProto c ≠ .running := by
  cases replacement : rewriteAt host slack ipProto c with
  | none => simp [normTurn_pass host slack ipProto c replacement]
  | some r =>
    rw [normTurn_replace host slack ipProto c replacement]
    split <;> simp

theorem turn_cases (h : normTurn host slack ipProto c = .done c') :
    (rewriteAt host slack ipProto c = none ∧ c' = passed slack c) ∨
      ∃ r, rewriteAt host slack ipProto c = some r ∧ c.iter + r.size ≤ c.buf.length ∧
        c' = replaced slack c r := by
  cases replacement : rewriteAt host slack ipProto c with
  | none =>
    rw [normTurn_pass host slack ipProto c replacement] at h
    exact .inl ⟨rfl, (Outcome.done.inj h).symm⟩
  | some r =>
    rw [normTurn_replace host slack ipProto c replacement] at h
    split at h
    · exact .inr ⟨r, rfl, by assumption, (Outcome.done.inj h).symm⟩
    · simp at h

private theorem stalled_of_size_zero {r : Rewrite} (h : rewriteAt host slack ipProto c = some r)
    (zero : r.size = 0) : Stalled slack ipProto c := by
  have stated := (size_of_rewriteAt h).1
  unfold rewriteAt at h
  split at h
  · simp only [Option.ite_none_right_eq_some, Option.some.injEq] at h
    obtain ⟨_, rfl⟩ := h
    simp [outputRewrite] at zero
  · obtain ⟨f, field, _⟩ := Option.bind_eq_some_iff.mp h
    refine ⟨?_, by rw [← stated, zero]⟩
    show (fieldAt slack ipProto c).isSome = true
    rw [field]
    rfl

private theorem setFieldOf_output (ipProto : Nat) : setFieldOf OFPAT.output ipProto = none := rfl

private theorem fieldAt_of_output (output : enumType (c.header slack) = OFPAT.output) :
    fieldAt slack ipProto c = none := by
  rw [fieldAt, fieldOf, output]
  simp [(schemaType_eq_output_iff ..).mpr, setFieldOf_output]

variable (host) in
theorem rewriteAt_of_field {f : OxmField} (field : fieldAt slack ipProto c = some f)
    (rewrites : Rewrites f (actionLength (c.header slack))) :
    rewriteAt host slack ipProto c = some (setFieldRewrite host f (actionLength (c.header slack))
      (fetch slack c.buf (c.iter + 4) f.size) (length_fetch ..)) := by
  have notOutput : enumType (c.header slack) ≠ OFPAT.output := by
    intro output
    rw [fieldAt_of_output output] at field
    simp at field
  rw [rewriteAt, if_neg notOutput, field, Option.bind_some, if_pos rewrites]

variable (host) in
theorem rewriteAt_of_stalled (h : Stalled slack ipProto c) :
    rewriteAt host slack ipProto c ≠ none := by
  obtain ⟨field, zero⟩ := h
  obtain ⟨f, field⟩ := Option.isSome_iff_exists.mp field
  have rewrites : Rewrites f (actionLength (c.header slack)) := by
    rw [zero]
    exact ⟨Nat.zero_mod 8, .inl rfl⟩
  rw [rewriteAt_of_field host field rewrites]
  simp

theorem length_replaced (slack : Slack) (r : Rewrite) (room : c.iter + r.size ≤ c.buf.length) :
    (replaced slack c r).buf.length = c.buf.length + 16 - r.size := by
  show (poke (resized slack c r.size) c.iter r.out).length = _
  have size := length_resized slack c r.size room
  rw [length_poke _ (by rw [r.full]; omega), size]

theorem Sound.turn (h : Sound c) (turn : normTurn host slack ipProto c = .done c') :
    Sound c' := by
  have front := h.front
  have units := h.units
  have inside := h.inside
  rcases turn_cases turn with ⟨_, rfl⟩ | ⟨r, replacement, room, rfl⟩
  · refine ⟨by simp only [passed]; omega, ?_, inside⟩
    simp only [passed, padLength]
    omega
  · have whole := (size_of_rewriteAt replacement).2
    have size := length_replaced slack r room
    refine ⟨by simp only [replaced]; omega, ?_, ?_⟩
    · simp only [replaced]
      omega
    · rw [size]
      simp only [replaced]
      omega

variable (slack ipProto) in
/-- The variant of the loop: a stalled action does not bring it closer to the end of the
list, but the action behind it does. -/
def progress (c : Cursor) : Nat :=
  2 * (c.iterEnd - c.iter).toNat + if Stalled slack ipProto c then 1 else 0

theorem header_replaced_zero (r : Rewrite) (zero : r.size = 0) (room : c.iter + 4 ≤ c.buf.length) :
    (replaced slack c r).header slack = fetch slack c.buf (c.iter + 16) 4 := by
  have front : (c.buf.take c.iter ++ r.out).length = c.iter + 16 := by
    rw [List.length_append, List.length_take, r.full]
    omega
  show fetch slack (poke (resized slack c r.size) c.iter r.out) (c.iter + 16) 4 = _
  rw [zero, poke_resized_zero slack c room r.full, fetch_eq_window slack, window,
    List.drop_left' front, List.take_left' (length_fetch ..)]
  simp only [List.length_append, front, length_fetch]
  omega

private theorem take_replaced {r : Rewrite} (h : rewriteAt host slack ipProto c = some r)
    (room : c.iter + r.size ≤ c.buf.length) (unit : c.iter + 4 ≤ c.buf.length) :
    (replaced slack c r).buf.take c.iter = c.buf.take c.iter := by
  have whole := (size_of_rewriteAt h).2
  have front : (c.buf.take c.iter).length = c.iter := by
    rw [List.length_take]
    omega
  show (poke (resized slack c r.size) c.iter r.out).take c.iter = _
  by_cases zero : r.size = 0
  · rw [zero, poke_resized_zero slack c unit r.full, List.append_assoc, List.take_left' front]
  · rw [poke_resized slack c (by omega) room r.full, List.append_assoc, List.take_left' front]

theorem Sound.unit (h : Sound c) (more : c.more = true) : c.iter + 8 ≤ c.buf.length := by
  have units := h.units
  have inside := h.inside
  have ahead := of_decide_eq_true more
  omega

theorem Sound.version_eq (h : Sound c) (more : c.more = true)
    (turn : normTurn host slack ipProto c = .done c') :
    Header.version c'.buf = Header.version c.buf := by
  have unit := h.unit more
  have front := h.front
  rcases turn_cases turn with ⟨_, rfl⟩ | ⟨r, replacement, room, rfl⟩
  · rfl
  · have kept := take_replaced replacement room (by omega)
    rw [Header.version, ← big8_take front, kept, big8_take front]
    rfl

private theorem closer_of_not_stalled (moves : ¬ Stalled slack ipProto c)
    (turn : normTurn host slack ipProto c = .done c') :
    c'.iterEnd - c'.iter < c.iterEnd - c.iter := by
  rcases turn_cases turn with ⟨_, rfl⟩ | ⟨r, replacement, room, rfl⟩
  · have step := le_padLength (max 4 (actionLength (c.header slack)))
    simp only [passed]
    omega
  · have positive : r.size ≠ 0 := fun zero => moves (stalled_of_size_zero replacement zero)
    simp only [replaced]
    omega

theorem Sound.stalled_turn (h : Sound c) (more : c.more = true) (stalled : Stalled slack ipProto c)
    (turn : normTurn host slack ipProto c = .done c') :
    ∃ r, r.size = 0 ∧ c' = replaced slack c r ∧
      c'.header slack = fetch slack c.buf (c.iter + 16) 4 := by
  have unit := h.unit more
  rcases turn_cases turn with ⟨passes, rfl⟩ | ⟨r, replacement, room, rfl⟩
  · exact absurd passes (rewriteAt_of_stalled host stalled)
  · have zero : r.size = 0 := (size_of_rewriteAt replacement).1.trans stalled.2
    exact ⟨r, zero, rfl, header_replaced_zero r zero (by omega)⟩

theorem Sound.progress_lt (h : Sound c) (more : c.more = true)
    (calm : ¬ Spins slack ipProto c) (turn : normTurn host slack ipProto c = .done c') :
    progress slack ipProto c' < progress slack ipProto c := by
  have ahead := of_decide_eq_true more
  unfold progress
  by_cases stalled : Stalled slack ipProto c
  · -- The distance stays, and the next action is not stalled.
    have version := h.version_eq more turn
    obtain ⟨r, zero, rfl, next⟩ := h.stalled_turn more stalled turn
    have moves : ¬ Stalled slack ipProto (replaced slack c r) := by
      intro again
      rw [Stalled, version, next] at again
      exact calm ⟨stalled, again⟩
    rw [if_pos stalled, if_neg moves]
    simp only [replaced, zero]
    omega
  · have closer := closer_of_not_stalled stalled turn
    split <;> omega

variable (host slack ipProto) in
def Reaches : Cursor → Cursor → Prop := Visits Cursor.more fun _ => normTurn host slack ipProto

theorem Sound.reaches (h : Sound c) (reached : Reaches host slack ipProto c c') : Sound c' := by
  induction reached with
  | refl => exact h
  | tail _ turn ih => exact ih.turn (eq_of_settles_const turn.2)

theorem more_of_reaches (reached : Reaches host slack ipProto c c') (more : c'.more = true) :
    c.more = true := by
  rcases Relation.ReflTransGen.cases_head reached with rfl | ⟨_, turn, _⟩
  · exact more
  · exact turn.1

theorem steady_turn (c : Cursor) : Steady fun _ => normTurn host slack ipProto c :=
  steady_const _

theorem steady_actions (c : Cursor) :
    Steady fun fuel => normActionsV1orV2 host slack fuel ipProto c :=
  steady_whileLoop steady_turn c

theorem halts_of_reaches (reached : Reaches host slack ipProto c c')
    (h : Halts fun fuel => normActionsV1orV2 host slack fuel ipProto c) :
    Halts fun fuel => normActionsV1orV2 host slack fuel ipProto c' :=
  halts_of_visits steady_turn reached h

theorem halts_of_calm (h : Sound c)
    (calm : ∀ c', Reaches host slack ipProto c c' → c'.more = true → ¬ Spins slack ipProto c') :
    Halts fun fuel => normActionsV1orV2 host slack fuel ipProto c := by
  show Halts fun fuel => whileLoop Cursor.more (normTurn host slack ipProto) fuel c
  apply halts_whileLoop_of_visits (progress slack ipProto)
  · intro c' _ _
    exact halts_const (normTurn_ne_running c')
  · intro c' c'' reached turn
    exact (h.reaches reached).progress_lt turn.1 (calm c' reached turn.1)
      (eq_of_settles_const turn.2)

private theorem fetch_replaced_zero {r : Rewrite} (zero : r.size = 0)
    (room : c.iter + 20 ≤ c.buf.length) :
    fetch slack (replaced slack c r).buf (c.iter + 32) 4 =
      fetch slack c.buf (c.iter + 16) 4 := by
  have front : (c.buf.take c.iter ++ r.out ++ fetch slack c.buf (c.iter + 16) 4).length =
      c.iter + 20 := by
    rw [List.length_append, List.length_append, List.length_take, r.full, length_fetch]
    omega
  show fetch slack (poke (resized slack c r.size) c.iter r.out) (c.iter + 32) 4 = _
  rw [zero, poke_resized_zero slack c (by omega) r.full, ← List.append_assoc,
    fetch_eq_window slack, window, show c.iter + 32 = c.iter + 20 + 12 by omega,
    ← List.drop_drop, List.drop_left' front, List.drop_drop, fetch_eq_window slack (by omega),
    window]
  rw [List.length_append, front, List.length_drop]
  omega

/-- Two stalled actions in the buffer keep the loop going for ever: each turn puts the
second header in front of a copy of itself. -/
theorem Sound.running (h : Sound c) (more : c.more = true) (spins : Spins slack ipProto c)
    (room : c.iter + 20 ≤ c.buf.length) (fuel : Nat) :
    normActionsV1orV2 host slack fuel ipProto c = .running := by
  apply whileLoop_running
    (fun c => Sound c ∧ c.more = true ∧ Spins slack ipProto c ∧ c.iter + 20 ≤ c.buf.length)
  · rintro c ⟨sound, more, spins, room⟩
    refine ⟨more, ?_⟩
    obtain ⟨r, replacement⟩ :=
      Option.ne_none_iff_exists'.mp (rewriteAt_of_stalled host spins.1)
    have zero : r.size = 0 := (size_of_rewriteAt replacement).1.trans spins.1.2
    have turn : normTurn host slack ipProto c = .done (replaced slack c r) := by
      rw [normTurn_replace host slack ipProto c replacement, if_pos (by omega)]
    have version := sound.version_eq more turn
    have next : Stalled slack ipProto (replaced slack c r) := by
      rw [Stalled, version, header_replaced_zero r zero (by omega)]
      exact spins.2
    have ahead := of_decide_eq_true more
    refine ⟨_, turn, sound.turn turn, ?_, ⟨next, ?_⟩, ?_⟩
    · apply decide_eq_true
      simp only [replaced]
      omega
    · rw [version]
      show StalledHeader _ _ (fetch slack (replaced slack c r).buf (c.iter + 32) 4)
      rw [fetch_replaced_zero zero room]
      exact spins.2
    · rw [length_replaced slack r (by omega)]
      simp only [replaced]
      omega
  · exact ⟨h, more, spins, room⟩

theorem halts_of_accepted {pre acts post : Bytes} (h : Spans c pre acts post)
    (accepted : actionLayout.Accepts acts) :
    Halts fun fuel => normActionsV1orV2 host slack fuel ipProto c := by
  show Halts fun fuel => whileLoop Cursor.more (normTurn host slack ipProto) fuel c
  apply halts_whileLoop
    (fun c => ∃ pre acts, Spans c pre acts post ∧ actionLayout.Accepts acts)
    (fun c => (c.iterEnd - c.iter).toNat)
  · intro c _ _
    exact halts_const (normTurn_ne_running c)
  · rintro c c' ⟨pre, acts, spans, accepted⟩ ⟨more, settled⟩
    have ahead := of_decide_eq_true more
    have nonempty : acts ≠ [] := by
      rintro rfl
      have stop := spans.iterEnd
      rw [spans.iter] at ahead
      simp only [List.length_nil] at stop
      omega
    obtain ⟨stated, inside, rest⟩ := accepts_first accepted nonempty
    obtain ⟨c'', out, turn, spans'⟩ := exists_turn host slack ipProto spans accepted nonempty
    obtain rfl : c'' = c' := Outcome.done.inj (turn.symm.trans (eq_of_settles_const settled))
    refine ⟨⟨_, _, spans', rest⟩, ?_⟩
    have step := le_padLength (actionLength acts)
    simp only [spans.iterEnd, spans.iter, spans'.iterEnd, spans'.iter, List.length_drop]
    omega
  · exact ⟨pre, acts, h, accepted⟩

end

end Libofp.Normalize.ActionProgress
