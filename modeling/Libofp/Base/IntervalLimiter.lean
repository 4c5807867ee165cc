/- GID: Libofp/Base/IntervalLimiter
   generality: G
   digest: A limiter that counts events in intervals which events start. -/

import Mathlib.Algebra.Order.Monoid.Defs
import Mathlib.Data.List.Induction
import Mathlib.Tactic.Common

set_option autoImplicit false

namespace Libofp.Base.IntervalLimiter

variable {τ : Type} [AddCommMonoid τ] [LinearOrder τ]

/-- An interval that has begun: its first event and the number of its events. -/
structure Epoch (τ : Type) where
  start : τ
  count : Nat

/-- One event. It starts an interval when there is none, or when the current one is over; within an
interval the first `quota` events are admitted. -/
def meter (quota : Nat) (span : τ) (current : Option (Epoch τ)) (e : τ) : Bool × Epoch τ :=
  match current with
  | none => (true, ⟨e, 1⟩)
  | some i =>
    if i.start + span ≤ e then (true, ⟨e, 1⟩)
    else (decide (i.count + 1 ≤ quota), ⟨i.start, i.count + 1⟩)

def decisions (quota : Nat) (span : τ) : Option (Epoch τ) → List τ → List (τ × Bool)
  | _, [] => []
  | current, e :: es =>
    (e, (meter quota span current e).1) ::
      decisions quota span (some (meter quota span current e).2) es

def current (quota : Nat) (span : τ) (es : List τ) : Option (Epoch τ) :=
  es.foldl (fun i e => some (meter quota span i e).2) none

/-- The start of the current interval: the first event starts one, and so does every event at least
`span` after the start of the last one. -/
def started (span : τ) (es : List τ) : Option τ :=
  es.foldl (fun s e => some (s.elim e fun s => if s + span ≤ e then e else s)) none

theorem current_start (quota : Nat) (span : τ) (es : List τ) :
    (current quota span es).map Epoch.start = started span es := by
  induction es using List.reverseRecOn with
  | nil => rfl
  | append_singleton es e ih =>
    rw [current, started, List.foldl_append, List.foldl_append, List.foldl_cons, List.foldl_nil,
      List.foldl_cons, List.foldl_nil]
    change _ = some ((started span es).elim e _)
    rw [← ih]
    cases hi : current quota span es with
    | none =>
      rw [current] at hi
      rw [hi]
      rfl
    | some i =>
      rw [current] at hi
      rw [hi]
      dsimp only [meter, Option.map_some, Option.elim]
      split <;> rfl

/-- An event at least `span` after the start of the current interval is admitted. -/
theorem meter_of_started {span s e : τ} {es : List τ} (quota : Nat)
    (start : started span es = some s) (past : s + span ≤ e) :
    (meter quota span (current quota span es) e).1 = true := by
  rw [← current_start quota] at start
  obtain ⟨i, hi, rfl⟩ := Option.map_eq_some_iff.mp start
  rw [hi, meter, if_pos past]

section

variable {quota : Nat} {span x : τ} {es : List τ}

/-- Whether an event was admitted and lies in the window of length `span` that starts at `x`. -/
def inWindow (span x : τ) (d : τ × Bool) : Bool := d.2 && decide (x ≤ d.1 ∧ d.1 < x + span)

def burst (quota : Nat) (span x : τ) (i : Option (Epoch τ)) (es : List τ) : Nat :=
  (decisions quota span i es).countP (inWindow span x)

@[simp]
theorem burst_nil (i : Option (Epoch τ)) : burst quota span x i [] = 0 := rfl

theorem burst_cons (i : Option (Epoch τ)) (e : τ) :
    burst quota span x i (e :: es) =
      burst quota span x (some (meter quota span i e).2) es +
        if inWindow span x (e, (meter quota span i e).1) then 1 else 0 := by
  rw [burst, decisions, List.countP_cons, burst]

theorem burst_cons_outside {e : τ} (outside : ¬(x ≤ e ∧ e < x + span)) (i : Option (Epoch τ)) :
    burst quota span x i (e :: es) =
      burst quota span x (some (meter quota span i e).2) es := by
  have no : inWindow span x (e, (meter quota span i e).1) = false := by
    simp only [inWindow, decide_eq_false outside, Bool.and_false]
  rw [burst_cons, no, if_neg Bool.false_ne_true, Nat.add_zero]

theorem burst_behind (i : Option (Epoch τ)) (behind : ∀ e ∈ es, x + span ≤ e) :
    burst quota span x i es = 0 := by
  induction es generalizing i with
  | nil => rfl
  | cons e es ih =>
    have late : x + span ≤ e := behind e List.mem_cons_self
    rw [burst_cons_outside fun inside => absurd inside.2 (not_lt_of_ge late)]
    apply ih
    intro u member
    exact behind u (List.mem_cons_of_mem _ member)

theorem burst_cons_le (i : Option (Epoch τ)) (e : τ) :
    burst quota span x i (e :: es) ≤
      burst quota span x (some (meter quota span i e).2) es + 1 := by
  rw [burst_cons]
  split <;> omega

/-- An event within the current interval takes one of the events that the interval still admits. -/
theorem burst_within {i : Epoch τ} {e : τ} {more : Nat} (within : ¬i.start + span ≤ e)
    (later : burst quota span x (some ⟨i.start, i.count + 1⟩) es ≤
      quota - (i.count + 1) + more) :
    burst quota span x (some i) (e :: es) ≤ quota - i.count + more := by
  have step : meter quota span (some i) e =
      (decide (i.count + 1 ≤ quota), ⟨i.start, i.count + 1⟩) := if_neg within
  by_cases room : i.count + 1 ≤ quota
  · have one : burst quota span x (some i) (e :: es) ≤
        burst quota span x (some (meter quota span (some i) e).2) es + 1 := burst_cons_le ..
    have next : (meter quota span (some i) e).2 = ⟨i.start, i.count + 1⟩ := by rw [step]
    rw [next] at one
    omega
  · have refused : inWindow span x (e, decide (i.count + 1 ≤ quota)) = false := by
      simp only [inWindow, decide_eq_false room, Bool.false_and]
    rw [burst_cons, step]
    dsimp only
    rw [refused, if_neg Bool.false_ne_true]
    omega

variable [IsOrderedAddMonoid τ]

/-- From an interval that starts in the window or behind it, no other one starts in the window. -/
theorem burst_started {i : Epoch τ} (started : x ≤ i.start) (sorted : es.Pairwise (· ≤ ·)) :
    burst quota span x (some i) es ≤ quota - i.count := by
  induction es generalizing i with
  | nil => exact Nat.zero_le _
  | cons e es ih =>
    obtain ⟨first, sorted⟩ := List.pairwise_cons.mp sorted
    by_cases ended : i.start + span ≤ e
    · -- the next interval starts behind the window, and so do all later events
      have late : x + span ≤ e := (add_le_add_left started span).trans ended
      have none : burst quota span x (some i) (e :: es) = 0 := by
        apply burst_behind
        intro u member
        rcases List.mem_cons.mp member with rfl | member
        · exact late
        · exact late.trans (first u member)
      rw [none]
      exact Nat.zero_le _
    · have later : burst quota span x (some ⟨i.start, i.count + 1⟩) es ≤
          quota - (i.count + 1) + 0 := ih started sorted
      exact burst_within ended later

/-- When all events are past the start of the window, what the current interval still admits and one
whole interval are the most. -/
theorem burst_entered {i : Epoch τ} (entered : ∀ e ∈ es, x ≤ e) (sorted : es.Pairwise (· ≤ ·))
    (positive : 1 ≤ quota) : burst quota span x (some i) es ≤ quota - i.count + quota := by
  induction es generalizing i with
  | nil => exact Nat.zero_le _
  | cons e es ih =>
    obtain ⟨first, later⟩ := List.pairwise_cons.mp sorted
    by_cases ended : i.start + span ≤ e
    · have step : (meter quota span (some i) e).2 = ⟨e, 1⟩ := by
        rw [meter, if_pos ended]
      have one : burst quota span x (some i) (e :: es) ≤
          burst quota span x (some (meter quota span (some i) e).2) es + 1 := burst_cons_le ..
      have next : burst quota span x (some ⟨e, 1⟩) es ≤ quota - 1 :=
        burst_started (entered e List.mem_cons_self) later
      rw [step] at one
      omega
    · apply burst_within ended
      apply ih _ later
      intro u member
      exact entered u (List.mem_cons_of_mem _ member)

theorem burst_live {i : Epoch τ} (live : 1 ≤ i.count) (sorted : es.Pairwise (· ≤ ·))
    (positive : 1 ≤ quota) : burst quota span x (some i) es ≤ 2 * quota - 1 := by
  induction es generalizing i with
  | nil => exact Nat.zero_le _
  | cons e es ih =>
    obtain ⟨first, later⟩ := List.pairwise_cons.mp sorted
    by_cases before : e < x
    · -- nothing of the window has happened yet
      rw [burst_cons_outside fun inside => absurd inside.1 (not_le_of_gt before)]
      apply ih _ later
      rw [meter]
      split
      · exact le_rfl
      · exact Nat.le_add_left 1 _
    · have entered : ∀ u ∈ e :: es, x ≤ u := by
        intro u member
        rcases List.mem_cons.mp member with rfl | member
        · exact le_of_not_gt before
        · exact (le_of_not_gt before).trans (first u member)
      have most : burst quota span x (some i) (e :: es) ≤ quota - i.count + quota :=
        burst_entered entered sorted positive
      omega

theorem burst_le (sorted : es.Pairwise (· ≤ ·)) (positive : 1 ≤ quota) :
    burst quota span x none es ≤ 2 * quota - 1 := by
  cases es with
  | nil => exact Nat.zero_le _
  | cons e es =>
    obtain ⟨first, later⟩ := List.pairwise_cons.mp sorted
    by_cases before : e < x
    · rw [burst_cons_outside fun inside => absurd inside.1 (not_le_of_gt before)]
      exact burst_live le_rfl later positive
    · have one : burst quota span x none (e :: es) ≤
          burst quota span x (some ⟨e, 1⟩) es + 1 := burst_cons_le ..
      have next : burst quota span x (some ⟨e, 1⟩) es ≤ quota - 1 :=
        burst_started (le_of_not_gt before) later
      omega

end

end Libofp.Base.IntervalLimiter
