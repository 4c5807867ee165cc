/- GID: Libofp/Base/DoubleBuffer
   generality: G
   digest: Two buffers in front of a device: one is filled while the other is written. -/

import Mathlib.Data.List.Basic
import Mathlib.Logic.Function.Basic
import Mathlib.Tactic.Common

/-!
The device gets a reference to a buffer, not a copy. An operation therefore notes which buffer
it refers to and what the buffer held at the start, so that a change under the device shows as
a difference between the two.
-/

set_option autoImplicit false

namespace Libofp.Base.DoubleBuffer

variable {α : Type}

structure Operation (α : Type) where
  which : Bool
  data : List α
  deriving DecidableEq, Repr

structure Writer (α : Type) where
  buffer : Bool → List α
  /-- The buffer that is filled. -/
  idx : Bool
  busy : Bool
  outstanding : List (Operation α)
  /-- All that the device was handed, operation by operation. -/
  handed : List (List α)

namespace Writer

def empty : Writer α := ⟨fun _ => [], false, false, [], []⟩

def waiting (s : Writer α) : List α := s.buffer s.idx

def append (s : Writer α) (data : List α) : Writer α :=
  { s with buffer := Function.update s.buffer s.idx (s.waiting ++ data) }

/-- The buffers change roles, and the device starts on the one that was filled. -/
def launch (s : Writer α) : Writer α :=
  { s with
    idx := !s.idx
    busy := true
    outstanding := s.outstanding ++ [⟨s.idx, s.waiting⟩]
    handed := s.handed ++ [s.waiting] }

def retire (s : Writer α) : Writer α :=
  { s with busy := false, buffer := Function.update s.buffer (!s.idx) [] }

/-- The device is done with an operation. Nothing of the writer itself changes. -/
def finish (s : Writer α) (k : Nat) : Writer α :=
  { s with outstanding := s.outstanding.eraseIdx k }

/-- The device is done with the operation that has number `k`, and calls the writer's handler
with the count of the bytes. There is no such call without an operation. -/
def complete (handler : Writer α → Nat → Option (Writer α)) (s : Writer α) (k : Nat) :
    Option (Writer α) :=
  match s.outstanding[k]? with
  | none => some s
  | some op => handler (s.finish k) op.data.length

/-- What ties the writer to the stream of all data that was appended: nothing is lost between
the device and the waiting bytes, and the device works on the other buffer or not at all. -/
structure Carries (stream : List α) (s : Writer α) : Prop where
  whole : s.handed.flatten ++ s.waiting = stream
  flight : s.outstanding = if s.busy then [⟨!s.idx, s.buffer (!s.idx)⟩] else []
  clear : s.busy = false → s.buffer (!s.idx) = []

def Draining (s : Writer α) : Prop := s.busy = false → s.waiting = []

variable {s : Writer α} {stream : List α}

theorem draining_launch (s : Writer α) : s.launch.Draining :=
  fun idle => absurd idle (by simp [launch])

theorem carries_empty : Carries ([] : List α) empty := ⟨rfl, rfl, fun _ => rfl⟩

@[simp] theorem waiting_append (s : Writer α) (data : List α) :
    (s.append data).waiting = s.waiting ++ data := Function.update_self ..

theorem buffer_append (s : Writer α) (data : List α) :
    (s.append data).buffer (!s.idx) = s.buffer (!s.idx) :=
  Function.update_of_ne (by simp) ..

theorem waiting_retire (s : Writer α) : s.retire.waiting = s.waiting :=
  Function.update_of_ne (by simp [retire]) ..

namespace Carries

section

variable (carries : Carries stream s)

include carries

theorem append (data : List α) : Carries (stream ++ data) (s.append data) where
  whole := by
    rw [waiting_append, ← carries.whole, List.append_assoc]
    rfl
  flight := by
    have flight := carries.flight
    rwa [← buffer_append s data] at flight
  clear := by
    intro idle
    exact (buffer_append s data).trans (carries.clear idle)

theorem launch (idle : s.busy = false) : Carries stream s.launch where
  whole := by
    have other : s.launch.waiting = [] := carries.clear idle
    rw [other, List.append_nil, ← carries.whole]
    simp [Writer.launch]
  flight := by
    have none : s.outstanding = [] := by rw [carries.flight, idle]; rfl
    simp [Writer.launch, none, waiting]
  clear := by
    intro idle'
    exact absurd idle' (by simp [Writer.launch])

/-- The operation that ends is the only one and still has its data, and the handler finds the
writer as the launch left it. -/
theorem complete (handler : Writer α → Nat → Option (Writer α)) (k : Nat) :
    s.complete handler k = some s ∨
      s.complete handler k = handler (s.finish k) (s.buffer (!s.idx)).length ∧
        Carries stream (s.finish k).retire := by
  rw [Writer.complete]
  cases found : s.outstanding[k]? with
  | none => exact .inl rfl
  | some op =>
    have flight := carries.flight
    cases busy : s.busy with
    | false =>
      rw [busy] at flight
      simp [flight] at found
    | true =>
      rw [busy] at flight
      rw [flight] at found
      cases k with
      | zero =>
        obtain rfl := Option.some.inj found
        refine .inr ⟨rfl, ?_, ?_, fun _ => Function.update_self ..⟩
        · rw [waiting_retire]
          exact carries.whole
        · simp [Writer.retire, finish, flight]
      | succ k => simp at found

theorem outstanding_le_one : s.outstanding.length ≤ 1 := by
  rw [carries.flight]
  split <;> simp

theorem intact : ∀ op ∈ s.outstanding, s.buffer op.which = op.data := by
  intro op member
  rw [carries.flight] at member
  split at member
  · rw [List.mem_singleton.mp member]
  · simp at member

theorem handed_prefix : s.handed.flatten <+: stream :=
  ⟨s.waiting, carries.whole⟩

theorem idle_of_none (none : s.outstanding = []) : s.busy = false := by
  cases busy : s.busy with
  | false => rfl
  | true =>
    have flight := carries.flight
    rw [busy, none] at flight
    simp at flight

theorem handed_eq (drained : s.waiting = []) : s.handed.flatten = stream := by
  rw [← carries.whole, drained, List.append_nil]

end

end Carries

end Writer

end Libofp.Base.DoubleBuffer
