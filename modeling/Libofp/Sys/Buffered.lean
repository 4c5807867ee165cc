/- GID: Libofp/Sys/Buffered
   digest: The buffered stream of a connection: no byte is lost, doubled or reordered. -/

import Libofp.Base.DoubleBuffer
import Libofp.Octets.ByteRange

set_option autoImplicit false

namespace Libofp.Sys.Buffered

open Base.DoubleBuffer Octets.ByteRange

/-! The members `buffer_`, `bufferIdx_` and `isFlushing_` are `buffer`, `idx` and `busy` of
the writer. -/

/-- `Buffered::buf_write`. -/
def bufWrite (s : Writer UInt8) (data : Bytes) : Writer UInt8 := s.append data

/-- `Buffered::buf_flush`. -/
def bufFlush (s : Writer UInt8) : Writer UInt8 :=
  if s.busy ∨ s.waiting.length = 0 then s else s.launch

/-- The lambda that `async_write` calls without an error. `none` means that its assertion
fails. -/
def writeHandler (s : Writer UInt8) (bytesTransferred : Nat) : Option (Writer UInt8) :=
  if bytesTransferred = (s.buffer (!s.idx)).length then
    let s := s.retire
    if s.waiting.length > 0 then some (bufFlush s) else some s
  else none

inductive Event where
  | write (data : Bytes)
  | flush
  | complete (k : Nat)
  deriving DecidableEq, Repr

def step (s : Writer UInt8) : Event → Option (Writer UInt8)
  | .write data => some (bufWrite s data)
  | .flush => some (bufFlush s)
  | .complete k => s.complete writeHandler k

def run (events : List Event) : Option (Writer UInt8) := events.foldlM step .empty

/-- The data that an event passes to `buf_write`. -/
def Event.data : Event → Bytes
  | .write data => data
  | .flush => []
  | .complete _ => []

/-- All data passed to `buf_write`. -/
def written (events : List Event) : Bytes := events.flatMap Event.data

def Event.isWrite : Event → Bool
  | .write _ => true
  | .flush => false
  | .complete _ => false

section

variable {s : Writer UInt8} {stream : Bytes}

theorem carries_bufFlush (carries : s.Carries stream) : (bufFlush s).Carries stream := by
  rw [bufFlush]
  split
  · exact carries
  · next ready =>
    push Not at ready
    exact carries.launch (Bool.eq_false_iff.mpr ready.1)

theorem draining_bufFlush (s : Writer UInt8) : (bufFlush s).Draining := by
  rw [bufFlush]
  split
  · next stays =>
    intro idle
    rcases stays with busy | nothing
    · rw [idle] at busy
      exact absurd busy (by decide)
    · exact List.length_eq_zero_iff.mp nothing
  · exact s.draining_launch

theorem writeHandler_spec (retired : s.retire.Carries stream) :
    ∃ s', writeHandler s (s.buffer (!s.idx)).length = some s' ∧ s'.Carries stream ∧
      s'.Draining := by
  rw [writeHandler, if_pos rfl]
  dsimp only
  split
  · exact ⟨_, rfl, carries_bufFlush retired, draining_bufFlush _⟩
  · next nothing =>
    refine ⟨_, rfl, retired, fun _ => ?_⟩
    exact List.length_eq_zero_iff.mp (Nat.eq_zero_of_not_pos nothing)

theorem step_spec (carries : s.Carries stream) (e : Event) :
    ∃ s', step s e = some s' ∧ s'.Carries (stream ++ e.data) ∧
      (e.isWrite = false → s.Draining → s'.Draining) ∧ (e = .flush → s'.Draining) := by
  cases e with
  | write data => exact ⟨_, rfl, carries.append data, by simp [Event.isWrite], by simp⟩
  | flush =>
    refine ⟨_, rfl, ?_, fun _ _ => draining_bufFlush s, fun _ => draining_bufFlush s⟩
    simpa [Event.data] using carries_bufFlush carries
  | complete k =>
    rw [show stream ++ (Event.complete k).data = stream from List.append_nil _]
    rcases carries.complete writeHandler k with nothing | ⟨called, retired⟩
    · exact ⟨s, nothing, carries, fun _ => id, by simp⟩
    · obtain ⟨s', handled, carries', draining⟩ := writeHandler_spec retired
      exact ⟨s', called.trans handled, carries', fun _ _ => draining, by simp⟩

end

section

variable {s s' : Writer UInt8} {stream : Bytes}

theorem foldlM_spec (carries : s.Carries stream) (events : List Event) :
    ∃ s', events.foldlM step s = some s' ∧ s'.Carries (stream ++ written events) := by
  induction events generalizing s stream with
  | nil => exact ⟨s, rfl, by simpa [written] using carries⟩
  | cons e events ih =>
    obtain ⟨s₁, stepped, carries₁, -⟩ := step_spec carries e
    obtain ⟨s', ran, carries'⟩ := ih carries₁
    refine ⟨s', ?_, ?_⟩
    · rwa [List.foldlM_cons, stepped]
    · simpa [written] using carries'

private theorem draining_foldlM (carries : s.Carries stream) (draining : s.Draining)
    {events : List Event} (quiet : ∀ e ∈ events, e.isWrite = false)
    (ran : events.foldlM step s = some s') :
    s'.Draining := by
  induction events generalizing s stream with
  | nil =>
    obtain rfl := Option.some.inj ran
    exact draining
  | cons e events ih =>
    obtain ⟨read, quiet⟩ := List.forall_mem_cons.mp quiet
    obtain ⟨s₁, stepped, carries₁, kept, -⟩ := step_spec carries e
    rw [List.foldlM_cons, stepped] at ran
    exact ih carries₁ (kept read draining) quiet ran

/-- Whatever the order of writes, flushes and completions: one operation at most is under way,
its buffer stays as it was handed over, the device gets the data in order, and it has got all
of it when it rests and a flush came after the last write. -/
theorem run_preserves_stream (events : List Event) :
    ∃ s, run events = some s ∧
      s.outstanding.length ≤ 1 ∧
      (∀ op ∈ s.outstanding, s.buffer op.which = op.data) ∧
      s.handed.flatten <+: written events ∧
      ∀ before after, events = before ++ .flush :: after →
        (∀ e ∈ after, e.isWrite = false) → s.outstanding = [] →
          s.handed.flatten = written events := by
  obtain ⟨s, ran, carries⟩ := foldlM_spec Writer.carries_empty events
  refine ⟨s, ran, carries.outstanding_le_one, carries.intact, carries.handed_prefix, ?_⟩
  rintro before after rfl quiet rests
  obtain ⟨s₁, ran₁, carries₁⟩ := foldlM_spec Writer.carries_empty before
  obtain ⟨s₂, flushed, carries₂, -, draining⟩ := step_spec carries₁ .flush
  rw [List.foldlM_append, ran₁] at ran
  replace ran : (Event.flush :: after).foldlM step s₁ = some s := ran
  rw [List.foldlM_cons, flushed] at ran
  have settled := draining_foldlM carries₂ (draining rfl) quiet ran
  exact carries.handed_eq (settled (carries.idle_of_none rests))

/-- The second flush finds the device at rest: the handler of the first operation has started
another one for the byte that waited. -/
theorem run_preserves_stream_drained :
    ∃ s, run [.write [1, 2], .flush, .write [3], .complete 0, .write [4], .flush, .complete 0,
      .complete 0] = some s ∧ s.outstanding = [] ∧ s.handed = [[1, 2], [3], [4]] ∧
      s.handed.flatten = [1, 2, 3, 4] := by
  obtain ⟨s, ran, -, -, -, all⟩ := run_preserves_stream [.write [1, 2], .flush, .write [3],
    .complete 0, .write [4], .flush, .complete 0, .complete 0]
  have state := Option.some.inj (ran.symm.trans rfl)
  have rests : s.outstanding = [] := by rw [state]; rfl
  refine ⟨s, ran, rests, by rw [state]; rfl, ?_⟩
  exact all [.write [1, 2], .flush, .write [3], .complete 0, .write [4]]
    [.complete 0, .complete 0] rfl (by decide) rests

end

end Libofp.Sys.Buffered
