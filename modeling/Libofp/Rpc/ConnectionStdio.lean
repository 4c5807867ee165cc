/- GID: Libofp/Rpc/ConnectionStdio
   digest: Events on the standard streams of the RPC server are read back as written. -/

import Libofp.Base.DoubleBuffer
import Libofp.Octets.ByteList

set_option autoImplicit false

namespace Libofp.Rpc.ConnectionStdio

open Base.DoubleBuffer Octets.ByteRange Octets.BigEndian Octets.ByteList

def RPC_MAX_MESSAGE_SIZE : Nat := 1048576

def RPC_EVENT_DELIMITER_CHAR : UInt8 := 0x00

def RPC_EVENT_BINARY_TAG : Nat := 0xF5

def kMsgPrefix : Bytes := literal "\x7b\"params\":"

def kMsgSuffix : Bytes := literal ",\"method\":\"OFP.MESSAGE\"\x7d"

/-- `RpcConnectionStdio`. The members `outgoing_`, `outgoingIdx_` and `writing_` are `buffer`,
`idx` and `busy` of the writer. -/
structure RpcConnectionStdio where
  outgoing : Writer UInt8
  binaryProtocol : Bool
  txEvents : UInt32
  txBytes : UInt64

/-- `RpcConnectionStdio::asyncWrite`. `none` means that its assertion fails. -/
def asyncWrite (out : Writer UInt8) : Option (Writer UInt8) :=
  if out.busy then none else some out.launch

/-- `msgSize` in `writeEvent`. -/
def msgSize (msg : Bytes) (ofpMessage : Bool) : Nat :=
  if ofpMessage then msg.length + 34 else msg.length

/-- What `writeEvent` adds to the buffer that is filled. -/
def queueEvent (out : Writer UInt8) (binaryProtocol : Bool) (msg : Bytes) (ofpMessage : Bool) :
    Writer UInt8 :=
  let out :=
    if binaryProtocol then
      let hdr := (msgSize msg ofpMessage <<< 8) ||| RPC_EVENT_BINARY_TAG
      out.append (bigBytes 4 hdr)
    else out
  let out :=
    if ofpMessage then ((out.append kMsgPrefix).append msg).append kMsgSuffix
    else out.append msg
  if ¬ binaryProtocol then out.append [RPC_EVENT_DELIMITER_CHAR] else out

def writeEvent (c : RpcConnectionStdio) (msg : Bytes) (ofpMessage : Bool) :
    Option RpcConnectionStdio :=
  let out := queueEvent c.outgoing c.binaryProtocol msg ofpMessage
  (if ¬ out.busy then asyncWrite out else some out).map fun out =>
    { c with
      outgoing := out
      txEvents := c.txEvents + 1
      txBytes := c.txBytes + UInt64.ofNat (msgSize msg ofpMessage) }

/-- The lambda that `async_write` calls without an error. `none` means that an assertion
fails. -/
def writeHandler (out : Writer UInt8) (bytesTransferred : Nat) : Option (Writer UInt8) :=
  if bytesTransferred = (out.buffer (!out.idx)).length then
    let out := out.retire
    if ¬ out.waiting.isEmpty then asyncWrite out else some out
  else none

inductive Event where
  | write (msg : Bytes) (ofpMessage : Bool)
  | complete (k : Nat)
  deriving DecidableEq, Repr

def step (c : RpcConnectionStdio) : Event → Option RpcConnectionStdio
  | .write msg ofpMessage => writeEvent c msg ofpMessage
  | .complete k => (c.outgoing.complete writeHandler k).map fun out => { c with outgoing := out }

def run (binaryProtocol : Bool) (events : List Event) : Option RpcConnectionStdio :=
  events.foldlM step ⟨.empty, binaryProtocol, 0, 0⟩

/-- The text of an event: of an `OFP.MESSAGE` event with what goes around the message. -/
def payload (msg : Bytes) (ofpMessage : Bool) : Bytes :=
  if ofpMessage then kMsgPrefix ++ msg ++ kMsgSuffix else msg

def Event.payload? : Event → Option Bytes
  | .write msg ofpMessage => some (payload msg ofpMessage)
  | .complete _ => none

def payloads (events : List Event) : List Bytes := events.filterMap Event.payload?

/-- How reading ends: the input has no more bytes, with some of them left over, or a header is
refused. -/
inductive ReadEnd where
  | eof (left : Bytes)
  | invalidHeader (tag : Nat)
  | tooBig (len : Nat)
  deriving DecidableEq, Repr

/-- `asyncReadHeader` and `asyncReadMessage` in turns, as long as the input lasts. -/
def readEvents (input : Bytes) : List Bytes × ReadEnd :=
  if input.length < 4 then ([], .eof input)
  else
    let tagLen := big32 input 0
    let tag := tagLen &&& 0x00FF
    let len := tagLen >>> 8
    if tag ≠ RPC_EVENT_BINARY_TAG then ([], .invalidHeader tag)
    else if len > RPC_MAX_MESSAGE_SIZE then ([], .tooBig len)
    else if (input.drop 4).length < len then ([], .eof (input.drop 4))
    else
      let rest := readEvents (input.drop (4 + len))
      (window input 4 len :: rest.1, rest.2)
termination_by input.length
decreasing_by
  rw [List.length_drop]
  omega

def frame (text : Bytes) : Bytes :=
  bigBytes 4 ((text.length <<< 8) ||| RPC_EVENT_BINARY_TAG) ++ text

theorem length_payload (msg : Bytes) (ofpMessage : Bool) :
    (payload msg ofpMessage).length = msgSize msg ofpMessage := by
  have lengths : kMsgPrefix.length = 10 ∧ kMsgSuffix.length = 24 := by decide
  cases ofpMessage with
  | false => rfl
  | true =>
    simp only [payload, msgSize, if_true, List.length_append, lengths.1, lengths.2]
    omega

theorem header_eq (size : Nat) : (size <<< 8) ||| RPC_EVENT_BINARY_TAG = size * 256 + 0xF5 := by
  rw [Nat.shiftLeft_eq]
  have joined := Nat.two_pow_add_eq_or_of_lt (i := 8) (b := 0xF5) (by decide) size
  rw [Nat.mul_comm] at joined
  exact joined.symm

private theorem readEvents_frame {text : Bytes} (fits : text.length ≤ RPC_MAX_MESSAGE_SIZE)
    (rest : Bytes) :
    readEvents (frame text ++ rest) =
      (text :: (readEvents rest).1, (readEvents rest).2) := by
  have small : text.length ≤ 1048576 := fits
  have word : big32 (frame text ++ rest) 0 = text.length * 256 + 0xF5 := by
    rw [frame, header_eq]
    simp [bigBytes, big32, big16, big8]
    omega
  have size : (frame text ++ rest).length = 4 + text.length + rest.length := by
    simp [frame]
    omega
  have tag : (text.length * 256 + 0xF5) &&& 0x00FF = RPC_EVENT_BINARY_TAG := by
    have masked := Nat.and_two_pow_sub_one_eq_mod (text.length * 256 + 0xF5) 8
    rw [masked, RPC_EVENT_BINARY_TAG]
    omega
  have len : (text.length * 256 + 0xF5) >>> 8 = text.length := by
    omega
  have body : window (frame text ++ rest) 4 text.length = text := by
    simp [window, frame, bigBytes]
  have tail : (frame text ++ rest).drop (4 + text.length) = rest := by
    rw [show 4 + text.length = (frame text).length by simp [frame], List.drop_left]
  rw [readEvents.eq_def, if_neg (by omega), word]
  dsimp only
  rw [tag, len, if_neg (not_not.mpr rfl), if_neg (by omega), if_neg, body, tail]
  rw [List.length_drop]
  omega

private theorem readEvents_frames {texts : List Bytes}
    (fits : ∀ text ∈ texts, text.length ≤ RPC_MAX_MESSAGE_SIZE) :
    readEvents (texts.flatMap frame) = (texts, .eof []) := by
  induction texts with
  | nil =>
    rw [readEvents.eq_def]
    rfl
  | cons text texts ih =>
    obtain ⟨fit, fits⟩ := List.forall_mem_cons.mp fits
    rw [List.flatMap_cons, readEvents_frame fit, ih fits]

section

variable {c : RpcConnectionStdio} {stream : Bytes}

/-- The writer has the stream, and data waits only while an operation is under way. -/
structure Steady (stream : Bytes) (c : RpcConnectionStdio) : Prop where
  carries : c.outgoing.Carries stream
  draining : c.outgoing.Draining
  binary : c.binaryProtocol = true

private theorem carries_queueEvent {out : Writer UInt8} (carries : out.Carries stream) (msg : Bytes)
    (ofpMessage : Bool) :
    (queueEvent out true msg ofpMessage).Carries (stream ++ frame (payload msg ofpMessage)) := by
  have header := carries.append
    (bigBytes 4 ((msgSize msg ofpMessage <<< 8) ||| RPC_EVENT_BINARY_TAG))
  rw [frame, length_payload, ← List.append_assoc]
  cases ofpMessage with
  | false => exact header.append msg
  | true =>
    have text := ((header.append kMsgPrefix).append msg).append kMsgSuffix
    simp only [List.append_assoc] at text
    simp only [payload, if_true, List.append_assoc]
    exact text

private theorem writeEvent_spec (steady : Steady stream c) (msg : Bytes) (ofpMessage : Bool) :
    ∃ c', writeEvent c msg ofpMessage = some c' ∧
      Steady (stream ++ frame (payload msg ofpMessage)) c' := by
  have queued := carries_queueEvent steady.carries msg ofpMessage
  rw [writeEvent, steady.binary]
  cases busy : (queueEvent c.outgoing true msg ofpMessage).busy with
  | false =>
    simp only [busy, asyncWrite, Bool.false_eq_true, not_false_eq_true, if_true, if_false,
      Option.map_some]
    exact ⟨_, rfl, queued.launch busy, Writer.draining_launch _, rfl⟩
  | true =>
    refine ⟨_, rfl, queued, ?_, rfl⟩
    intro idle
    exact absurd (busy.symm.trans idle) (by decide)

theorem writeHandler_spec {out : Writer UInt8} (retired : out.retire.Carries stream) :
    ∃ out', writeHandler out (out.buffer (!out.idx)).length = some out' ∧
      out'.Carries stream ∧ out'.Draining := by
  rw [writeHandler, if_pos rfl]
  dsimp only
  split
  · exact ⟨_, rfl, retired.launch rfl, Writer.draining_launch _⟩
  · next nothing =>
    refine ⟨_, rfl, retired, fun _ => ?_⟩
    simpa using nothing

def Event.bytes (e : Event) : Bytes := (e.payload?.map frame).getD []

theorem step_spec (steady : Steady stream c) (e : Event) :
    ∃ c', step c e = some c' ∧ Steady (stream ++ e.bytes) c' := by
  cases e with
  | write msg ofpMessage => exact writeEvent_spec steady msg ofpMessage
  | complete k =>
    rw [show (Event.complete k).bytes = [] from rfl, List.append_nil]
    rcases steady.carries.complete writeHandler k with nothing | ⟨called, retired⟩
    · exact ⟨c, by rw [step, nothing]; rfl, steady⟩
    · obtain ⟨out, handled, carries, draining⟩ := writeHandler_spec retired
      refine ⟨{ c with outgoing := out }, ?_, carries, draining, steady.binary⟩
      rw [step, called.trans handled]
      rfl

theorem foldlM_spec (steady : Steady stream c) (events : List Event) :
    ∃ c', events.foldlM step c = some c' ∧
      Steady (stream ++ (payloads events).flatMap frame) c' := by
  induction events generalizing c stream with
  | nil => exact ⟨c, rfl, by simpa [payloads] using steady⟩
  | cons e events ih =>
    obtain ⟨c₁, stepped, steady₁⟩ := step_spec steady e
    obtain ⟨c', ran, steady'⟩ := ih steady₁
    refine ⟨c', ?_, ?_⟩
    · rwa [List.foldlM_cons, stepped]
    · cases e with
      | write msg ofpMessage =>
        simpa [payloads, Event.bytes, Event.payload?, List.append_assoc] using steady'
      | complete k =>
        have silent : payloads (.complete k :: events) = payloads events := rfl
        simpa [silent, Event.bytes, Event.payload?] using steady'

/-- Events of the binary protocol, written while earlier writes are still under way, are read
back whole and in the order of the calls once all writes are over. -/
theorem readEvents_run (events : List Event)
    (fits : ∀ text ∈ payloads events, text.length ≤ RPC_MAX_MESSAGE_SIZE) :
    ∃ c, run true events = some c ∧
      (c.outgoing.outstanding = [] →
        readEvents c.outgoing.handed.flatten = (payloads events, .eof [])) := by
  obtain ⟨c, ran, steady⟩ := foldlM_spec (c := ⟨.empty, true, 0, 0⟩)
    ⟨Writer.carries_empty, fun _ => rfl, rfl⟩ events
  refine ⟨c, ran, fun drained => ?_⟩
  have idle := steady.carries.idle_of_none drained
  rw [steady.carries.handed_eq (steady.draining idle), List.nil_append]
  exact readEvents_frames fits

/-- The second event is written while the first is under way, and goes out behind it. -/
theorem readEvents_run_two :
    ∃ c, run true [.write [0x7b, 0x7d] false, .write [0x31] true, .complete 0, .complete 0] =
        some c ∧ c.outgoing.outstanding = [] ∧ c.outgoing.handed.length = 2 ∧
      readEvents c.outgoing.handed.flatten =
        ([[0x7b, 0x7d], kMsgPrefix ++ [0x31] ++ kMsgSuffix], .eof []) := by
  obtain ⟨c, ran, all⟩ := readEvents_run
    [.write [0x7b, 0x7d] false, .write [0x31] true, .complete 0, .complete 0] (by decide)
  have state := Option.some.inj (ran.symm.trans rfl)
  have rests : c.outgoing.outstanding = [] := by rw [state]; rfl
  exact ⟨c, ran, rests, by rw [state]; rfl, all rests⟩

end

end Libofp.Rpc.ConnectionStdio
