/- GID: Libofp/Normalize/Queues
   digest: Queue configurations of older versions rewritten to the current structure. -/

import Libofp.Normalize.ActionRewrite

set_option autoImplicit false

namespace Libofp.Normalize.Queues

open Octets.ByteRange Octets.ByteList Octets.BigEndian
open Base.Iteration Wire.ProtocolRange Messages Messages.Header
open ActionRewrite (normPortNumberV1)

/-- `sizeof(QueueGetConfigReply)`. -/
def sizeofQueueGetConfigReply : Nat := 16

/-- `QueueV1`: the queue number, the length at offset 4, and the properties. -/
def queueV1Layout : ElementLayout := ⟨8, .at 4, 8⟩

/-- `QueueV1::validateInput`. -/
def validateQueueV1 (queue : Bytes) : Bool := decide (big16 queue 4 ≥ 8)

/-- `QueueV1::properties`. -/
def queueV1Properties (queue : Bytes) : Bytes := safeByteRange (queue.take (big16 queue 4)) 8

/-- The memory of `QueueBuilder(const QueueV1 &)` and its properties. -/
def queueFromV1 (queue : Bytes) : Bytes :=
  window queue 0 4 ++ bigBytes 4 0 ++ bigBytes 2 (16 + (queueV1Properties queue).length) ++
    List.replicate 6 0 ++ queueV1Properties queue

def normalizeQueueGetConfigReplyV1 (buf : Bytes) : Bytes :=
  if Header.length buf < sizeofQueueGetConfigReply then markInputInvalid buf
  else
    let buf :=
      if version buf = 1 then poke buf 8 (bigBytes 4 (normPortNumberV1 (big16 buf 8))) else buf
    let data := safeByteRange buf sizeofQueueGetConfigReply
    let queues := queueV1Layout.items data
    if ¬ (queueV1Layout.isProtocolRangeValid sizeofQueueGetConfigReply data &&
        queues.all validateQueueV1) then markInputInvalid buf
    else
      let newQueues := (queues.map queueFromV1).flatten
      if newQueues.length > 65535 - sizeofQueueGetConfigReply then markInputTooBig buf
      else replace buf sizeofQueueGetConfigReply buf.length newQueues

/-- The inner loop of `normalizeQueueGetConfigReplyV2`: what is left of the queue's
properties and what has been written, or nothing once the function has returned. -/
structure PropertyScan where
  left : Bytes
  out : Bytes
  returned : Bool := false
  deriving DecidableEq, Repr

def PropertyScan.more (s : PropertyScan) : Bool := !s.returned && decide (s.left.length > 4)

def propertyTurn (s : PropertyScan) : Outcome PropertyScan :=
  let propSize := big16 s.left 2
  if propSize > s.left.length ∨ propSize < 4 then .done { s with returned := true }
  else
    .done { s with
      left := s.left.drop propSize
      out := s.out ++ s.left.take propSize ++ List.replicate (padLength propSize - propSize) 0 }

/-- The outer loop: what is left of the message and what has been written. -/
structure QueueScan where
  left : Bytes
  out : Bytes
  returned : Bool := false
  deriving DecidableEq, Repr

def QueueScan.more (s : QueueScan) : Bool := !s.returned && decide (s.left.length > 16)

def queueTurn (fuel : Nat) (s : QueueScan) : Outcome QueueScan :=
  let queueLen := big16 s.left 8
  if queueLen > s.left.length ∨ queueLen < 16 then .done { s with returned := true }
  else
    (whileLoop PropertyScan.more propertyTurn fuel
        ⟨(s.left.take queueLen).drop 16, s.out ++ s.left.take 16, false⟩).map fun props =>
      if props.returned ∨ props.left.length ≠ 0 then { s with returned := true }
      else { s with left := s.left.drop queueLen, out := props.out }

def normalizeQueueGetConfigReplyV2 (fuel : Nat) (buf : Bytes) : Outcome Bytes :=
  if Header.length buf < sizeofQueueGetConfigReply then .done buf
  else
    (whileLoop QueueScan.more (queueTurn fuel) fuel
        ⟨safeByteRange buf sizeofQueueGetConfigReply, [], false⟩).map fun queues =>
      if queues.returned ∨ queues.left.length ≠ 0 then buf
      else if queues.out.length > 65535 - sizeofQueueGetConfigReply then markInputTooBig buf
      else replace buf sizeofQueueGetConfigReply buf.length queues.out

end Libofp.Normalize.Queues
