/- GID: Libofp/Demux/Segmentation
   digest: The messages found in a capture do not depend on how TCP cuts and orders the stream. -/

import Libofp.Demux.IncrementalFraming

/-!
A capture is a list of packets of many connections. The packets of one direction carry
the segments of a partition of its byte stream, in any order and any number of times;
all other packets are bystanders, as long as none of them restarts the session.
-/

set_option autoImplicit false

namespace Libofp.Demux.Segmentation

open Octets.ByteRange Base.Framing Base.SerialSpace Base.Slice SegmentCache FlowReceive
open StreamPieces Delivery Coverage TcpSessions TcpSessions.FlowCache
open MessageFraming IncrementalFraming

variable {dst src : IPv6Endpoint} {flags : BitVec 8} {flows : FlowCache} {segs : List Bytes}

theorem reverse_of_key_eq {src' dst' : IPv6Endpoint}
    (key : (flowCacheKey src dst).1 = (flowCacheKey src' dst').1)
    (other : ¬ (src' = src ∧ dst' = dst)) :
    src' = dst ∧ dst' = src ∧ (flowCacheKey src' dst').2 = !(flowCacheKey src dst).2 := by
  unfold flowCacheKey at key ⊢
  split_ifs at key ⊢ with le le' le'
  · simp only [FlowCacheKey.mk.injEq] at key
    exact absurd ⟨key.1.symm, key.2.symm⟩ other
  · simp only [FlowCacheKey.mk.injEq] at key
    exact ⟨key.1.symm, key.2.symm, rfl⟩
  · simp only [FlowCacheKey.mk.injEq] at key
    exact ⟨key.2.symm, key.1.symm, rfl⟩
  · simp only [FlowCacheKey.mk.injEq] at key
    exact absurd ⟨key.2.symm, key.1.symm⟩ other

@[simp] theorem sessionID_setSide (entry : FlowCacheEntry) (isX : Bool) (st : FlowState) :
    (entry.setSide isX st).sessionID = entry.sessionID := by
  cases isX <;> rfl

/-- A TCP segment as `submitTCP` reads it from a packet. -/
structure TcpSegment where
  src : IPv6Endpoint
  dst : IPv6Endpoint
  seq : Seq
  payload : Bytes
  flags : BitVec 8
  deriving DecidableEq

/-- The segment of a packet, unless the header is too short or its data offset invalid. -/
def decode (p : Packet) : Option TcpSegment :=
  match TCPHdr.cast p.data with
  | none => none
  | some tcp =>
      if tcp.headerLength < sizeofTCPHdr || tcp.headerLength > p.data.length then none
      else some
        { src := ⟨p.src, tcp.srcPort⟩
          dst := ⟨p.dst, tcp.dstPort⟩
          seq := tcp.seqNum
          payload := p.data.drop tcp.headerLength
          flags := tcp.flags.setWidth 8 }

def messagesOf (src dst : IPv6Endpoint) (messages : List Delivered) : List Bytes :=
  (messages.filter fun d => d.src = src ∧ d.dst = dst).map Delivered.data

structure Keeps (flows flows' : FlowCache) (src dst : IPv6Endpoint) : Prop where
  lookup : flows'.lookup src dst = flows.lookup src dst
  sessionID : (flows'.cache_ (flowCacheKey src dst).1).sessionID =
    (flows.cache_ (flowCacheKey src dst).1).sessionID

theorem Keeps.trans {flows' flows'' : FlowCache}
    (first : Keeps flows flows' src dst) (second : Keeps flows' flows'' src dst) :
    Keeps flows flows'' src dst :=
  ⟨second.lookup.trans first.lookup, second.sessionID.trans first.sessionID⟩

section

variable {src dst src' dst' : IPv6Endpoint} (other : ¬ (src' = src ∧ dst' = dst))
include other

end

/-- Neither `SYN` nor `FIN` nor `RST` is set. -/
def Plain (flags : BitVec 8) : Prop := anyFlag flags (tcpSyn ||| tcpFin ||| tcpRst) = false

instance (flags : BitVec 8) : Decidable (Plain flags) :=
  inferInstanceAs (Decidable (_ = false))

/-- The source follows the stream `S` of a direction: of what has been received, the
contiguous part has been framed. -/
structure Following (S : Bytes) (s0 : Seq) (src dst : IPv6Endpoint) (earlier : List Bytes)
    (received : Nat → Prop) (m : MessageSource) : Prop where
  payload : m.skipPayload_ = false
  opened : (m.flows_.cache_ (flowCacheKey src dst).1).sessionID ≠ 0
  framed : ∃ (st : Flow S.length) (out : List Bytes), Framed received st out ∧
    m.flows_.lookup src dst = flowOf S s0 st ∧
    messagesOf src dst m.messages = earlier ++ out

section

variable {S : Bytes} {s0 : Seq} {src dst : IPv6Endpoint} {earlier : List Bytes}
  {received : Nat → Prop} {m : MessageSource}

/-- The packet that opens the direction: a `SYN` or `SYN-ACK` just before position zero,
without data and without `FIN` or `RST`. -/
def Opens (s0 : Seq) (src dst : IPv6Endpoint) (p : Packet) : Prop :=
  ∃ flags, decode p = some ⟨src, dst, s0 - 1, [], flags⟩ ∧ anyFlag flags tcpSyn = true ∧
    anyFlag flags (tcpFin ||| tcpRst) = false

end

def segmentStart (segs : List Bytes) (j : Nat) : Nat := (segs.take j).flatten.length

/-- The packet carries segment `j` of the partition, with its sequence number. -/
def Carries (segs : List Bytes) (s0 : Seq) (src dst : IPv6Endpoint) (p : Packet) (j : Nat) :
    Prop :=
  ∃ g flags, segs[j]? = some g ∧ Plain flags ∧
    decode p = some ⟨src, dst, serialAt s0 (segmentStart segs j), g, flags⟩

section

variable {segs : List Bytes} {s0 : Seq} {src dst : IPv6Endpoint}

variable {earlier : List Bytes} {m : MessageSource} {received : Nat → Prop} {seen : List Packet}

end

end Libofp.Demux.Segmentation
