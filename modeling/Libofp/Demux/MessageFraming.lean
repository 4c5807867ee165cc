/- GID: Libofp/Demux/MessageFraming
   digest: OpenFlow messages cut from the reassembled bytes of captured TCP packets. -/

import Libofp.Base.Framing
import Libofp.Demux.TcpSessions
import Libofp.Octets.BigEndian

set_option autoImplicit false

namespace Libofp.Demux.MessageFraming

open Base.Framing Octets.ByteRange Octets.BigEndian SegmentCache FlowReceive
open TcpSessions

/-- The fields of a TCP header that are used. The flags word begins with the data offset. -/
structure TCPHdr where
  srcPort : Nat
  dstPort : Nat
  seqNum : Seq
  flags : BitVec 16
  deriving DecidableEq

/-- `sizeof(pkt::TCPHdr)`. -/
def sizeofTCPHdr : Nat := 20

/-- `sizeof(Header)`. -/
def sizeofHeader : Nat := 8

def TCPHdr.cast (data : Bytes) : Option TCPHdr :=
  if data.length < sizeofTCPHdr then none
  else some
    { srcPort := big16 data 0
      dstPort := big16 data 2
      seqNum := BitVec.ofNat 32 (big32 data 4)
      flags := BitVec.ofNat 16 (big16 data 12) }

/-- `(flags_ >> 12) * 4`. -/
def TCPHdr.headerLength (tcp : TCPHdr) : Nat := (tcp.flags >>> 12).toNat * 4

structure Delivered where
  data : Bytes
  sessionID : UInt64
  src : IPv6Endpoint
  dst : IPv6Endpoint
  ts : Timestamp
  deriving DecidableEq

structure MessageSource where
  ts_ : Timestamp := ⟨0, 0⟩
  src_ : IPv6Endpoint := ⟨0, 0⟩
  dst_ : IPv6Endpoint := ⟨0, 0⟩
  seq_ : Seq := 0
  flags_ : BitVec 16 := 0
  flows_ : FlowCache := {}
  skipPayload_ : Bool := false
  messages : List Delivered := []

/-- One turn of the loop of `submitPayload`: a complete message is delivered, a length
field below eight skips eight bytes, and an incomplete message ends the loop. -/
def payloadCut (data : Bytes) : Option (Nat × List Bytes) :=
  if sizeofHeader ≤ data.length then
    let msgLen := big16 data 2
    if sizeofHeader ≤ msgLen ∧ msgLen ≤ data.length then some (msgLen, [data.take msgLen])
    else if msgLen < sizeofHeader then some (sizeofHeader, [])
    else none
  else none

theorem payloadCut_cases {data : Bytes} {r : Nat × List Bytes} (cuts : payloadCut data = some r) :
    sizeofHeader ≤ data.length ∧
      ((sizeofHeader ≤ big16 data 2 ∧ big16 data 2 ≤ data.length ∧
          r = (big16 data 2, [data.take (big16 data 2)])) ∨
        (big16 data 2 < sizeofHeader ∧ r = (sizeofHeader, []))) := by
  unfold payloadCut at cuts
  split at cuts
  · rename_i long
    simp only at cuts
    split at cuts
    · rename_i complete
      exact ⟨long, Or.inl ⟨complete.1, complete.2, (Option.some.inj cuts).symm⟩⟩
    · split at cuts
      · rename_i small
        exact ⟨long, Or.inr ⟨small, (Option.some.inj cuts).symm⟩⟩
      · cases cuts
  · cases cuts

private theorem payloadCut_progress {data : Bytes} {k : Nat} {out : List Bytes}
    (cuts : payloadCut data = some (k, out)) : 0 < k ∧ k ≤ data.length := by
  have eight : sizeofHeader = 8 := rfl
  obtain ⟨long, ⟨above, complete, result⟩ | ⟨small, result⟩⟩ := payloadCut_cases cuts
  · cases result
    omega
  · cases result
    omega

private theorem payloadCut_stable {x : Bytes} {r : Nat × List Bytes} (y : Bytes)
    (cuts : payloadCut x = some r) : payloadCut (x ++ y) = some r := by
  have eight : sizeofHeader = 8 := rfl
  obtain ⟨long, ⟨above, complete, result⟩ | ⟨small, result⟩⟩ := payloadCut_cases cuts
  · simp only [payloadCut, big16_append y (show 2 + 2 ≤ x.length by omega), List.length_append]
    rw [if_pos (Nat.le_add_right_of_le long), if_pos ⟨above, Nat.le_add_right_of_le complete⟩,
      List.take_append_of_le_length complete, result]
  · simp only [payloadCut, big16_append y (show 2 + 2 ≤ x.length by omega), List.length_append]
    rw [if_pos (Nat.le_add_right_of_le long), if_neg (by omega), if_pos small, result]

/-- The loop of `submitPayload`. -/
def payloadCutter : Cutter UInt8 Bytes where
  cut := payloadCut
  progress := payloadCut_progress
  stable := payloadCut_stable

namespace MessageSource

/-- `deliverMessage`, without the callback. -/
def deliverMessage (m : MessageSource) (sessionID : UInt64) (data : Bytes) : Delivered :=
  ⟨data, sessionID, m.src_, m.dst_, m.ts_⟩

/-- `submitPayload`: the source with the delivered messages and the number of bytes used. -/
def submitPayload (m : MessageSource) (data : Bytes) (sessionID : UInt64) :
    MessageSource × Nat :=
  if m.skipPayload_ then (m, data.length)
  else
    ({ m with
        messages := m.messages ++
          (drain payloadCutter data).1.map (m.deliverMessage sessionID) },
      data.length - (drain payloadCutter data).2.length)

/-- The end of `submitTCP`: frame and consume the data that the flow returned. -/
def submitFlow (m : MessageSource) (flow : FlowData) : MessageSource :=
  if 0 < flow.data_.length then
    let (m, n) := m.submitPayload flow.data_ flow.sessionID_
    -- Make sure all of the remaining data is consumed when the flow is over.
    let n := if flow.final_ && n != flow.data_.length then flow.data_.length else n
    { m with flows_ := m.flows_.consume m.src_ m.dst_ flow n }
  else m

def submitTCP (m : MessageSource) (data : Bytes) : MessageSource :=
  match TCPHdr.cast data with
  | none => m
  | some tcp =>
      let m := { m with flags_ := tcp.flags }
      if tcp.headerLength < sizeofTCPHdr || tcp.headerLength > data.length then m
      else
        let m :=
          { m with
            src_ := { m.src_ with port_ := tcp.srcPort }
            dst_ := { m.dst_ with port_ := tcp.dstPort }
            seq_ := tcp.seqNum }
        let (flows, flow) := m.flows_.receive m.ts_ m.src_ m.dst_ m.seq_
          (data.drop tcp.headerLength) (m.flags_.setWidth 8)
        { m with flows_ := flows }.submitFlow flow

end MessageSource

/-- A captured IP packet that carries TCP: its time, its addresses and the bytes that
follow the IP header. -/
structure Packet where
  ts : Timestamp
  src : BitVec 128
  dst : BitVec 128
  data : Bytes

/-- The capture time and the addresses are set before `submitTCP` is called. -/
def MessageSource.submit (m : MessageSource) (p : Packet) : MessageSource :=
  { m with
    ts_ := p.ts
    src_ := { m.src_ with addr_ := p.src }
    dst_ := { m.dst_ with addr_ := p.dst } }.submitTCP p.data

end Libofp.Demux.MessageFraming
