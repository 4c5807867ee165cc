/- GID: Libofp/Demux/TcpSessions
   digest: TCP sessions found by their endpoints, with one flow for each direction. -/

import Libofp.Demux.FlowReceive

/-!
Both directions of a connection share an entry, found under the ordered pair of its
endpoints. `operator[]` of the hash map inserts a default entry, whose session number
is zero, so an absent entry and a default one are the same here.
-/

set_option autoImplicit false

namespace Libofp.Demux.TcpSessions

open Octets.ByteRange SegmentCache FlowReceive

/-- An address of sixteen bytes, compared from the first byte on, and a port. -/
structure IPv6Endpoint where
  addr_ : BitVec 128
  port_ : Nat
  deriving DecidableEq

/-- `operator<=` of endpoints. -/
def IPv6Endpoint.le (lhs rhs : IPv6Endpoint) : Bool :=
  lhs.addr_ < rhs.addr_ || (lhs.addr_ == rhs.addr_ && lhs.port_ ≤ rhs.port_)

structure FlowCacheKey where
  x : IPv6Endpoint
  y : IPv6Endpoint
  deriving DecidableEq

/-- The key of a packet and whether its source is the endpoint `x`. -/
def flowCacheKey (src dst : IPv6Endpoint) : FlowCacheKey × Bool :=
  if src.le dst then (⟨src, dst⟩, true) else (⟨dst, src⟩, false)

structure FlowCacheEntry where
  sessionID : UInt64 := 0
  x : FlowState := {}
  y : FlowState := {}
  firstSeen : Timestamp := ⟨0, 0⟩
  lastSeen : Timestamp := ⟨0, 0⟩
  deriving DecidableEq

namespace FlowCacheEntry

def finished (entry : FlowCacheEntry) : Bool := entry.x.finished && entry.y.finished

def reset (entry : FlowCacheEntry) (ts : Timestamp) (sessID : UInt64) : FlowCacheEntry where
  sessionID := sessID
  x := entry.x.clear
  y := entry.y.clear
  firstSeen := ts
  lastSeen := ⟨0, 0⟩

def side (entry : FlowCacheEntry) (isX : Bool) : FlowState := if isX then entry.x else entry.y

def setSide (entry : FlowCacheEntry) (isX : Bool) (st : FlowState) : FlowCacheEntry :=
  if isX then { entry with x := st } else { entry with y := st }

end FlowCacheEntry

def Timestamp.nanos (ts : Timestamp) : Nat := ts.seconds * 1000000000 + ts.nanoseconds

/-- `entry.secondsSince(ts) >= kTwoMinuteTimeout`. Near two minutes the difference is
exact in a `double`; a time before `lastSeen` gives a negative one. -/
def FlowCacheEntry.idle (entry : FlowCacheEntry) (ts : Timestamp) : Bool :=
  Timestamp.nanos entry.lastSeen + 120 * 1000000000 ≤ Timestamp.nanos ts

def tcpFin : BitVec 8 := 0x01#8
def tcpSyn : BitVec 8 := 0x02#8
def tcpRst : BitVec 8 := 0x04#8
def tcpAck : BitVec 8 := 0x10#8

/-- Some of the bits in `mask` are set in `flags`. -/
def anyFlag (flags mask : BitVec 8) : Bool := flags &&& mask != 0#8

/-- A `SYN` that is not a `SYN-ACK`. -/
def isSyn (flags : BitVec 8) : Bool := flags &&& (tcpSyn ||| tcpAck) == tcpSyn

structure FlowCache where
  cache_ : FlowCacheKey → FlowCacheEntry := fun _ => {}
  assignSessionID_ : UInt64 := 0

namespace FlowCache

/-- `assignSessionID` skips zero when the counter wraps. -/
def assignSessionID (flows : FlowCache) : UInt64 :=
  if flows.assignSessionID_ + 1 = 0 then flows.assignSessionID_ + 2
  else flows.assignSessionID_ + 1

def setEntry (flows : FlowCache) (key : FlowCacheKey) (entry : FlowCacheEntry) : FlowCache :=
  { flows with cache_ := Function.update flows.cache_ key entry }

def restart (flows : FlowCache) (key : FlowCacheKey) (ts : Timestamp) : FlowCache :=
  let sessID := flows.assignSessionID
  { (flows.setEntry key ((flows.cache_ key).reset ts sessID)) with assignSessionID_ := sessID }

/-- Whether a packet opens a new session, is ignored because the session is over, or
belongs to the session at hand. -/
inductive Admission
  | opened | late | current
  deriving DecidableEq

def admission (entry : FlowCacheEntry) (ts : Timestamp) (flags : BitVec 8) : Admission :=
  if entry.sessionID = 0 then .opened
  else if entry.finished then
    -- A late packet of a finished session opens a new one only after a pause.
    if anyFlag flags tcpSyn || entry.idle ts then .opened else .late
  else if isSyn flags && entry.idle ts then .opened
  else .current

def receiveSide (flows : FlowCache) (key : FlowCacheKey) (isX : Bool) (ts : Timestamp)
    (end_ : Seq) (data : Bytes) (final : Bool) : FlowCache × FlowData :=
  let entry := flows.cache_ key
  let r := (entry.side isX).receive ts end_ data entry.sessionID final entry.lastSeen
  (flows.setEntry key { (entry.setSide isX r.state) with lastSeen := r.lastSeen }, r.flow)

def receive (flows : FlowCache) (ts : Timestamp) (src dst : IPv6Endpoint) (seq : Seq)
    (data : Bytes) (flags : BitVec 8) : FlowCache × FlowData :=
  -- A SYN or SYN-ACK packet must not contain any data.
  if anyFlag flags tcpSyn && !data.isEmpty then (flows, FlowData.none 0)
  else
    let end_ := if anyFlag flags tcpSyn then seq + 1 else seq + narrow data.length
    if data.isEmpty && !anyFlag flags (tcpSyn ||| tcpFin ||| tcpRst) then
      (flows, FlowData.none 0)
    else
      let final := anyFlag flags (tcpFin ||| tcpRst)
      let (key, isX) := flowCacheKey src dst
      match admission (flows.cache_ key) ts flags with
      | .opened => (flows.restart key ts).receiveSide key isX ts end_ data final
      | .late => (flows, FlowData.none (flows.cache_ key).sessionID)
      | .current => flows.receiveSide key isX ts end_ data final

/-- `FlowData::consume` on data that `receive` returned for the same endpoints. -/
def consume (flows : FlowCache) (src dst : IPv6Endpoint) (flow : FlowData) (len : Nat) :
    FlowCache :=
  let (key, isX) := flowCacheKey src dst
  let entry := flows.cache_ key
  flows.setEntry key (entry.setSide isX ((entry.side isX).consume flow len))

/-- The flow of a direction; `lookup` returns a pointer to it. -/
def lookup (flows : FlowCache) (src dst : IPv6Endpoint) : FlowState :=
  (flows.cache_ (flowCacheKey src dst).1).side (flowCacheKey src dst).2

end FlowCache

end Libofp.Demux.TcpSessions
