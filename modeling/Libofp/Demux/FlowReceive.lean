/- GID: Libofp/Demux/FlowReceive
   digest: One direction of a TCP connection, its receive step and the consumption of its data. -/

import Libofp.Demux.SegmentCache

set_option autoImplicit false

namespace Libofp.Demux.FlowReceive

open Octets.ByteRange SegmentCache
open SegmentCache.Segment (lessThan)

structure Timestamp where
  seconds : Nat
  nanoseconds : Nat
  deriving DecidableEq

/-- The data handed to the caller. `attached` says that the state pointer is not
null, `cached` that the bytes are those of the first cached segment. -/
structure FlowData where
  attached : Bool
  data_ : Bytes
  sessionID_ : UInt64
  cached : Bool
  final_ : Bool
  deriving DecidableEq

/-- `FlowData{sessionID}`: no data and no state to consume from. -/
def FlowData.none (sessionID : UInt64) : FlowData := ⟨false, [], sessionID, false, false⟩

structure FlowState where
  end_ : Seq := 0
  started_ : Bool := false
  finished_ : Bool := false
  cache_ : List Segment := []
  deriving DecidableEq

namespace FlowState

def finished (st : FlowState) : Bool := st.finished_ && st.cache_.isEmpty

/-- The first cached segment is the next data exactly when it begins at `end_`. -/
def latestData (st : FlowState) (sessionID : UInt64) : FlowData :=
  match st.cache_ with
  | [] => FlowData.none sessionID
  | seg :: _ =>
      if seg.begin = st.end_ then ⟨true, seg.data_, sessionID, true, seg.final_⟩
      else FlowData.none sessionID

/-- What one call of `receive` leaves behind: the state, the returned data and the
time that the caller's `lastSeen` holds afterwards. -/
structure Received where
  state : FlowState
  flow : FlowData
  lastSeen : Timestamp

/-- The state after the first lines of `receive`: the first segment fixes `end_`. -/
def start (st : FlowState) (begin : Seq) : FlowState :=
  if st.started_ then st else { st with end_ := begin, started_ := true }

def cacheSegment (st : FlowState) (end_ : Seq) (data : Bytes) (final : Bool) : FlowState :=
  let begin := end_ - narrow data.length
  let newData :=
    if lessThan begin st.end_ then safeByteRange data (st.end_ - begin).toNat else data
  { st with
    cache_ := store st.cache_ end_ newData final
    finished_ := st.finished_ || final }

def receive (st : FlowState) (ts : Timestamp) (end_ : Seq) (data : Bytes)
    (sessionID : UInt64) (final : Bool) (lastSeen : Timestamp) : Received :=
  let begin := end_ - narrow data.length
  let st := st.start begin
  if st.cache_.isEmpty && st.finished_ then
    -- Drop packets that arrive after the flow is officially finished.
    ⟨st, FlowData.none sessionID, lastSeen⟩
  else if st.cache_.isEmpty && begin == st.end_ then
    -- There is no data cached and this is the next data segment.
    ⟨{ st with finished_ := st.finished_ || final }, ⟨true, data, sessionID, false, final⟩, ts⟩
  else if !lessThan st.end_ end_ then
    ⟨st, FlowData.none sessionID, lastSeen⟩
  else
    let st := st.cacheSegment end_ data final
    ⟨st, st.latestData sessionID, ts⟩

/-- `FlowData::consume`: an uncached remainder goes into the cache, without the
final flag. -/
def consume (st : FlowState) (flow : FlowData) (len : Nat) : FlowState :=
  if !flow.attached then st
  else
    let end_ := st.end_ + narrow len
    if flow.cached then { st with end_ := end_, cache_ := SegmentCache.consume len st.cache_ }
    else if len < flow.data_.length then
      let left := flow.data_.drop len
      { st with
        end_ := end_
        cache_ := store st.cache_ (end_ + narrow left.length) left false }
    else { st with end_ := end_ }

def clear (_ : FlowState) : FlowState := {}

end FlowState

end Libofp.Demux.FlowReceive
