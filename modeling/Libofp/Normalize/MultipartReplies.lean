/- GID: Libofp/Normalize/MultipartReplies
   digest: The loops over the records of a multipart reply and what one turn of each does. -/

import Libofp.Normalize.FlowMessages

set_option autoImplicit false

namespace Libofp.Normalize.MultipartReplies

open Octets.ByteRange Octets.ByteList Octets.BigEndian
open Base.Iteration Oxm.Field Messages Messages.Header
open ActionRewrite Ports FlowMessages

/-- `buf_` and the offset of the record that comes next. -/
structure Walk where
  buf : Bytes
  start : Nat
  deriving DecidableEq, Repr

/-- `buf_.size() - offset`. -/
def Walk.remaining (w : Walk) : Nat := w.buf.length - w.start

/-- `offset < buf_.size()`. -/
def Walk.more (w : Walk) : Bool := decide (w.start < w.buf.length)

/-- `*start = buf_.size()`: the rest of the message is left alone. -/
def Walk.stop (w : Walk) : Walk := { w with start := w.buf.length }

/-- `markInputInvalid` and `*start = buf_.size()`. -/
def Walk.reject (w : Walk) : Walk := { buf := markInputInvalid w.buf, start := w.buf.length }

section

variable (host : Host) (slack : Slack)

/-- The length field of the flow statistics entry that comes next. The field is read
before anything is checked. -/
def flowLength (w : Walk) : Nat := big16 (fetch slack w.buf w.start 2) 0

def flowMatch (w : Walk) : Match.Standard.StandardMatch := standardMatchAt w.buf (w.start + 4)

def openFlowEntry (w : Walk) (needed : Nat) : Bytes :=
  let buf := poke w.buf (w.start + 4) (window w.buf (w.start + 44) 44)
  poke (insertUninitialized slack buf (w.start + 48) needed) (w.start + 48)
    (flowMatch w).toBytes

/-- The accesses that the code makes before the loop over the actions: the length, the
match, the fields behind it that move up, and the room for the standard match. -/
def openAccesses (w : Walk) (needed : Nat) : List Access :=
  [⟨w.start + 48, 88, w.buf.length + needed⟩, ⟨w.start + 4, 44, w.buf.length⟩,
    ⟨w.start + 44, 44, w.buf.length⟩, ⟨w.start + 4, 40, w.buf.length⟩,
    ⟨w.start, 2, w.buf.length⟩]

def actionStart (w : Walk) : Cursor where
  buf := openFlowEntry slack w 56
  iter := w.start + 144
  iterEnd := w.start + 144 + (flowLength slack w - 88 : Nat)
  accesses := openAccesses w 56

/-- The accesses behind the loop, in a buffer of the given size: the instruction header
and the length of the entry. An entry without actions is opened and closed at once. -/
def closeAccesses (w : Walk) (size : Nat) : List Access :=
  ⟨w.start, 2, size⟩ ::
    if 88 < flowLength slack w then [⟨w.start + 136, 8, size⟩] else openAccesses w 48

/-- `Unsigned_cast` of a 64-bit difference. -/
def unsignedCast (n : Int) : Nat := if n < 0 then (n + 2 ^ 64).toNat else n.toNat

theorem unsignedCast_natCast (n : Nat) : unsignedCast n = n := by
  rw [unsignedCast, if_neg (by omega), Int.toNat_natCast]

/-- The fields that are filled in behind the action loop: the instruction header and the
length of the entry. -/
def closeFlowEntry (w : Walk) (c : Cursor) : Walk :=
  let length : Int := flowLength slack w
  let buf := poke c.buf (w.start + 136) (applyActionsHeader (length - 88 + 8 + c.lengthChange))
  { buf := poke buf w.start (narrow16 (length + 56 + c.lengthChange))
    start := unsignedCast (w.start + length + 56 + c.lengthChange) }

/-- An entry that is not rejected: it ends inside the message, it is long enough and its
actions fill whole units of 8 bytes. -/
def FlowAccepted (w : Walk) : Prop :=
  w.start + flowLength slack w ≤ w.buf.length ∧ 88 ≤ flowLength slack w ∧
    (flowLength slack w - 88) % 8 = 0

instance (w : Walk) : Decidable (FlowAccepted slack w) := instDecidableAnd

def normalizeMPFlowReplyV1 (fuel : Nat) (w : Walk) : Outcome Walk :=
  let length := flowLength slack w
  if w.start + length > w.buf.length then .done w.reject
  else if length < 88 then .done w.reject
  else if (length - 88) % 8 ≠ 0 then
    -- The fields above the actions have already moved up.
    .done (Walk.reject { w with
      buf := poke w.buf (w.start + 4) (window w.buf (w.start + 44) 44) })
  else if length - 88 > 0 then
    (normActionsV1orV2 host slack fuel (flowMatch w).nwProto.toNat (actionStart slack w)).map
      (closeFlowEntry slack w)
  else
    .done { buf := poke (openFlowEntry slack w 48) w.start (narrow16 (length + 48))
            start := w.start + length + 48 }

def normalizeMPTableStatsReplyV4 (w : Walk) : Walk :=
  if w.remaining < 24 then w.reject
  else { buf := insertZeros w.buf (w.start + 4) 40, start := w.start + 64 }

def normalizeMPPortOrQueueStatsReplyV1 (len : Nat) (w : Walk) : Walk :=
  if w.remaining < len then w.stop
  else
    let buf := poke w.buf w.start (bigBytes 4 (normPortNumberV1 (big16 w.buf w.start)))
    { buf := insertZeros buf (w.start + len) 8, start := w.start + (len + 8) }

def normalizeMPPortOrQueueStatsReplyV3 (len : Nat) (w : Walk) : Walk :=
  if w.remaining < len then w.stop
  else { buf := insertZeros w.buf (w.start + len) 8, start := w.start + (len + 8) }

def statLen (w : Walk) : Nat := big16 w.buf w.start

def normalizeMPGroupStatsReplyV3 (len : Nat) (w : Walk) : Walk :=
  if w.remaining < len then w.stop
  else if w.remaining < statLen w then w.stop
  else
    let buf := poke w.buf w.start (bigBytes 2 (statLen w + 8))
    { buf := insertZeros buf (w.start + len) 8, start := w.start + (statLen w + 8) }

/-- `Normalize::normalizeMPPortStatsReplyV4`: the duration moves behind the port number
and the last counters become an Ethernet property. -/
def normalizeMPPortStatsReplyV4 (w : Walk) : Walk :=
  if w.remaining < 112 then w.stop
  else
    let ptr := w.start
    let buf := insertUninitialized slack w.buf (ptr + 112) 8
    let buf := poke buf ptr (window buf (ptr + 4) 4 ++ window buf ptr 4)
    -- `PortStatsPropertyEthernet`: type 0, length 40, padding and four counters.
    let eth := bigBytes 2 0 ++ bigBytes 2 40 ++ List.replicate 4 0 ++ window buf (ptr + 72) 32
    let buf := poke buf (ptr + 16) (window buf (ptr + 8) 64)
    let buf := poke buf (ptr + 8) (window buf (ptr + 104) 8)
    let buf := poke buf (ptr + 80) eth
    { buf := poke buf ptr (bigBytes 2 120), start := w.start + 120 }

def normalizeMPPortStatsReplyV1 (w : Walk) : Walk :=
  if w.remaining < 104 then w.stop
  else
    let buf := poke w.buf w.start (bigBytes 4 (normPortNumberV1 (big16 w.buf w.start)))
    normalizeMPPortStatsReplyV4 slack { w with buf := insertZeros buf (w.start + 104) 8 }

def normalizeMPPortStatsReplyV2 (w : Walk) : Walk :=
  if w.remaining < 104 then w.stop
  else normalizeMPPortStatsReplyV4 slack { w with buf := insertZeros w.buf (w.start + 104) 8 }

inductive RecordKind where
  | flowV1
  | portStatsV1
  | queueStatsV1
  | portStatsV2
  | queueStatsV3
  | groupStatsV3
  | portStatsV4
  | tableStatsV4
  deriving DecidableEq, Repr

def turn (kind : RecordKind) (fuel : Nat) (w : Walk) : Outcome Walk :=
  match kind with
  | .flowV1 => normalizeMPFlowReplyV1 host slack fuel w
  | .portStatsV1 => .done (normalizeMPPortStatsReplyV1 slack w)
  | .queueStatsV1 => .done (normalizeMPPortOrQueueStatsReplyV1 32 w)
  | .portStatsV2 => .done (normalizeMPPortStatsReplyV2 slack w)
  | .queueStatsV3 => .done (normalizeMPPortOrQueueStatsReplyV3 32 w)
  | .groupStatsV3 => .done (normalizeMPGroupStatsReplyV3 32 w)
  | .portStatsV4 => .done (normalizeMPPortStatsReplyV4 slack w)
  | .tableStatsV4 => .done (normalizeMPTableStatsReplyV4 w)

/-- `while (offset < buf_.size()) step(&offset)`. -/
def records (kind : RecordKind) (fuel : Nat) (w : Walk) : Outcome Walk :=
  whileLoop Walk.more (turn host slack kind fuel) fuel w

inductive ReplyPlan where
  | records (kind : RecordKind)
  | portDescV1
  | portDescV4
  | leave
  deriving DecidableEq, Repr

/-- The multipart types of `OFPMultipartType` that are told apart. -/
inductive MultipartType where
  | flowDesc
  | tableStats
  | portStats
  | queueStats
  | groupStats
  | portDesc
  | other
  deriving DecidableEq, Repr

def multipartType (code : Nat) : MultipartType :=
  match code with
  | 1 => .flowDesc
  | 3 => .tableStats
  | 4 => .portStats
  | 5 => .queueStats
  | 6 => .groupStats
  | 13 => .portDesc
  | _ => .other

def replyPlanV1 : MultipartType → ReplyPlan
  | .flowDesc => .records .flowV1
  | .portStats => .records .portStatsV1
  | .queueStats => .records .queueStatsV1
  | .portDesc => .portDescV1
  | _ => .leave

def replyPlanV2 : MultipartType → ReplyPlan
  | .portStats => .records .portStatsV2
  | .portDesc => .portDescV4
  | _ => .leave

def replyPlanV3 : MultipartType → ReplyPlan
  | .portStats => .records .portStatsV2
  | .queueStats => .records .queueStatsV3
  | .groupStats => .records .groupStatsV3
  | .portDesc => .portDescV4
  | _ => .leave

def replyPlanV4 : MultipartType → ReplyPlan
  | .portStats => .records .portStatsV4
  | .portDesc => .portDescV4
  | .tableStats => .records .tableStatsV4
  | _ => .leave

def replyPlanV5 : MultipartType → ReplyPlan
  | .tableStats => .records .tableStatsV4
  | _ => .leave

def replyType (buf : Bytes) : MultipartType := multipartType (big16 buf 8)

def followPlan (plan : ReplyPlan) (fuel : Nat) (buf : Bytes) : Outcome Bytes :=
  match plan with
  | .records kind => (records host slack kind fuel ⟨buf, sizeofMultipart⟩).map Walk.buf
  | .portDescV1 => .done (normalizeMPPortDescReplyV1 slack buf)
  | .portDescV4 => .done (normalizeMPPortDescReplyV4 slack buf)
  | .leave => .done buf

/-- `Normalize::normalizeMultipartReplyV1`: the header has four bytes of padding less. -/
def normalizeMultipartReplyV1 (fuel : Nat) (buf : Bytes) : Outcome Bytes :=
  if Header.length buf < 12 then .done (markInputInvalid buf)
  else
    let buf := insertZeros buf 12 4
    followPlan host slack (replyPlanV1 (replyType buf)) fuel buf

def normalizeMultipartReply (plan : MultipartType → ReplyPlan) (fuel : Nat) (buf : Bytes) :
    Outcome Bytes :=
  if Header.length buf < sizeofMultipart then .done (markInputInvalid buf)
  else followPlan host slack (plan (replyType buf)) fuel buf

def normalizeMultipartReplyV2 := normalizeMultipartReply host slack replyPlanV2

def normalizeMultipartReplyV3 := normalizeMultipartReply host slack replyPlanV3

def normalizeMultipartReplyV4 := normalizeMultipartReply host slack replyPlanV4

def normalizeMultipartReplyV5 := normalizeMultipartReply host slack replyPlanV5

end

end Libofp.Normalize.MultipartReplies
