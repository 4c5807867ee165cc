/- GID: Libofp/Normalize/Dispatch
   digest: Normalisation of a whole message by its version and type. -/

import Libofp.Normalize.MultipartReplies
import Libofp.Normalize.Queues

set_option autoImplicit false

namespace Libofp.Normalize.Dispatch

open Octets.ByteRange Octets.ByteList Octets.BigEndian
open Base.Iteration Oxm.Field Messages Messages.Header
open Ports Queues FlowMessages MultipartReplies

def messageType (buf : Bytes) : Nat := translateType (version buf) (Header.type buf) 4

/-- What `normalize` does to the header before it looks at the body. -/
def repairHeader (buf : Bytes) : Bytes :=
  let type := messageType buf
  let buf := if type = OFPT.unsupported then markInputInvalid buf else buf
  let buf := setType buf type
  if buf.length ≠ Header.length buf then setLength (markInputInvalid buf) buf.length else buf

section

variable (host : Host) (slack : Slack)

def normalizeV1 (type fuel : Nat) (buf : Bytes) : Outcome Bytes :=
  if type = OFPT.featuresReply then .done (normalizeFeaturesReplyV1 slack buf)
  else if type = OFPT.flowMod then normalizeFlowModV1 host slack fuel buf
  else if type = OFPT.portStatus then .done (normalizePortStatusV1 slack buf)
  else if type = OFPT.experimenter then .done (normalizeExperimenterV1 buf)
  else if type = OFPT.packetOut then normalizePacketOutV1 host slack fuel buf
  else if type = OFPT.portMod then .done (normalizePortModV1 slack buf)
  else if type = OFPT.flowRemoved then .done (normalizeFlowRemovedV1 slack buf)
  else if type = OFPT.multipartRequest then .done (normalizeMultipartRequestV1 slack buf)
  else if type = OFPT.multipartReply then normalizeMultipartReplyV1 host slack fuel buf
  else if type = OFPT.queueGetConfigReply then .done (normalizeQueueGetConfigReplyV1 buf)
  else .done buf

def normalizeV2 (type fuel : Nat) (buf : Bytes) : Outcome Bytes :=
  if type = OFPT.featuresReply then .done (normalizeFeaturesReplyV2 slack buf)
  else if type = OFPT.portStatus then .done (normalizePortStatusV2 slack buf)
  else if type = OFPT.portMod then .done (normalizePortModV2 buf)
  else if type = OFPT.multipartReply then normalizeMultipartReplyV2 host slack fuel buf
  else if type = OFPT.queueGetConfigReply then .done (normalizeQueueGetConfigReplyV1 buf)
  else .done buf

def normalizeV3 (type fuel : Nat) (buf : Bytes) : Outcome Bytes :=
  if type = OFPT.featuresReply then .done (normalizeFeaturesReplyV2 slack buf)
  else if type = OFPT.portStatus then .done (normalizePortStatusV2 slack buf)
  else if type = OFPT.portMod then .done (normalizePortModV2 buf)
  else if type = OFPT.multipartReply then normalizeMultipartReplyV3 host slack fuel buf
  else if type = OFPT.queueGetConfigReply then normalizeQueueGetConfigReplyV2 fuel buf
  else .done buf

def normalizeV4 (type fuel : Nat) (buf : Bytes) : Outcome Bytes :=
  if type = OFPT.featuresReply then .done (normalizeFeaturesReplyV2 slack buf)
  else if type = OFPT.portStatus then .done (normalizePortStatusV2 slack buf)
  else if type = OFPT.portMod then .done (normalizePortModV2 buf)
  else if type = OFPT.multipartReply then normalizeMultipartReplyV4 host slack fuel buf
  else if type = OFPT.setAsync ∨ type = OFPT.getAsyncReply then
    .done (normalizeAsyncConfigV4 slack buf)
  else if type = OFPT.queueGetConfigReply then normalizeQueueGetConfigReplyV2 fuel buf
  else .done buf

def normalizeV5 (type fuel : Nat) (buf : Bytes) : Outcome Bytes :=
  if type = OFPT.multipartReply then normalizeMultipartReplyV5 host slack fuel buf
  else .done buf

def normalizeBody (version type fuel : Nat) (buf : Bytes) : Outcome Bytes :=
  if version = 1 then normalizeV1 host slack type fuel buf
  else if version = 2 then normalizeV2 host slack type fuel buf
  else if version = 3 then normalizeV3 host slack type fuel buf
  else if version = 4 then normalizeV4 host slack type fuel buf
  else if version ≥ 5 then normalizeV5 host slack type fuel buf
  else .done buf

/-- The end of `normalize`: a message that has grown too big is cut off. -/
def finishHeader (buf : Bytes) : Bytes :=
  let buf := if buf.length > ofpMaxSize then (markInputTooBig buf).take ofpMaxSize else buf
  setLength buf buf.length

theorem finishHeader_of_fits {buf : Bytes} (fits : buf.length ≤ ofpMaxSize) :
    finishHeader buf = setLength buf buf.length := by
  simp only [finishHeader, if_neg (Nat.not_lt.mpr fits)]

theorem version_finishHeader {buf : Bytes} (long : 2 ≤ buf.length) :
    version (finishHeader buf) =
      if buf.length > ofpMaxSize then tooBigErrorFlag ||| version buf else version buf := by
  unfold finishHeader
  split
  · have cut : 2 ≤ ((markInputTooBig buf).take ofpMaxSize).length := by
      rw [List.length_take, markInputTooBig, length_setVersion (by omega), ofpMaxSize]
      omega
    rw [version_setLength cut, version, big8_take (by decide), ← version, version_markInputTooBig]
  · exact version_setLength long _

section

variable {buf : Bytes} (old : version buf = 1) (long : 2 ≤ buf.length)

include old long

theorem versionFlag_of_invalid :
    versionFlag (finishHeader (markInputInvalid buf)) = invalidErrorFlag := by
  have size : 2 ≤ (markInputInvalid buf).length := by
    rwa [length_markInputInvalid (by omega)]
  rw [versionFlag, version_finishHeader size, version_markInputInvalid, old]
  split <;> rfl

theorem versionFlag_of_tooBig :
    versionFlag (finishHeader (markInputTooBig buf)) = tooBigErrorFlag := by
  have size : 2 ≤ (markInputTooBig buf).length := by
    rwa [markInputTooBig, length_setVersion (by omega)]
  rw [versionFlag, version_finishHeader size, version_markInputTooBig, old]
  split <;> rfl

theorem fits_of_versionFlag (small : versionFlag (finishHeader buf) ≠ tooBigErrorFlag) :
    buf.length ≤ ofpMaxSize := by
  by_contra big
  apply small
  rw [versionFlag, version_finishHeader long, if_pos (by omega), old]
  rfl

end

theorem repairHeader_of_same {buf : Bytes} (same : messageType buf = Header.type buf)
    (known : Header.type buf ≠ OFPT.unsupported) (size : Header.length buf = buf.length)
    (long : 2 ≤ buf.length) : repairHeader buf = buf := by
  have byte : bigBytes 1 (Header.type buf) = window buf 1 1 := (window_one (by omega)).symm
  have kept : setType buf (Header.type buf) = buf := by
    rw [setType, byte, poke_window (by omega)]
  simp only [repairHeader, same, if_neg known, kept, size, ne_eq, not_true_eq_false, if_false]

theorem repairHeader_append {head : Bytes} (body : Bytes) (long : 4 ≤ head.length)
    (known : messageType (head ++ body) ≠ OFPT.unsupported) :
    ∃ head', repairHeader (head ++ body) = head' ++ body ∧ head'.length = head.length ∧
      head'.drop 4 = head.drop 4 ∧ Header.length head' = (head ++ body).length % 65536 ∧
      (Header.length (head ++ body) = (head ++ body).length → version head' = version head) := by
  obtain ⟨v, t, a, b, head, rfl⟩ : ∃ v t a b more, head = v :: t :: a :: b :: more := by
    rcases head with _ | ⟨v, _ | ⟨t, _ | ⟨a, _ | ⟨b, more⟩⟩⟩⟩
    iterate 4 simp at long
    exact ⟨v, t, a, b, more, rfl⟩
  simp only [repairHeader, List.cons_append] at known ⊢
  generalize messageType (v :: t :: a :: b :: (head ++ body)) = type at known ⊢
  have typed : setType (v :: t :: a :: b :: (head ++ body)) type =
      v :: UInt8.ofNat type :: a :: b :: (head ++ body) := by
    simp [setType, poke, replace, bigBytes]
  have counted : Header.length (v :: UInt8.ofNat type :: a :: b :: (head ++ body)) =
      Header.length (v :: t :: a :: b :: (head ++ body)) := rfl
  rw [if_neg known, typed, counted]
  generalize (v :: UInt8.ofNat type :: a :: b :: (head ++ body)).length = n
  split
  · -- A wrong size is marked and repaired.
    next wrong =>
    refine ⟨setLength (markInputInvalid (v :: UInt8.ofNat type :: a :: b :: head)) n,
      ?_, ?_, ?_, ?_, fun right => absurd right.symm wrong⟩
    · simp [setLength, markInputInvalid, setVersion, poke, replace, bigBytes, version, big8]
    · simp [setLength, markInputInvalid, setVersion, poke, replace, bigBytes, version, big8]
    · simp [setLength, markInputInvalid, setVersion, poke, replace, bigBytes, version, big8]
    · rw [headerLength_setLength (by simp [length_markInputInvalid])]
  · next right =>
    refine ⟨v :: UInt8.ofNat type :: a :: b :: head, rfl, rfl, rfl, ?_, fun _ => rfl⟩
    have stated : Header.length (v :: UInt8.ofNat type :: a :: b :: head) = n :=
      (Classical.not_not.mp right).symm
    rw [stated, Nat.mod_eq_of_lt (stated ▸ big16_lt ..)]

/-- `Normalize::normalize`. The fuel bounds the turns of each of its loops. -/
def normalize (fuel : Nat) (buf : Bytes) : Outcome Bytes :=
  (normalizeBody host slack (version buf) (messageType buf) fuel (repairHeader buf)).map
    finishHeader

def enteredBy (plan : ReplyPlan) (buf : Bytes) : Option (RecordKind × Walk) :=
  match plan with
  | .records kind => some (kind, ⟨buf, sizeofMultipart⟩)
  | _ => none

def laterReplyPlan (version : Nat) : MultipartType → ReplyPlan :=
  if version = 2 then replyPlanV2
  else if version = 3 then replyPlanV3
  else if version = 4 then replyPlanV4
  else replyPlanV5

/-- The loop over records that `normalize` enters. -/
def enteredLoop (buf : Bytes) : Option (RecordKind × Walk) :=
  let repaired := repairHeader buf
  if messageType buf ≠ OFPT.multipartReply ∨ version buf = 0 then none
  else if version buf = 1 then
    let widened := insertZeros repaired 12 4
    if Header.length repaired < 12 then none
    else enteredBy (replyPlanV1 (replyType widened)) widened
  else if Header.length repaired < sizeofMultipart then none
  else enteredBy (laterReplyPlan (version buf) (replyType repaired)) repaired

end

end Libofp.Normalize.Dispatch
