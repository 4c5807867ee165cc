/- GID: Libofp/Multipart/Splitting
   digest: Bodies of multipart messages are split between their elements. -/

import Libofp.Multipart.Sending
import Libofp.Wire.PaddedElements

set_option autoImplicit false

namespace Libofp.Multipart.Splitting

open Octets.ByteRange Octets.BigEndian Base.Iteration Wire.PaddedElements Messages.Builders
open Sending

section

variable {chunkSize offset : Nat} {es : List Bytes}

private theorem splitLoop_flatten (spans : ∀ e ∈ es, Spans offset e) {turns result : Nat}
    (enough : es.flatten.length ≤ turns) (within : result ≤ chunkSize) :
    ∃ front back, es = front ++ back ∧ result + front.flatten.length ≤ chunkSize ∧
      splitLoop chunkSize offset turns result es.flatten = result + front.flatten.length ∧
        ∀ e rest, back = e :: rest → chunkSize < result + front.flatten.length + e.length := by
  induction es generalizing turns result with
  | nil =>
    refine ⟨[], [], rfl, within, ?_, nofun⟩
    cases turns <;> simp [splitLoop]
  | cons e es ih =>
    rw [List.forall_mem_cons] at spans
    have header := spans.1.header
    rw [List.flatten_cons, List.length_append] at enough
    cases turns with
    | zero => omega
    | succ turns =>
      have jump : padLength (max (offset + 2) (big16 (e ++ es.flatten) offset)) = e.length := by
        rw [big16_append _ header, Nat.add_comm offset 2]
        exact spans.1.symm
      have nonempty : (e ++ es.flatten).isEmpty = false := by
        simp [spans.1.ne_nil]
      have inside : ¬ e.length > (e ++ es.flatten).length := by
        rw [List.length_append]
        omega
      have step : splitLoop chunkSize offset (turns + 1) result (e ++ es.flatten) =
          if result + e.length > chunkSize then result
          else splitLoop chunkSize offset turns (result + e.length) es.flatten := by
        simp [splitLoop, nonempty, jump]
      rw [List.flatten_cons, step]
      by_cases exceeds : result + e.length > chunkSize
      · refine ⟨[], e :: es, rfl, within, by rw [if_pos exceeds]; rfl, ?_⟩
        rintro e' rest same
        cases same
        exact exceeds
      · obtain ⟨front, back, rfl, fits, found, next⟩ := ih spans.2
          (show es.flatten.length ≤ turns by omega) (Nat.le_of_not_lt exceeds)
        rw [if_neg exceeds, found]
        refine ⟨e :: front, back, rfl, ?_, ?_, fun e' rest same => ?_⟩
        · rw [List.flatten_cons, List.length_append]
          omega
        · rw [List.flatten_cons, List.length_append]
          omega
        · have bound := next e' rest same
          rw [List.flatten_cons, List.length_append]
          omega

private theorem splitOffset_flatten (spans : ∀ e ∈ es, Spans offset e)
    (small : ∀ e ∈ es, e.length ≤ chunkSize) (long : chunkSize < es.flatten.length) :
    ∃ front back, es = front ++ back ∧ front ≠ [] ∧ front.flatten.length ≤ chunkSize ∧
      protocolRangeSplitOffset chunkSize offset es.flatten = some front.flatten.length := by
  obtain ⟨front, back, rfl, fits, found, next⟩ :=
    splitLoop_flatten spans (Nat.le_refl _) (Nat.zero_le chunkSize)
  rw [Nat.zero_add] at fits found
  have some : front ≠ [] := by
    rintro rfl
    cases back with
    | nil => simp at long
    | cons e rest =>
      have bound := next e rest rfl
      have least := small e (by simp)
      simp only [List.flatten_nil, List.length_nil] at bound
      omega
  have positive : front.flatten.length ≠ 0 := by
    obtain ⟨e, rest, rfl⟩ := List.exists_cons_of_ne_nil some
    have header := (spans e (by simp)).header
    rw [List.flatten_cons, List.length_append]
    omega
  refine ⟨front, back, rfl, some, fits, ?_⟩
  rw [protocolRangeSplitOffset, if_neg (Nat.not_le.mpr long)]
  simp only [found]
  rw [if_pos positive]

end

section

variable {kind : Kind} {offset : Nat} {b : MultipartBuilder} {channel : MemoryChannel}

def message (kind : Kind) (version : Nat) (xid : BitVec 32) (multipartType flags : BitVec 16)
    (body : Bytes) : Bytes :=
  headerBytes version (if version = 1 then kind.typeV1 else kind.type)
      (headSize version + body.length) xid.toNat ++
    bigBytes 2 multipartType.toNat ++ bigBytes 2 flags.toNat ++
      (if version = 1 then [] else List.replicate 4 0) ++ body

theorem send_eq (kind : Kind) (b : MultipartBuilder) (channel : MemoryChannel) :
    (send kind b channel).2 = ⟨channel.buf ++ message kind channel.version channel.nextXid
      b.multipartType b.flags b.body, channel.nextXid + 1, channel.version⟩ := by
  by_cases first : channel.version = 1
  all_goals simp [send, message, MultipartBuilder.msg, headSize, first, headerBytes, bigBytes,
    Nat.add_comm]

def announced (kind : Kind) (channel : MemoryChannel) (multipartType : BitVec 16) (body : Bytes) :
    MemoryChannel :=
  ⟨channel.buf ++ message kind channel.version channel.nextXid multipartType mpfMore body,
    channel.nextXid, channel.version⟩

private theorem sendChunk_eq (kind : Kind) {body : Bytes} {size : Nat}
    (found : protocolRangeSplitOffset maxBodySize offset body = some size)
    (b : MultipartBuilder) (channel : MemoryChannel) :
    ∃ b', b'.multipartType = b.multipartType ∧
      sendChunk kind offset ⟨body, b, channel⟩ = .done ⟨body.drop size, b',
        announced kind channel b.multipartType (body.take size)⟩ := by
  let loaded : MultipartBuilder := { b with flags := mpfMore, body := body.take size }
  refine ⟨(send kind loaded channel).1, rfl, ?_⟩
  have sent := send_eq kind loaded channel
  simp only [sendChunk, found, safeByteRange_eq_drop]
  rw [sent]
  rfl

def chunkMessages (kind : Kind) (channel : MemoryChannel) (multipartType : BitVec 16)
    (chunks : List (List Bytes)) : Bytes :=
  (chunks.map fun chunk => message kind channel.version channel.nextXid multipartType mpfMore
    chunk.flatten).flatten

private theorem visits_chunks {es : List Bytes} (spans : ∀ e ∈ es, Spans offset e)
    (small : ∀ e ∈ es, e.length ≤ maxBodySize) (b : MultipartBuilder) (channel : MemoryChannel) :
    ∃ chunks last b', (chunks ++ [last]).flatten = es ∧
      (∀ chunk ∈ chunks ++ [last], chunk.flatten.length ≤ maxBodySize) ∧
      b'.multipartType = b.multipartType ∧
      Visits Progress.more (fun _ => sendChunk kind offset) ⟨es.flatten, b, channel⟩
        ⟨last.flatten, b', { channel with
          buf := channel.buf ++ chunkMessages kind channel b.multipartType chunks }⟩ := by
  induction size : es.length using Nat.strongRecOn generalizing es b channel with
  | ind n ih =>
    subst size
    by_cases long : maxBodySize < es.flatten.length
    · obtain ⟨front, back, rfl, some, fits, found⟩ := splitOffset_flatten spans small long
      have shorter : back.length < (front ++ back).length := by
        rw [List.length_append]
        have positive := List.length_pos_of_ne_nil some
        omega
      obtain ⟨b₁, same₁, step⟩ := sendChunk_eq kind found b channel
      obtain ⟨chunks, last, b', whole, within, same, visited⟩ := ih back.length shorter
        (fun e member => spans e (List.mem_append_right _ member))
        (fun e member => small e (List.mem_append_right _ member)) b₁
        (announced kind channel b.multipartType front.flatten) rfl
      refine ⟨front :: chunks, last, b', ?_, ?_, same.trans same₁, ?_⟩
      · rw [List.cons_append, List.flatten_cons, whole]
      · rw [List.cons_append, List.forall_mem_cons]
        exact ⟨fits, within⟩
      · have turn : Turn Progress.more (fun _ => sendChunk kind offset)
            ⟨(front ++ back).flatten, b, channel⟩
            ⟨back.flatten, b₁, announced kind channel b.multipartType front.flatten⟩ := by
          rw [List.flatten_append, List.drop_left, List.take_left] at step
          rw [List.flatten_append] at long ⊢
          refine ⟨decide_eq_true long, ?_⟩
          simp only [step]
          exact settles_const (by simp)
        have buffer : (announced kind channel b.multipartType front.flatten).buf ++
            chunkMessages kind (announced kind channel b.multipartType front.flatten)
              b.multipartType chunks =
            channel.buf ++ chunkMessages kind channel b.multipartType (front :: chunks) := by
          simp [announced, chunkMessages]
        rw [same₁, buffer] at visited
        exact visited.head turn
    · refine ⟨[], es, b, by simp, by simpa using long, rfl, ?_⟩
      rw [chunkMessages, List.map_nil, List.flatten_nil, List.append_nil]
      exact .refl

end

section

variable {offset : Nat} {es : List Bytes}

/-- The channel holds the elements in messages with at most `MAX_BODY_SIZE` bytes of body, with
whole elements in each, with the same transaction number, and all but the last of them
announce more. -/
def SplitInto (kind : Kind) (es : List Bytes) (multipartType : BitVec 16)
    (channel channel' : MemoryChannel) : Prop :=
  ∃ chunks last, (chunks ++ [last]).flatten = es ∧
    (∀ chunk ∈ chunks ++ [last], chunk.flatten.length ≤ maxBodySize) ∧
    channel'.buf = channel.buf ++
      ((chunks.map fun chunk => message kind channel.version channel.nextXid multipartType
          mpfMore chunk.flatten).flatten ++
        message kind channel.version channel.nextXid multipartType mpfNone last.flatten)

theorem sendUsingBody_splits (kind : Kind) (spans : ∀ e ∈ es, Spans offset e)
    (small : ∀ e ∈ es, e.length ≤ maxBodySize) (b : MultipartBuilder) (channel : MemoryChannel) :
    ∃ b' channel', Settles (fun fuel => sendUsingBody kind fuel offset es.flatten b channel)
      (.done (b', channel')) ∧
        SplitInto kind es b.multipartType channel (send kind b' channel').2 := by
  obtain ⟨chunks, last, b', whole, within, same, visited⟩ := visits_chunks spans small b channel
  have stop : ¬ last.flatten.length > maxBodySize := Nat.not_lt.mpr (within last (by simp))
  have settled := settles_whileLoop_of_visits visited (decide_eq_false stop)
  refine ⟨_, _, settled.map _, chunks, last, whole, within, ?_⟩
  rw [send_eq, same, List.append_assoc]
  rfl

/-- Large bodies are split losslessly, in replies and in requests, and no split fails. -/
theorem sendUsingReplyBody_splits (es : List Bytes) (offset : Nat)
    (spans : ∀ e ∈ es, Spans offset e) (small : ∀ e ∈ es, e.length ≤ maxBodySize)
    (b : MultipartBuilder) (channel : MemoryChannel) :
    (∃ b' channel', Settles (fun fuel => sendUsingReplyBody fuel offset es.flatten b channel)
      (.done (b', channel')) ∧
        SplitInto reply es b.multipartType channel (send reply b' channel').2) ∧
    ∃ b' channel', Settles (fun fuel => sendUsingRequestBody fuel offset es.flatten b channel)
      (.done (b', channel')) ∧
        SplitInto request es b.multipartType channel (send request b' channel').2 :=
  ⟨sendUsingBody_splits reply spans small b channel,
    sendUsingBody_splits request spans small b channel⟩

def element24 : Bytes := [0, 1, 0, 20] ++ List.replicate 20 7

def emptyReply : MultipartBuilder := ⟨4, 19, 0, 0, 1, mpfNone, []⟩

theorem sendUsingReplyBody_splits_element24 :
    let es := List.replicate 9000 element24
    let channel : MemoryChannel := ⟨[], 1, 4⟩
    (∀ e ∈ es, Spans 2 e) ∧ (∀ e ∈ es, e.length ≤ maxBodySize) ∧
      ((∃ b' channel', Settles (fun fuel =>
          sendUsingReplyBody fuel 2 es.flatten emptyReply channel) (.done (b', channel')) ∧
        SplitInto reply es 1 channel (send reply b' channel').2) ∧
      ∃ b' channel', Settles (fun fuel =>
          sendUsingRequestBody fuel 2 es.flatten emptyReply channel) (.done (b', channel')) ∧
        SplitInto request es 1 channel (send request b' channel').2) := by
  intro es channel
  have spans : ∀ e ∈ es, Spans 2 e := fun e member => by
    rw [List.eq_of_mem_replicate member]
    unfold Spans
    decide
  have small : ∀ e ∈ es, e.length ≤ maxBodySize := fun e member => by
    rw [List.eq_of_mem_replicate member]
    decide
  exact ⟨spans, small, sendUsingReplyBody_splits es 2 spans small emptyReply channel⟩

end

end Libofp.Multipart.Splitting
