/- GID: Libofp/Multipart/Sending
   digest: Builders of multipart messages, the channel that they write to, and bodies that are
     sent in several messages. -/

import Libofp.Base.Iteration
import Libofp.Messages.Builders

set_option autoImplicit false

namespace Libofp.Multipart.Sending

open Octets.ByteRange Octets.BigEndian Base.Iteration Messages Messages.Builders

structure MemoryChannel where
  buf : Bytes
  nextXid : BitVec 32
  version : Nat
  deriving DecidableEq, Repr

/-- `MultipartReplyBuilder` and `MultipartRequestBuilder`: the fields of the message and the
body. -/
structure MultipartBuilder where
  version : Nat
  type : Nat
  length : Nat
  xid : BitVec 32
  multipartType : BitVec 16
  flags : BitVec 16
  body : Bytes
  deriving DecidableEq, Repr

/-- The message types of a kind of multipart message, in version 1 and later. -/
structure Kind where
  typeV1 : Nat
  type : Nat

/-- `v1::OFPT_STATS_REPLY` and `OFPT_MULTIPART_REPLY`. -/
def reply : Kind := ⟨17, Header.OFPT.multipartReply⟩

/-- `v1::OFPT_STATS_REQUEST` and `OFPT_MULTIPART_REQUEST`. -/
def request : Kind := ⟨16, Header.OFPT.multipartRequest⟩

/-- `OFPMPF_NONE` and `OFPMPF_MORE`. -/
def mpfNone : BitVec 16 := 0
def mpfMore : BitVec 16 := 1

def headSize (version : Nat) : Nat := if version = 1 then 12 else 16

/-- `MAX_BODY_SIZE`. -/
def maxBodySize : Nat := Header.ofpMaxSize - 16

/-- The memory of `msg_`. -/
def MultipartBuilder.msg (b : MultipartBuilder) : Bytes :=
  headerBytes b.version b.type b.length b.xid.toNat ++ bigBytes 2 b.multipartType.toNat ++
    bigBytes 2 b.flags.toNat ++ List.replicate 4 0

/-- `send`: the builder after the call and the channel. -/
def send (kind : Kind) (b : MultipartBuilder) (channel : MemoryChannel) :
    MultipartBuilder × MemoryChannel :=
  let version := channel.version
  let b := { b with
    version
    type := if version = 1 then kind.typeV1 else kind.type
    length := b.body.length + headSize version
    xid := channel.nextXid }
  (b, { channel with
    buf := channel.buf ++ b.msg.take (headSize version) ++ b.body
    nextXid := channel.nextXid + 1 })

section

variable (chunkSize offset : Nat)

/-- `while (len > 0)` in `ProtocolRangeSplitOffset`. A turn consumes bytes, so as many turns as
bytes are enough. -/
def splitLoop : Nat → Nat → Bytes → Nat
  | 0, result, _ => result
  | turns + 1, result, range =>
    if range.isEmpty then result
    else
      let jumpSize := padLength (max (offset + 2) (big16 range offset))
      if jumpSize > range.length then result
      else if result + jumpSize > chunkSize then result
      else splitLoop turns (result + jumpSize) (range.drop jumpSize)

/-- `ProtocolRangeSplitOffset`; `none` is the fatal error. -/
def protocolRangeSplitOffset (range : Bytes) : Option Nat :=
  if range.length ≤ chunkSize then some range.length
  else
    let result := splitLoop chunkSize offset range.length 0 range
    if result ≠ 0 then some result else none

end

/-- The loop that sends chunks: what is left of the body, the builder and the channel. -/
structure Progress where
  body : Bytes
  builder : MultipartBuilder
  channel : MemoryChannel
  deriving DecidableEq, Repr

def Progress.more (s : Progress) : Bool := decide (s.body.length > maxBodySize)

/-- One chunk is sent; the next message gets the same transaction number. -/
def sendChunk (kind : Kind) (offset : Nat) (s : Progress) : Outcome Progress :=
  match protocolRangeSplitOffset maxBodySize offset s.body with
  | none => .fault
  | some chunkSize =>
    let (builder, channel) :=
      send kind { s.builder with flags := mpfMore, body := s.body.take chunkSize } s.channel
    .done ⟨safeByteRange s.body chunkSize, builder, { channel with nextXid := builder.xid }⟩

def sendUsingBody (kind : Kind) (fuel offset : Nat) (body : Bytes) (builder : MultipartBuilder)
    (channel : MemoryChannel) : Outcome (MultipartBuilder × MemoryChannel) :=
  (whileLoop Progress.more (sendChunk kind offset) fuel ⟨body, builder, channel⟩).map fun s =>
    ({ s.builder with flags := mpfNone, body := s.body }, s.channel)

def sendUsingReplyBody := sendUsingBody reply

def sendUsingRequestBody := sendUsingBody request

end Libofp.Multipart.Sending
