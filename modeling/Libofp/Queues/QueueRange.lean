/- GID: Libofp/Queues/QueueRange
   digest: Queues with their properties in memory, what is written of them to a channel, and the
     validation and iteration of a range of queues. -/

import Libofp.Messages.Builders
import Libofp.Wire.PaddedElements

set_option autoImplicit false

namespace Libofp.Queues.QueueRange

open Octets.ByteRange Octets.ByteList Octets.BigEndian
open Wire.ProtocolRange Wire.PaddedElements Messages
open Messages.Builders (headerBytes)

/-- `PropertyIteratorItem`: the type, the length at offset 2, and the value. -/
def propertyLayout : ElementLayout := padded 4 2

/-- `Queue`: the queue number, the port, the length at offset 8, and the properties. -/
def queueLayout : ElementLayout := padded 16 8

structure Property where
  bytes : Bytes
  sized : big16 bytes 2 = bytes.length
  least : 8 ≤ bytes.length
  deriving DecidableEq, Repr

/-- What a `QueueBuilder` is given. -/
structure Queue where
  queueId : BitVec 32
  port : BitVec 32
  properties : List Property
  deriving DecidableEq, Repr

def Property.type (p : Property) : Nat := big16 p.bytes 0

/-- What `PropertyList::add` adds. -/
def Property.padded (p : Property) : Bytes :=
  p.bytes ++ List.replicate (padLength p.bytes.length - p.bytes.length) 0

def propertyList (properties : List Property) : Bytes := (properties.map Property.padded).flatten

/-- The memory of a `Queue` with a given length. -/
def queueHeader (q : Queue) (len : Nat) : Bytes :=
  bigBytes 4 q.queueId.toNat ++ bigBytes 4 q.port.toNat ++ bigBytes 2 len ++ List.replicate 6 0

/-- What `QueueList::add` adds. -/
def Queue.bytes (q : Queue) : Bytes :=
  queueHeader q (16 + (propertyList q.properties).length) ++ propertyList q.properties

def queueList (queues : List Queue) : Bytes := (queues.map Queue.bytes).flatten

/-- `PropertyIteratorItem::size`. -/
def propertySize (property : Bytes) : Nat := big16 property 2

/-- `Queue::properties`. -/
def queueProperties (queue : Bytes) : Bytes :=
  safeByteRange (queue.take (padLength (big16 queue 8))) 16

/-- `OFPQT_EXPERIMENTER`. -/
def qtExperimenter : Nat := 0xffff

/-- `QueuePropertyValidator::validateInput`. -/
def validateQueueProperties (properties : Bytes) : Bool :=
  (propertyLayout.items properties).all fun property =>
    if big16 property 0 = qtExperimenter then decide (propertySize property ≥ 16) else true

/-- `Queue::validateInput` at an address. -/
def validateQueue (address : Nat) (queue : Bytes) : Bool :=
  if big16 queue 8 < 16 then false
  else propertyLayout.isProtocolRangeValid (address + 16) (queueProperties queue) &&
    validateQueueProperties (queueProperties queue)

/-- `QueueRange::validateInput`. The queues lie at multiples of 8 behind the address. -/
def validateQueues (address : Nat) (queues : Bytes) : Bool :=
  queueLayout.isProtocolRangeValid address queues &&
    (queueLayout.items queues).all (validateQueue address)

def readQueue (queue : Bytes) : Nat × Nat × List Bytes :=
  (big32 queue 0, big32 queue 4,
    (propertyLayout.items (queueProperties queue)).map fun property =>
      property.take (propertySize property))

def queueSize (queue : Bytes) : Nat :=
  16 + ((propertyLayout.items (queueProperties queue)).map propertySize).sum

/-- One turn of the loop for versions 3 and 4: the header with the size of the queue without
padding, then the properties. -/
def writePacked (queue : Bytes) : Bytes :=
  poke (queue.take 16) 8 (bigBytes 2 (queueSize queue)) ++
    ((propertyLayout.items (queueProperties queue)).map fun property =>
      property.take (propertySize property)).flatten

/-- `QueueV1Builder::write`. -/
def writeV1 (queue : Bytes) : Bytes :=
  let properties := queueProperties queue
  if properties ≠ [] then
    window queue 0 4 ++ bigBytes 2 (8 + properties.length) ++ bigBytes 2 0 ++ properties
  else
    -- The property `OFPQT_NONE`.
    window queue 0 4 ++ bigBytes 2 16 ++ bigBytes 2 0 ++
      (bigBytes 2 0 ++ bigBytes 2 8 ++ bigBytes 4 0)

def writeSize (version : Nat) (queues : Bytes) : Nat :=
  if version > 4 then queues.length
  else if version > 2 then ((queueLayout.items queues).map queueSize).sum
  else ((queueLayout.items queues).map fun queue =>
    if big16 queue 8 = 16 then 16 else big16 queue 8 - 8).sum

def write (version : Nat) (queues : Bytes) : Bytes :=
  if version > 4 then queues
  else if version > 2 then ((queueLayout.items queues).map writePacked).flatten
  else ((queueLayout.items queues).map writeV1).flatten

/-- `QueueGetConfigReplyBuilder::sendV1`. The type has another number in version 1. -/
def sendV1 (xid : Nat) (port : BitVec 32) (queues : Bytes) : Bytes :=
  headerBytes 1 21 (16 + writeSize 1 queues) xid ++ bigBytes 2 port.toNat ++
    List.replicate 6 0 ++ write 1 queues

/-- `QueueGetConfigReplyBuilder::send`: what is written to a channel. -/
def send (version xid : Nat) (port : BitVec 32) (queues : Bytes) : Bytes :=
  if version = 1 then sendV1 xid port queues
  else
    headerBytes version Header.OFPT.queueGetConfigReply (16 + writeSize version queues) xid ++
      bigBytes 4 port.toNat ++ List.replicate 4 0 ++ write version queues

end Libofp.Queues.QueueRange
