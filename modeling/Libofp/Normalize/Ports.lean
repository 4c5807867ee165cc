/- GID: Libofp/Normalize/Ports
   digest: Port descriptions of older versions rewritten to the current structure, in the
     messages that carry them. -/

import Libofp.Normalize.ActionRewrite

set_option autoImplicit false

namespace Libofp.Normalize.Ports

open Octets.ByteRange Octets.ByteList Octets.BigEndian Messages Messages.Header
open ActionRewrite (normPortNumberV1)

/-- `OFPPortFeaturesFlagsConvertFromV1`. -/
def portFeaturesConvertFromV1 (features : Nat) : Nat :=
  (features &&& 0xFFFF007F) ||| ((features &&& 0x00F80) <<< 4)

/-- The memory of a `PortPropertyEthernet`. -/
def portPropertyEthernet (curr advertised supported peer currSpeed maxSpeed : Nat) : Bytes :=
  bigBytes 2 0 ++ bigBytes 2 32 ++ List.replicate 4 0 ++ bigBytes 4 curr ++
    bigBytes 4 advertised ++ bigBytes 4 supported ++ bigBytes 4 peer ++
    bigBytes 4 currSpeed ++ bigBytes 4 maxSpeed

/-- The memory of a `PortBuilder` with one Ethernet property. -/
def portBuilder (portNo : Nat) (hwAddr name config state ethernet : Bytes) : Bytes :=
  bigBytes 4 portNo ++ bigBytes 2 (40 + ethernet.length) ++ List.replicate 2 0 ++ hwAddr ++
    List.replicate 2 0 ++ name ++ config ++ state ++ ethernet

structure PortFormat where
  size : Nat
  convert : Bytes → Bytes

/-- `PortBuilder(const PortV1 &)`. -/
def portV1 : PortFormat where
  size := 48
  convert port :=
    portBuilder (normPortNumberV1 (big16 port 0)) (window port 2 6) (window port 8 16)
      (window port 24 4) (window port 28 4)
      (portPropertyEthernet (portFeaturesConvertFromV1 (big32 port 32))
        (portFeaturesConvertFromV1 (big32 port 36)) (portFeaturesConvertFromV1 (big32 port 40))
        (portFeaturesConvertFromV1 (big32 port 44)) 0 0)

/-- `PortBuilder(const PortV2 &)`. -/
def portV2 : PortFormat where
  size := 64
  convert port :=
    portBuilder (big32 port 0) (window port 8 6) (window port 16 16)
      (window port 32 4) (window port 36 4)
      (portPropertyEthernet (big32 port 40) (big32 port 44) (big32 port 48) (big32 port 52)
        (big32 port 56) (big32 port 60))

def defaultSizeEthernet : Nat := 72

/-- `for (i = 0; i < portCount; ++i) ports.add(PortBuilder{*port++})`. -/
def convertPorts (format : PortFormat) : Nat → Bytes → Bytes
  | 0, _ => []
  | portCount + 1, data =>
    format.convert (data.take format.size) ++ convertPorts format portCount (data.drop format.size)

section

variable (slack : Slack)

def replacePorts (buf : Bytes) (start portListSize : Nat) (ports : Bytes) : Bytes :=
  poke (addUninitialized slack buf (ports.length - portListSize)) start ports

/-- `sizeof(FeaturesReply)`. -/
def sizeofFeaturesReply : Nat := 32

/-- The two functions that normalise a `FeaturesReply`, by the port structure. -/
def normalizeFeaturesReply (format : PortFormat) (buf : Bytes) : Bytes :=
  if Header.length buf < sizeofFeaturesReply then markInputInvalid buf
  else
    let portListSize := Header.length buf - sizeofFeaturesReply
    if portListSize % format.size ≠ 0 then markInputInvalid buf
    else
      let ports := convertPorts format (portListSize / format.size) (buf.drop sizeofFeaturesReply)
      if ports.length > 65535 - sizeofFeaturesReply then markInputTooBig buf
      else replacePorts slack buf sizeofFeaturesReply portListSize ports

def normalizeFeaturesReplyV1 : Bytes → Bytes := normalizeFeaturesReply slack portV1

def normalizeFeaturesReplyV2 : Bytes → Bytes := normalizeFeaturesReply slack portV2

def portStatusSize : Nat := 16

/-- The two functions that normalise a `PortStatus`, by the port structure. -/
def normalizePortStatus (format : PortFormat) (buf : Bytes) : Bytes :=
  if Header.length buf ≠ portStatusSize + format.size then markInputInvalid buf
  else
    let port := format.convert (window buf portStatusSize format.size)
    poke (addUninitialized slack buf (defaultSizeEthernet - format.size)) portStatusSize port

def normalizePortStatusV1 : Bytes → Bytes := normalizePortStatus slack portV1

def normalizePortStatusV2 : Bytes → Bytes := normalizePortStatus slack portV2

def normalizePortModV1 (buf : Bytes) : Bytes :=
  if Header.length buf < 32 then markInputInvalid buf
  else
    let inPort := normPortNumberV1 (big16 buf 8)
    let buf := insertUninitialized slack buf 16 8
    let buf := poke buf 16 (window buf 10 6)
    let buf := poke buf 8 (bigBytes 4 inPort)
    let buf := poke buf 12 (List.replicate 4 0)
    let buf := poke buf 22 (List.replicate 2 0)
    let advertise := big32 buf 32
    let buf := poke buf 32 (bigBytes 4 0x00000008)
    poke buf 36 (bigBytes 4 (portFeaturesConvertFromV1 advertise))

def normalizePortModV2 (buf : Bytes) : Bytes :=
  if Header.length buf < 40 then markInputInvalid buf
  else
    let advertise := big32 buf 32
    let buf := poke buf 32 (bigBytes 4 0x00000008)
    poke buf 36 (bigBytes 4 advertise)

/-- `sizeof(MultipartReply)`, the same for a request. -/
def sizeofMultipart : Nat := 16

def normalizeMPPortDescReply (format : PortFormat) (buf : Bytes) : Bytes :=
  let portListSize := buf.length - sizeofMultipart
  if portListSize % format.size ≠ 0 then markInputInvalid buf
  else
    replacePorts slack buf sizeofMultipart portListSize
      (convertPorts format (portListSize / format.size) (buf.drop sizeofMultipart))

def normalizeMPPortDescReplyV1 : Bytes → Bytes := normalizeMPPortDescReply slack portV1

def normalizeMPPortDescReplyV4 : Bytes → Bytes := normalizeMPPortDescReply slack portV2

end

end Libofp.Normalize.Ports
