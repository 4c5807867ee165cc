/- GID: Libofp/Messages/Header
   digest: The message header, the translation of message types and the marks of normalisation. -/

import Libofp.Octets.ByteList

set_option autoImplicit false

namespace Libofp.Messages.Header

open Octets.ByteRange Octets.ByteList Octets.BigEndian

/-! The message types of version 4 that the library tells apart. A type byte outside this
list is passed on as it is. -/

namespace OFPT

def experimenter : Nat := 4
def featuresReply : Nat := 6
def packetIn : Nat := 10
def flowRemoved : Nat := 11
def portStatus : Nat := 12
def packetOut : Nat := 13
def flowMod : Nat := 14
def groupMod : Nat := 15
def portMod : Nat := 16
def tableMod : Nat := 17
def multipartRequest : Nat := 18
def multipartReply : Nat := 19
def queueGetConfigReply : Nat := 23
def getAsyncReply : Nat := 27
def setAsync : Nat := 28
def last : Nat := 34
def unsupported : Nat := 0xF9

/-- `v1::OFPT_PORT_MOD`. -/
def portModV1 : Nat := 15

end OFPT

def ofpMaxSize : Nat := 65535

def maxTypeByVersion : Nat → Nat
  | 1 => 21
  | 2 => 23
  | 3 => 25
  | 4 => OFPT.last
  | _ => 0

def translateTypeToVersion (type version : Nat) : Nat :=
  if version = 1 ∧ (type = OFPT.groupMod ∨ type = OFPT.tableMod) then OFPT.unsupported
  else
    let type :=
      if version = 1 then if type = OFPT.portMod then type - 1 else type - 2 else type
    if type > maxTypeByVersion version then OFPT.unsupported else type

def translateTypeFromVersion (type version : Nat) : Nat :=
  if type > maxTypeByVersion version then OFPT.unsupported
  else if version = 1 then
    if type = OFPT.portModV1 then OFPT.portMod
    else if type > OFPT.portModV1 then type + 2
    else type
  else type

def translateType (version type newVersion : Nat) : Nat :=
  if version = 0 then OFPT.unsupported
  else if version = newVersion then type
  else if version > 4 ∨ newVersion > 4 then type
  else if type ≤ OFPT.flowMod then type
  else if version = 4 then translateTypeToVersion type newVersion
  else if newVersion = 4 then translateTypeFromVersion type version
  else OFPT.unsupported

def version (buf : Bytes) : Nat := big8 buf 0

def type (buf : Bytes) : Nat := big8 buf 1

def length (buf : Bytes) : Nat := big16 buf 2

def setVersion (buf : Bytes) (v : Nat) : Bytes := poke buf 0 (bigBytes 1 v)

def setType (buf : Bytes) (t : Nat) : Bytes := poke buf 1 (bigBytes 1 t)

def setLength (buf : Bytes) (n : Nat) : Bytes := poke buf 2 (bigBytes 2 n)

/-- `Message::kTooBigErrorFlag`. -/
def tooBigErrorFlag : Nat := 0xE0

/-- `Message::kInvalidErrorFlag`. -/
def invalidErrorFlag : Nat := 0xF0

def markInputTooBig (buf : Bytes) : Bytes := setVersion buf (tooBigErrorFlag ||| version buf)

def markInputInvalid (buf : Bytes) : Bytes := setVersion buf (invalidErrorFlag ||| version buf)

/-- The flag that `Message::castMessage` finds in the version byte. -/
def versionFlag (buf : Bytes) : Nat := version buf &&& 0xF0

theorem length_setVersion {buf : Bytes} (nonempty : 0 < buf.length) (v : Nat) :
    (setVersion buf v).length = buf.length :=
  length_poke buf (by rw [length_bigBytes]; omega)

theorem length_markInputInvalid {buf : Bytes} (nonempty : 0 < buf.length) :
    (markInputInvalid buf).length = buf.length :=
  length_setVersion nonempty _

theorem length_setLength {buf : Bytes} (long : 4 ≤ buf.length) (n : Nat) :
    (setLength buf n).length = buf.length :=
  length_poke buf (by rw [length_bigBytes]; omega)

theorem headerLength_setLength {buf : Bytes} (long : 2 ≤ buf.length) (n : Nat) :
    Header.length (setLength buf n) = n % 65536 := by
  have stored : window (setLength buf n) 2 2 = bigBytes 2 n :=
    window_poke long (by rw [length_bigBytes])
  rw [Header.length, ← Nat.add_zero 2, ← big16_drop, ← big16_take (show 0 + 2 ≤ 2 by omega),
    ← window, stored, big16_bigBytes]

theorem version_setLength {buf : Bytes} (long : 2 ≤ buf.length) (n : Nat) :
    version (setLength buf n) = version buf := by
  have front := take_poke (bigBytes 2 n) long (show 1 ≤ 2 by omega)
  rw [version, version, ← big8_take (show 0 < 1 by omega), setLength, front,
    big8_take (by omega)]

theorem version_setVersion (buf : Bytes) (v : Nat) : version (setVersion buf v) = v % 256 := by
  simp [version, setVersion, poke, replace, big8, bigBytes]

theorem version_markInputInvalid (buf : Bytes) :
    version (markInputInvalid buf) = invalidErrorFlag ||| version buf := by
  have bound : invalidErrorFlag ||| version buf < 2 ^ 8 :=
    Nat.or_lt_two_pow (by decide) (big8_lt buf 0)
  rw [markInputInvalid, version_setVersion]
  exact Nat.mod_eq_of_lt bound

theorem version_markInputTooBig (buf : Bytes) :
    version (markInputTooBig buf) = tooBigErrorFlag ||| version buf := by
  have bound : tooBigErrorFlag ||| version buf < 2 ^ 8 :=
    Nat.or_lt_two_pow (by decide) (big8_lt buf 0)
  rw [markInputTooBig, version_setVersion]
  exact Nat.mod_eq_of_lt bound

end Libofp.Messages.Header
