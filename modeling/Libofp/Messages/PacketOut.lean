/- GID: Libofp/Messages/PacketOut
   digest: The parts of a packet-out message and its check. -/

import Libofp.Actions.ActionRange
import Libofp.Messages.Header

set_option autoImplicit false

namespace Libofp.Messages.PacketOut

open Octets.ByteRange Octets.ByteList Octets.BigEndian Actions Messages

/-- `sizeof(PacketOut)`. -/
def sizeofPacketOut : Nat := 24

def bufferId (msg : Bytes) : Nat := big32 msg 8

def inPort (msg : Bytes) : Nat := big32 msg 12

def actionsLen (msg : Bytes) : Nat := big16 msg 16

def actions (msg : Bytes) : Bytes := window msg sizeofPacketOut (actionsLen msg)

def enetFrame (msg : Bytes) : Bytes :=
  safeByteRange (msg.take (Header.length msg)) (sizeofPacketOut + actionsLen msg)

def validateInput (msg : Bytes) : Bool :=
  if msg.length < sizeofPacketOut + actionsLen msg then false
  else ActionRange.validateInput sizeofPacketOut (actions msg)

def packed (head : Bytes) (inPort : Nat) (actions frame : Bytes) : Bytes :=
  head ++ (bigBytes 4 inPort ++ (bigBytes 2 actions.length ++ (List.replicate 6 0 ++
    (actions ++ frame))))

section

variable {head : Bytes} (port : Nat) (actions frame : Bytes) (twelve : head.length = 12)

include twelve

theorem length_packed :
    (packed head port actions frame).length = 24 + actions.length + frame.length := by
  simp only [packed, List.length_append, length_bigBytes, List.length_replicate, twelve]
  omega

theorem bufferId_packed : bufferId (packed head port actions frame) = big32 head 8 := by
  rw [bufferId, packed, big32_append _ (by omega)]

theorem inPort_packed : inPort (packed head port actions frame) = port % 4294967296 := by
  rw [inPort, packed, ← Nat.add_zero 12, ← big32_drop, List.drop_left' twelve,
    big32_append _ (by simp), big32_bigBytes]

theorem actionsLen_packed :
    actionsLen (packed head port actions frame) = actions.length % 65536 := by
  have front : (head ++ bigBytes 4 port).length = 16 := by simp [twelve]
  rw [actionsLen, packed, ← List.append_assoc, ← Nat.add_zero 16, ← big16_drop,
    List.drop_left' front, big16_append _ (by simp), big16_bigBytes]

theorem drop_packed (k : Nat) :
    (packed head port actions frame).drop (24 + k) = (actions ++ frame).drop k := by
  have front : (head ++ (bigBytes 4 port ++ (bigBytes 2 actions.length ++
      List.replicate 6 0))).length = 24 := by simp [twelve]
  have opened : packed head port actions frame = (head ++ (bigBytes 4 port ++
      (bigBytes 2 actions.length ++ List.replicate 6 0))) ++ (actions ++ frame) := by
    simp [packed]
  rw [← List.drop_drop, opened, List.drop_left' front]

theorem actions_packed (fits : actions.length < 65536) :
    PacketOut.actions (packed head port actions frame) = actions := by
  have tail := drop_packed port actions frame twelve 0
  rw [PacketOut.actions, actionsLen_packed port actions frame twelve, Nat.mod_eq_of_lt fits,
    sizeofPacketOut, window, tail, List.drop_zero, List.take_left]

theorem enetFrame_packed (fits : actions.length < 65536)
    (sized : Header.length (packed head port actions frame) =
      (packed head port actions frame).length) :
    enetFrame (packed head port actions frame) = frame := by
  rw [enetFrame, sized, List.take_length, safeByteRange_eq_drop,
    actionsLen_packed port actions frame twelve, Nat.mod_eq_of_lt fits, sizeofPacketOut,
    drop_packed port actions frame twelve, List.drop_left]

theorem setLength_packed (n : Nat) : Header.setLength (packed head port actions frame) n =
    packed (Header.setLength head n) port actions frame :=
  poke_append_left _ (by rw [length_bigBytes]; omega)

end

end Libofp.Messages.PacketOut
