/- GID: Libofp/Messages/Builders
   digest: Messages with actions as their builders write them to a version 1 channel. -/

import Libofp.Actions.WriteSize
import Libofp.Instructions.InstructionRange
import Libofp.Match.Original
import Libofp.Messages.Header

set_option autoImplicit false

namespace Libofp.Messages.Builders

open Octets.ByteRange Octets.ByteList Octets.BigEndian
open Wire.ProtocolRange Match.Original Instructions
open Actions.ActionRange Actions.Writing Actions.WriteSize

/-- The memory of a `Header`. The length is stored in 16 bits. -/
def headerBytes (version type length xid : Nat) : Bytes :=
  bigBytes 1 version ++ bigBytes 1 type ++ bigBytes 2 length ++ bigBytes 4 xid

/-- `FlowModBuilder`: the memory of the message, the OXM list of its match and its
instructions. -/
structure FlowModBuilder where
  msg : Bytes
  oxm : Bytes
  instructions : Bytes
  whole : msg.length = 56

/-- `FlowModBuilder::sendOriginal`: what is written to a channel. -/
def FlowModBuilder.sendOriginal (b : FlowModBuilder) (version xid : Nat) : Bytes :=
  let origMatch := OriginalMatch.ofOxmRange b.oxm
  let actions := InstructionRange.outputActions b.instructions
  -- `UInt16 msgLen`
  let msgLen := if actions.length > 0 then (72 + writeSize version actions) % 65536 else 72
  headerBytes version Header.OFPT.flowMod msgLen xid ++ origMatch.toBytes ++ window b.msg 8 8 ++
    -- The table number is not supported and is written as 0.
    (bigBytes 1 0 ++ window b.msg 25 11) ++ window b.msg 38 2 ++ window b.msg 44 2 ++
    if actions.length > 0 then write version actions else []

/-- `PacketOutBuilder`: the memory of the message, its actions and the frame. -/
structure PacketOutBuilder where
  msg : Bytes
  actions : Bytes
  enetFrame : Bytes
  whole : msg.length = 24

/-- `PacketOutBuilder::send`: what is written to a channel. -/
def PacketOutBuilder.send (b : PacketOutBuilder) (version xid : Nat) : Bytes :=
  let actionSize := writeSize version b.actions
  let msgLen := 24 + actionSize - (if version = 1 then 8 else 0) + b.enetFrame.length
  let header := headerBytes version Header.OFPT.packetOut msgLen xid
  let actionsLen := bigBytes 2 actionSize
  (if version = 1 then header ++ window b.msg 8 4 ++ window b.msg 14 2 ++ actionsLen
    else header ++ window b.msg 8 8 ++ actionsLen ++ window b.msg 18 6) ++
    write version b.actions ++ b.enetFrame

section

variable {version xid : Nat}

theorem length_headerBytes (type length : Nat) :
    (headerBytes version type length xid).length = 8 := by
  simp [headerBytes]

theorem length_of_headerBytes {type length : Nat} (rest : Bytes) (fits : length < 65536) :
    Header.length (headerBytes version type length xid ++ rest) = length := by
  simp [Header.length, headerBytes, big16, big8, bigBytes]
  omega

theorem FlowModBuilder.length_sendOriginal (b : FlowModBuilder) :
    (b.sendOriginal version xid).length =
      72 + (if (InstructionRange.outputActions b.instructions).length > 0 then
        (write version (InstructionRange.outputActions b.instructions)).length else 0) := by
  have whole := b.whole
  simp only [FlowModBuilder.sendOriginal, List.length_append, length_headerBytes,
    Match.Original.length_toBytes, sizeofOriginalMatch, length_bigBytes,
    length_window b.msg (show 8 + 8 ≤ b.msg.length by omega),
    length_window b.msg (show 25 + 11 ≤ b.msg.length by omega),
    length_window b.msg (show 38 + 2 ≤ b.msg.length by omega),
    length_window b.msg (show 44 + 2 ≤ b.msg.length by omega)]
  split <;> rfl

theorem PacketOutBuilder.length_send (b : PacketOutBuilder) :
    (b.send 1 xid).length = 16 + (write 1 b.actions).length + b.enetFrame.length := by
  have whole := b.whole
  simp only [PacketOutBuilder.send, if_true, List.length_append, length_headerBytes,
    length_bigBytes, length_window b.msg (show 8 + 4 ≤ b.msg.length by omega),
    length_window b.msg (show 14 + 2 ≤ b.msg.length by omega)]

theorem FlowModBuilder.stated_sendOriginal (b : FlowModBuilder)
    (fits : 72 + writeSize 1 (InstructionRange.outputActions b.instructions) ≤ 65535) :
    Header.length (b.sendOriginal 1 xid) =
      72 + writeSize 1 (InstructionRange.outputActions b.instructions) := by
  simp only [FlowModBuilder.sendOriginal, List.append_assoc]
  rw [length_of_headerBytes _ (by split <;> omega)]
  split
  · exact Nat.mod_eq_of_lt (by omega)
  · have none : InstructionRange.outputActions b.instructions = [] :=
      List.eq_nil_of_length_eq_zero (by omega)
    rw [none]
    rfl

theorem PacketOutBuilder.stated_send (b : PacketOutBuilder)
    (fits : 16 + writeSize 1 b.actions + b.enetFrame.length ≤ 65535) :
    Header.length (b.send 1 xid) = 16 + writeSize 1 b.actions + b.enetFrame.length := by
  simp only [PacketOutBuilder.send, if_true, List.append_assoc]
  rw [length_of_headerBytes _ (by omega)]
  omega

end

/-- On a version 1 channel a valid action list is as long as announced, and the messages
that carry it are as long as their headers say, exactly when all its actions can be
framed. -/
theorem framed_iff {address : Nat} {range : Bytes} (valid : validateInput address range = true) :
    ((write 1 range).length = writeSize 1 range ↔
        ∀ action ∈ actionLayout.items range, Framable action) ∧
      (∀ (b : FlowModBuilder) (xid : Nat), InstructionRange.outputActions b.instructions = range →
        72 + writeSize 1 range ≤ 65535 →
          ((b.sendOriginal 1 xid).length = Header.length (b.sendOriginal 1 xid) ↔
            ∀ action ∈ actionLayout.items range, Framable action)) ∧
      ∀ (b : PacketOutBuilder) (xid : Nat), b.actions = range →
        16 + writeSize 1 range + b.enetFrame.length ≤ 65535 →
          ((b.send 1 xid).length = Header.length (b.send 1 xid) ↔
            ∀ action ∈ actionLayout.items range, Framable action) := by
  have framed := (length_write_iff valid).2
  refine ⟨framed, ?_, ?_⟩
  · rintro b xid rfl fits
    rw [b.length_sendOriginal, b.stated_sendOriginal fits, ← framed]
    split
    · omega
    · have none : InstructionRange.outputActions b.instructions = [] :=
        List.eq_nil_of_length_eq_zero (by omega)
      rw [none]
      simp [writeSize, write, ElementLayout.items_nil]
  · rintro b xid rfl fits
    rw [b.length_send, b.stated_send fits, ← framed]
    omega

/-- An action that sets `IPV4_SRC`, an experimenter action and an output. -/
def framedActions : Bytes :=
  [0, 25, 0, 16, 0x80, 0, 0x16, 4, 10, 0, 0, 1, 0, 0, 0, 0] ++
    [0xFF, 0xFF, 0, 16, 0, 0, 0, 5, 1, 2, 3, 4, 5, 6, 7, 8] ++
    [0, 0, 0, 16, 0, 0, 0, 1, 0, 0, 0, 0, 0, 0, 0, 0]

theorem framed_output :
    let flowMod : FlowModBuilder :=
      ⟨List.replicate 56 0, [], [0, 4, 0, 56, 0, 0, 0, 0] ++ framedActions, rfl⟩
    let packetOut : PacketOutBuilder := ⟨List.replicate 24 0, framedActions, [1, 2, 3], rfl⟩
    validateInput 0 framedActions = true ∧
      (∀ action ∈ actionLayout.items framedActions, Framable action) ∧
      (write 1 framedActions).length = writeSize 1 framedActions ∧
      (flowMod.sendOriginal 1 7).length = Header.length (flowMod.sendOriginal 1 7) ∧
      (packetOut.send 1 7).length = Header.length (packetOut.send 1 7) := by
  intro flowMod packetOut
  have valid : validateInput 0 framedActions = true := by decide +kernel
  have framable : ∀ action ∈ actionLayout.items framedActions, Framable action := by
    decide +kernel
  obtain ⟨written, flowMods, packetOuts⟩ := framed_iff valid
  exact ⟨valid, framable, written.mpr framable,
    (flowMods flowMod 7 (by decide +kernel) (by decide +kernel)).mpr framable,
    (packetOuts packetOut 7 rfl (by decide +kernel)).mpr framable⟩

/-- An experimenter action of 12 bytes with padding, and an action that sets `IP_ECN`. -/
def unframedActions : Bytes :=
  [0xFF, 0xFF, 0, 12, 0, 0, 0, 5, 1, 2, 3, 4, 0, 0, 0, 0] ++
    [0, 25, 0, 16, 0x80, 0, 0x12, 1, 1, 0, 0, 0, 0, 0, 0, 0]

def unframedPacketOut : PacketOutBuilder :=
  ⟨List.replicate 24 0, unframedActions, [], rfl⟩

/-- 12 bytes of actions are written where the header counts 32. -/
theorem unframed_packetOut :
    validateInput 0 unframedActions = true ∧ (write 1 unframedActions).length = 12 ∧
      writeSize 1 unframedActions = 32 ∧ (unframedPacketOut.send 1 7).length = 28 ∧
      Header.length (unframedPacketOut.send 1 7) = 48 := by
  decide +kernel

end Libofp.Messages.Builders
