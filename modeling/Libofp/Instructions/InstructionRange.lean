/- GID: Libofp/Instructions/InstructionRange
   digest: Instruction lists in message bytes, their validation and the actions they carry. -/

import Libofp.Actions.ActionRange

set_option autoImplicit false

namespace Libofp.Instructions.InstructionRange

open Octets.ByteRange Octets.BigEndian Wire.ProtocolRange Actions

namespace OFPIT

def writeActions : Nat := 3
def applyActions : Nat := 4
def experimenter : Nat := 0xFFFF

end OFPIT

/-- `InstructionIteratorItem`: type and length, padded to a multiple of 8. -/
def instructionLayout : ElementLayout := ⟨4, .at 2, 8⟩

def type (instruction : Bytes) : Nat := big16 instruction 0

def length (instruction : Bytes) : Nat := big16 instruction 2

/-- `IT_WithActions::validateInput` of an instruction that lies at an address. -/
def validateWithActions (address : Nat) (instruction : Bytes) : Bool :=
  decide (8 ≤ length instruction) &&
    ActionRange.validateInput (address + 8)
      (safeByteRange (instruction.take (length instruction)) 8)

/-- The check of `InstructionRange::validateInput` that depends on the type. -/
def validateInstruction (address : Nat) (instruction : Bytes) : Bool :=
  if type instruction = OFPIT.writeActions ∨ type instruction = OFPIT.applyActions then
    validateWithActions address instruction
  else if type instruction = OFPIT.experimenter then decide (8 ≤ length instruction)
  else true

/-- `InstructionRange::validateInput` of the bytes that lie at an address. Every
instruction lies a multiple of 8 bytes behind it. -/
def validateInput (address : Nat) (range : Bytes) : Bool :=
  instructionLayout.isProtocolRangeValid address range &&
    (instructionLayout.items range).all (validateInstruction address)

/-- `InstructionRange::outputActions`: the actions of the first instruction that applies
actions. -/
def outputActions (range : Bytes) : Bytes :=
  match (instructionLayout.items range).find? (type · = OFPIT.applyActions) with
  | some instruction => (instruction.drop 8).take (length instruction - 8)
  | none => []

end Libofp.Instructions.InstructionRange
