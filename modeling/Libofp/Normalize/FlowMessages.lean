/- GID: Libofp/Normalize/FlowMessages
   digest: Version 1 messages that carry a match or actions, rewritten to version 2. -/

import Libofp.Match.Standard
import Libofp.Normalize.Ports

set_option autoImplicit false

namespace Libofp.Normalize.FlowMessages

open Octets.ByteRange Octets.ByteList Octets.BigEndian
open Base.Iteration Oxm.Field Messages Messages.Header
open Match.Original (OriginalMatch)
open Match.Standard (StandardMatch)
open Actions ActionRewrite Ports

/-- `StandardMatch{*reinterpret_cast<OriginalMatch *>(ptr)}`. -/
def standardMatchAt (buf : Bytes) (pos : Nat) : StandardMatch :=
  .ofOriginal (.ofBytes (window buf pos 40))

/-- The low 16 bits of a length, as `UInt16_narrow_cast` and a `Big16` store them. -/
def narrow16 (n : Int) : Bytes := bigBytes 2 (n % 65536).toNat

theorem length_narrow16 (n : Int) : (narrow16 n).length = 2 := by
  simp [narrow16]

theorem narrow16_natCast (n : Nat) : narrow16 n = bigBytes 2 n := by
  have low : ((n : Int) % 65536).toNat = n % 65536 := by omega
  simp only [narrow16, low, bigBytes, List.cons.injEq, and_true]
  constructor
  all_goals
    apply UInt8.toNat_inj.mp
    simp only [UInt8.toNat_ofNat']
    omega

/-- `InstructionHeaderWithPadding{OFPIT_APPLY_ACTIONS, length}`. -/
def applyActionsHeader (length : Int) : Bytes :=
  bigBytes 2 4 ++ narrow16 length ++ List.replicate 4 0

theorem length_applyActionsHeader (length : Int) : (applyActionsHeader length).length = 8 := by
  simp [applyActionsHeader, length_narrow16]

theorem type_applyActionsHeader (length : Int) : big16 (applyActionsHeader length) 0 = 4 := by
  rw [applyActionsHeader, List.append_assoc, big16_append _ (by rw [length_bigBytes]),
    big16_bigBytes]

theorem length_of_applyActionsHeader (n : Nat) : big16 (applyActionsHeader n) 2 = n % 65536 := by
  rw [applyActionsHeader, narrow16_natCast, List.append_assoc, ← Nat.add_zero 2, ← big16_drop,
    List.drop_left' (length_bigBytes ..), big16_append _ (by rw [length_bigBytes]), big16_bigBytes]

section

variable (host : Host) (slack : Slack)

def normalizeFlowModV1 (fuel : Nat) (buf : Bytes) : Outcome Bytes :=
  if Header.length buf < 72 then .done (markInputInvalid buf)
  else if buf.length > 65535 - 72 then .done (markInputTooBig buf)
  else
    let origSize := buf.length
    let stdMatch := standardMatchAt buf 8
    let outPort := normPortNumberV1 (big16 buf 68)
    let buf := poke buf 8 (window buf 48 8)
    let buf := poke buf 16 (List.replicate 8 0xFF)
    let buf := poke buf 24 (window buf 56 12)
    let buf := poke buf 36 (bigBytes 4 outPort)
    let buf := poke buf 40 (List.replicate 4 0)
    let buf := poke buf 44 (window buf 70 2)
    let buf := poke buf 46 (List.replicate 2 0)
    let actLen := origSize - 72
    if actLen % 8 ≠ 0 then .done (markInputInvalid buf)
    else
      let needed := if actLen > 0 then 64 + 8 else 64
      let buf := insertUninitialized slack buf 48 needed
      let buf := poke buf 48 stdMatch.toBytes
      if actLen > 0 then
        if ActionRange.validateInput 144 (window buf 144 actLen) then
          (normActionsV1orV2 host slack fuel stdMatch.nwProto.toNat
              ⟨buf, 144, 144 + actLen, 0, []⟩).map fun c =>
            poke c.buf 136 (applyActionsHeader (actLen + 8 + c.lengthChange))
        else .done (markInputInvalid buf)
      else .done buf

def normalizePacketOutV1 (fuel : Nat) (buf : Bytes) : Outcome Bytes :=
  if Header.length buf < 16 then .done (markInputInvalid buf)
  else if buf.length > 65535 - 8 then .done (markInputTooBig buf)
  else
    let inPort := normPortNumberV1 (big16 buf 12)
    let actionLen := big16 buf 14
    if actionLen % 8 ≠ 0 then .done (markInputInvalid buf)
    else if 16 + actionLen > buf.length then .done (markInputInvalid buf)
    else
      let buf := insertUninitialized slack buf 12 8
      let buf := poke buf 12 (bigBytes 4 inPort)
      let buf := poke buf 18 (List.replicate 6 0)
      if actionLen > 0 then
        if ActionRange.validateInput 24 (window buf 24 actionLen) then
          -- A packet-out does not say what its IP protocol is.
          (normActionsV1orV2 host slack fuel 0 ⟨buf, 24, 24 + actionLen, 0, []⟩).map fun c =>
            poke c.buf 16 (narrow16 (actionLen + c.lengthChange))
        else .done (markInputInvalid buf)
      else .done (poke buf 16 (narrow16 actionLen))

def normalizeExperimenterV1 (buf : Bytes) : Bytes :=
  if Header.length buf < 12 then markInputInvalid buf
  else if Header.length buf > 65535 - 4 then markInputTooBig buf
  else insertZeros buf 12 4

def normalizeFlowRemovedV1 (buf : Bytes) : Bytes :=
  if Header.length buf ≠ 88 then markInputInvalid buf
  else
    let stdMatch := standardMatchAt buf 8
    let buf := poke buf 8 (window buf 48 40)
    let buf := insertUninitialized slack buf 88 (136 - 88)
    poke buf 48 stdMatch.toBytes

def normalizeMPFlowRequestV1 (buf : Bytes) : Bytes :=
  if buf.length ≠ sizeofMultipart + 44 then markInputInvalid buf
  else
    let buf := addUninitialized slack buf 76
    let stdMatch := standardMatchAt buf 16
    let outPort := normPortNumberV1 (big16 buf (16 + 40 + 2))
    let buf := poke buf 16 (window buf (16 + 40) 2)
    let buf := poke buf (16 + 2) (List.replicate 2 0)
    let buf := poke buf (16 + 4) (bigBytes 4 outPort)
    let buf := poke buf (16 + 8) (List.replicate 24 0)
    poke buf (16 + 32) stdMatch.toBytes

def normalizeMPPortStatsRequestV1 (buf : Bytes) : Bytes :=
  if buf.length ≠ sizeofMultipart + 8 then markInputInvalid buf
  else poke buf 16 (bigBytes 4 (normPortNumberV1 (big16 buf 16)))

def normalizeMultipartRequestV1 (buf : Bytes) : Bytes :=
  if Header.length buf < 12 then markInputInvalid buf
  else
    let buf := insertZeros buf 12 4
    let reqType := big16 buf 8
    if reqType = 1 ∨ reqType = 2 then normalizeMPFlowRequestV1 slack buf
    else if reqType = 4 ∨ reqType = 5 then normalizeMPPortStatsRequestV1 buf
    else buf

/-- `Normalize::normalizeAsyncConfigV4`: the six masks change places in pairs and each
becomes a property. -/
def normalizeAsyncConfigV4 (buf : Bytes) : Bytes :=
  if Header.length buf ≠ 32 then markInputInvalid buf
  else
    let buf := addUninitialized slack buf 24
    let mask (i : Nat) : Bytes := window buf (8 + 4 * i) 4
    let prop (i : Nat) (value : Bytes) : Bytes := bigBytes 2 i ++ bigBytes 2 8 ++ value
    poke buf 8 (prop 0 (mask 1) ++ prop 1 (mask 0) ++ prop 2 (mask 3) ++ prop 3 (mask 2) ++
      prop 4 (mask 5) ++ prop 5 (mask 4))

end

end Libofp.Normalize.FlowMessages
