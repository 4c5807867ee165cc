/- GID: Libofp/Normalize/PacketOutPayload
   digest: A version 1 packet-out keeps its buffer, its port and its frame in normalisation. -/

import Libofp.Messages.PacketOut
import Libofp.Normalize.AcceptedActions
import Libofp.Normalize.Dispatch

set_option autoImplicit false

namespace Libofp.Normalize.PacketOutPayload

open Octets.ByteRange Octets.ByteList Octets.BigEndian
open Base.Iteration Oxm.Field Messages Messages.Header
open Actions ActionRewrite FlowMessages
open ActionSpans AcceptedActions Dispatch

variable (host : Host) (slack : Slack)

def actionsV1 (buf : Bytes) : Bytes := window buf 16 (big16 buf 14)

def rebuilt (buf : Bytes) : Bytes :=
  PacketOut.packed (buf.take 12) (normPortNumberV1 (big16 buf 12))
    (normalisedRange host (version buf) 0 (actionsV1 buf)) (buf.drop (16 + big16 buf 14))

section

variable {host slack} {buf : Bytes}

private theorem widened_eq (slack : Slack) (inPort : Nat) (long : 16 ≤ buf.length) :
    ∃ mid : Bytes, mid.length = 2 ∧
      poke (poke (insertUninitialized slack buf 12 8) 12 (bigBytes 4 inPort)) 18
          (List.replicate 6 0) =
        buf.take 12 ++ (bigBytes 4 inPort ++ (mid ++ (List.replicate 6 0 ++ buf.drop 16))) := by
  have size : (fetch slack buf 12 8).length = 8 := length_fetch ..
  have front : (buf.take 12).length = 12 := by
    rw [List.length_take]
    omega
  have behind : buf.drop 16 = (buf.drop 12).drop 4 := by rw [List.drop_drop]
  refine ⟨(fetch slack buf 12 8).drop 4 |>.take 2, by simp [size], ?_⟩
  rw [insertUninitialized, behind]
  generalize buf.take 12 = head at *
  -- The padding goes over the end of the gap and the old port and size.
  simp [poke, replace, List.take_append, List.drop_append, List.take_of_length_le,
    List.drop_of_length_le, front, size]

private theorem normalizePacketOutV1_spec (host : Host) (slack : Slack) (long : 16 ≤ buf.length)
    (size : Header.length buf = buf.length) :
    (∃ b, version b = version buf ∧ 16 ≤ b.length ∧
        ∀ fuel, normalizePacketOutV1 host slack fuel buf = .done (markInputInvalid b)) ∨
      (∀ fuel, normalizePacketOutV1 host slack fuel buf = .done (markInputTooBig buf)) ∨
      Settles (fun fuel => normalizePacketOutV1 host slack fuel buf)
        (.done (rebuilt host buf)) := by
  obtain ⟨mid, two, widened⟩ := widened_eq slack (normPortNumberV1 (big16 buf 12)) long
  have front : (buf.take 12).length = 12 := by
    rw [List.length_take]
    omega
  simp only [normalizePacketOutV1, widened, if_neg (show ¬ Header.length buf < 16 by omega)]
  generalize wide : buf.take 12 ++ (bigBytes 4 (normPortNumberV1 (big16 buf 12)) ++
    (mid ++ (List.replicate 6 0 ++ buf.drop 16))) = buf'
  have length' : buf'.length = buf.length + 8 := by
    rw [← wide]
    simp only [List.length_append, length_bigBytes, List.length_replicate, List.length_drop, front,
      two]
    omega
  have version' : version buf' = version buf := by
    rw [← wide, version, big8_append _ (by omega), big8_take (by omega), version]
  have shifted : ∀ k, buf'.drop (24 + k) = buf.drop (16 + k) := by
    intro k
    rw [← wide, ← List.drop_drop, ← List.drop_drop]
    simp [List.drop_append, List.drop_of_length_le, front, two]
  by_cases big : buf.length > 65535 - 8
  · exact .inr (.inl fun _ => if_pos big)
  simp only [if_neg big]
  by_cases odd : big16 buf 14 % 8 ≠ 0
  · exact .inl ⟨buf, rfl, long, fun _ => if_pos odd⟩
  simp only [if_neg odd]
  by_cases beyond : 16 + big16 buf 14 > buf.length
  · exact .inl ⟨buf, rfl, long, fun _ => if_pos beyond⟩
  simp only [if_neg beyond]
  -- The size of the actions is written at the end, behind the port.
  have stored : ∀ range frame : Bytes,
      poke (buf'.take 24 ++ (range ++ frame)) 16 (narrow16 range.length) =
        PacketOut.packed (buf.take 12) (normPortNumberV1 (big16 buf 12)) range frame := by
    intro range frame
    rw [← wide, narrow16_natCast, PacketOut.packed]
    simp [poke, replace, List.take_append, List.drop_append, List.take_of_length_le,
      List.drop_of_length_le, front, two]
  by_cases empty : big16 buf 14 > 0
  · simp only [if_pos empty]
    have actions : window buf' 24 (big16 buf 14) = actionsV1 buf := by
      have tail := shifted 0
      rw [window, tail, actionsV1, window]
    by_cases valid : ActionRange.validateInput 24 (window buf' 24 (big16 buf 14)) = true
    · simp only [if_pos valid]
      have inside : 24 + big16 buf 14 ≤ buf'.length := by omega
      have opened : buf'.take 24 ≠ [] := by
        intro empty
        have none := congrArg List.length empty
        rw [List.length_take, List.length_nil] at none
        omega
      obtain ⟨c, settled, result, change⟩ :=
        settles_accepted host slack 0 (spans_window inside) opened valid
      rw [length_window buf' inside, Int.zero_add] at change
      refine .inr (.inr ?_)
      have done := settled.map fun c => poke c.buf 16 (narrow16 (big16 buf 14 + c.lengthChange))
      rwa [change, result, actions, version', shifted, List.append_assoc, stored] at done
    · exact .inl ⟨buf', version', by omega, fun _ => if_neg valid⟩
  · have zero : big16 buf 14 = 0 := by omega
    have none : normalisedRange host (version buf) 0 (actionsV1 buf) = [] := by
      rw [actionsV1, zero, window, List.take_zero]
      rfl
    have done : poke buf' 16 (narrow16 (big16 buf 14 : Nat)) = rebuilt host buf := by
      have tail := shifted 0
      have nothing := stored [] (buf.drop 16)
      rw [List.nil_append, ← tail, List.take_append_drop] at nothing
      rwa [zero, rebuilt, none, zero, ← tail]
    refine .inr (.inr ?_)
    simp only [if_neg empty, done]
    exact settles_const (by simp)

end

section

variable {host slack} {buf : Bytes}

private theorem normPortNumberV1_lt (port : Nat) (small : port < 65536) :
    normPortNumberV1 port < 4294967296 := by
  unfold normPortNumberV1
  split <;> omega

theorem normalize_packetOut (old : version buf = 1) (type : Header.type buf = OFPT.packetOut)
    (size : Header.length buf = buf.length) (long : 16 ≤ buf.length) (fuel : Nat) :
    Dispatch.normalize host slack fuel buf =
      (normalizePacketOutV1 host slack fuel buf).map finishHeader := by
  have same : messageType buf = OFPT.packetOut := by
    rw [messageType, old, type]
    rfl
  have repaired : repairHeader buf = buf :=
    repairHeader_of_same (same.trans type.symm) (by rw [type]; decide) size (by omega)
  rw [Dispatch.normalize, repaired, same, old]
  rfl

private theorem parts_of_fits (old : version buf = 1) (long : 16 ≤ buf.length)
    (fits : (rebuilt host buf).length ≤ ofpMaxSize) :
    PacketOut.enetFrame (finishHeader (rebuilt host buf)) = buf.drop (16 + big16 buf 14) ∧
      PacketOut.bufferId (finishHeader (rebuilt host buf)) = big32 buf 8 ∧
      PacketOut.inPort (finishHeader (rebuilt host buf)) = normPortNumberV1 (big16 buf 12) ∧
      PacketOut.actions (finishHeader (rebuilt host buf)) =
        normalisedRange host 1 0 (actionsV1 buf) ∧
      PacketOut.actionsLen (finishHeader (rebuilt host buf)) =
        (normalisedRange host 1 0 (actionsV1 buf)).length ∧
      (finishHeader (rebuilt host buf)).length =
        24 + PacketOut.actionsLen (finishHeader (rebuilt host buf)) +
          (PacketOut.enetFrame (finishHeader (rebuilt host buf))).length := by
  have front : (buf.take 12).length = 12 := by
    rw [List.length_take]
    omega
  rw [finishHeader_of_fits fits]
  simp only [rebuilt, old] at fits ⊢
  generalize normalisedRange host 1 0 (actionsV1 buf) = range at fits ⊢
  generalize buf.drop (16 + big16 buf 14) = frame at fits ⊢
  generalize counted : (PacketOut.packed (buf.take 12) (normPortNumberV1 (big16 buf 12)) range
    frame).length = n at fits ⊢
  rw [PacketOut.length_packed _ _ _ front] at counted
  simp only [ofpMaxSize] at fits
  have front' : (setLength (buf.take 12) n).length = 12 := by
    rw [length_setLength (by omega), front]
  have kept : big32 (setLength (buf.take 12) n) 8 = big32 buf 8 := by
    rw [← Nat.add_zero 8, ← big32_drop, setLength, drop_poke (by omega) (by simp), big32_drop,
      big32_take (by omega)]
  have sized : Header.length (PacketOut.packed (setLength (buf.take 12) n)
      (normPortNumberV1 (big16 buf 12)) range frame) = n := by
    rw [← PacketOut.setLength_packed _ _ _ front, headerLength_setLength]
    · exact Nat.mod_eq_of_lt (by omega)
    · rw [PacketOut.length_packed _ _ _ front]
      omega
  have whole := PacketOut.length_packed (normPortNumberV1 (big16 buf 12)) range frame front'
  have small : range.length < 65536 := by omega
  have frames := PacketOut.enetFrame_packed (normPortNumberV1 (big16 buf 12)) range frame front'
    small (sized.trans (by rw [whole, counted]))
  have sizes :=
    PacketOut.actionsLen_packed (normPortNumberV1 (big16 buf 12)) range frame front'
  rw [Nat.mod_eq_of_lt small] at sizes
  rw [PacketOut.setLength_packed _ _ _ front]
  refine ⟨frames, (PacketOut.bufferId_packed _ _ _ front').trans kept, ?_,
    PacketOut.actions_packed _ _ _ front' small, sizes, ?_⟩
  · rw [PacketOut.inPort_packed _ _ _ front']
    exact Nat.mod_eq_of_lt (normPortNumberV1_lt _ (big16_lt ..))
  · rw [frames, sizes, whole]

/-- A version 1 packet-out that is not marked has its frame, its buffer and its port, and its
actions are the normalised ones; nothing else is in it. -/
theorem packetOut_preserved (host : Host) (slack : Slack) (buf : Bytes) (old : version buf = 1)
    (type : Header.type buf = OFPT.packetOut) (size : Header.length buf = buf.length)
    (long : 16 ≤ buf.length) :
    ∃ out, Settles (fun fuel => Dispatch.normalize host slack fuel buf) (.done out) ∧
      (versionFlag out ≠ invalidErrorFlag → versionFlag out ≠ tooBigErrorFlag →
        PacketOut.enetFrame out = buf.drop (16 + big16 buf 14) ∧
        PacketOut.bufferId out = big32 buf 8 ∧
        PacketOut.inPort out = normPortNumberV1 (big16 buf 12) ∧
        PacketOut.actions out = normalisedRange host 1 0 (actionsV1 buf) ∧
        PacketOut.actionsLen out = (normalisedRange host 1 0 (actionsV1 buf)).length ∧
        out.length = 24 + PacketOut.actionsLen out + (PacketOut.enetFrame out).length) := by
  simp only [normalize_packetOut old type size long]
  obtain ⟨b, kept, size', marked⟩ | marked | settled :=
    normalizePacketOutV1_spec host slack long size
  · simp only [marked]
    refine ⟨finishHeader (markInputInvalid b), settles_const (by simp), fun valid => ?_⟩
    exact absurd (versionFlag_of_invalid (kept.trans old) (by omega)) valid
  · simp only [marked]
    refine ⟨finishHeader (markInputTooBig buf), settles_const (by simp), fun _ small => ?_⟩
    exact absurd (versionFlag_of_tooBig old (by omega)) small
  · refine ⟨_, settled.map finishHeader, fun _ small => ?_⟩
    have front : (buf.take 12).length = 12 := by
      rw [List.length_take]
      omega
    have same : version (rebuilt host buf) = 1 := by
      rw [rebuilt, PacketOut.packed, version, big8_append _ (by omega), big8_take (by omega),
        ← version, old]
    have size' : 2 ≤ (rebuilt host buf).length := by
      rw [rebuilt, PacketOut.length_packed _ _ _ front]
      omega
    exact parts_of_fits old long (fits_of_versionFlag same size' small)

private theorem steady_normalizePacketOutV1 (buf : Bytes) :
    Steady fun fuel => normalizePacketOutV1 host slack fuel buf := by
  intro m more enough ended
  simp only [normalizePacketOutV1] at ended ⊢
  split_ifs at ended ⊢
  any_goals rfl
  exact (ActionProgress.steady_actions _).map _ m more enough ended

/-- A packet-out with an `OUTPUT` to the controller is rebuilt with the longer action. -/
theorem packetOut_preserved_output :
    ∃ out, Settles (fun fuel => Dispatch.normalize .little (fun _ _ => 0) fuel outputMessage)
        (.done out) ∧
      version out = 1 ∧ PacketOut.enetFrame out = [7, 8, 9] ∧
      PacketOut.bufferId out = 0xffffffff ∧ PacketOut.inPort out = 1 ∧
      PacketOut.actions out = [0, 0, 0, 16, 255, 255, 255, 253, 0, 64, 0, 0, 0, 0, 0, 0] ∧
      PacketOut.actionsLen out = 16 ∧ out.length = 43 := by
  obtain ⟨out, settled, preserved⟩ :=
    packetOut_preserved .little (fun _ _ => 0) outputMessage rfl rfl rfl (by decide)
  have steady : Steady fun fuel =>
      Dispatch.normalize .little (fun _ _ => 0) fuel outputMessage := by
    simp only [normalize_packetOut (show version outputMessage = 1 from rfl) rfl rfl (by decide)]
    exact (steady_normalizePacketOutV1 outputMessage).map finishHeader
  have one : version out = 1 := steady.apply_eq settled (m := 2) (by decide +kernel)
  obtain ⟨frame, buffer, port, actions, size, whole⟩ := preserved
    (by rw [versionFlag, one]; decide) (by rw [versionFlag, one]; decide)
  have range : normalisedRange .little 1 0 (actionsV1 outputMessage) =
      [0, 0, 0, 16, 255, 255, 255, 253, 0, 64, 0, 0, 0, 0, 0, 0] := by decide +kernel
  refine ⟨out, settled, one, frame, buffer.trans (by decide), port.trans (by decide), actions,
    size, ?_⟩
  rw [whole, size, frame]
  rfl

end

end Libofp.Normalize.PacketOutPayload
