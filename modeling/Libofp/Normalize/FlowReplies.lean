/- GID: Libofp/Normalize/FlowReplies
   digest: A version 1 flow statistics reply is normalised entry by entry. -/

import Libofp.Normalize.AcceptedActions
import Libofp.Normalize.RecordTiling
import Libofp.Normalize.Termination

set_option autoImplicit false

namespace Libofp.Normalize.FlowReplies

open Octets Octets.ByteRange Octets.ByteList Octets.BigEndian
open Base.Iteration Oxm.Field Messages Messages.Header
open Match.Standard (StandardMatch)
open Actions ActionRewrite ActionSpans
open AcceptedActions FlowMessages
open Ports MultipartReplies Dispatch RecordTiling

/-- A flow statistics entry of version 1: its size, the table id and the match, 44 bytes from
the duration to the counters, and its actions. -/
structure IsFlowEntry (entry : Bytes) : Prop where
  stated : big16 entry 0 = entry.length
  long : 88 ≤ entry.length
  units : (entry.length - 88) % 8 = 0
  accepted : ∃ address, ActionRange.validateInput address (entry.drop 88) = true

def stdMatch (entry : Bytes) : StandardMatch := standardMatchAt entry 4

def newActions (host : Host) (version : Nat) (entry : Bytes) : Bytes :=
  normalisedRange host version (stdMatch entry).nwProto.toNat (entry.drop 88)

def instruction (host : Host) (version : Nat) (entry : Bytes) : Bytes :=
  if 88 < entry.length then
    applyActionsHeader (8 + (newActions host version entry).length) ++
      newActions host version entry
  else []

def newEntry (host : Host) (version : Nat) (entry : Bytes) : Bytes :=
  bigBytes 2 (136 + (instruction host version entry).length) ++ (window entry 2 2 ++
    (window entry 44 44 ++ ((stdMatch entry).toBytes ++ instruction host version entry)))

section

variable {host : Host} {slack : Slack} {w : Walk} {pre entry post : Bytes}

theorem flowMatch_eq (place : At w pre entry post) (long : 88 ≤ entry.length) :
    flowMatch w = stdMatch entry := by
  rw [flowMatch, standardMatchAt, place.window_eq (by omega), stdMatch, standardMatchAt]

theorem flowLength_eq (slack : Slack) (place : At w pre entry post) (valid : IsFlowEntry entry) :
    flowLength slack w = entry.length := by
  have long := valid.long
  have inside : w.start + 2 ≤ w.buf.length := by
    rw [place.buf, place.start, List.length_append, List.length_append]
    omega
  have read := place.window_eq (show 0 + 2 ≤ entry.length by omega)
  rw [flowLength, fetch_eq_window slack inside, ← Nat.add_zero w.start, read, window,
    List.drop_zero, big16_take (by omega), valid.stated]

private theorem entry_parts (entry : Bytes) : entry = window entry 0 2 ++ (window entry 2 2 ++
    (window entry 4 40 ++ (window entry 44 44 ++ entry.drop 88))) := by
  have fields := window_append_drop entry 44 44
  have match_ := window_append_drop entry 4 40
  have table := window_append_drop entry 2 2
  have size := window_append_drop entry 0 2
  rw [fields, match_, table, size, List.drop_zero]

theorem opened_eq (slack : Slack) (place : At w pre entry post) (long : 88 ≤ entry.length)
    {needed : Nat} (enough : 48 ≤ needed) :
    ∃ gap : Bytes, gap.length = needed - 48 ∧ openFlowEntry slack w needed =
      pre ++ (window entry 0 2 ++ (window entry 2 2 ++ (window entry 44 44 ++
        ((stdMatch entry).toBytes ++ (gap ++ (entry.drop 88 ++ post)))))) := by
  have start := place.start
  have fields := place.window_eq (show 44 + 44 ≤ entry.length by omega)
  have matched := flowMatch_eq place long
  have parts := place.buf
  rw [entry_parts entry] at parts
  have size := length_window entry (show 0 + 2 ≤ entry.length by omega)
  have table := length_window entry (show 2 + 2 ≤ entry.length by omega)
  have forty := length_window entry (show 4 + 40 ≤ entry.length by omega)
  have kept := length_window entry (show 44 + 44 ≤ entry.length by omega)
  generalize window entry 0 2 = l at *
  generalize window entry 2 2 = t at *
  generalize window entry 4 40 = m at *
  generalize window entry 44 44 = f at *
  -- The fields go over the match and the first four bytes of their old place.
  have moved : poke w.buf (w.start + 4) f =
      (pre ++ (l ++ (t ++ f))) ++ (f.drop 4 ++ (entry.drop 88 ++ post)) := by
    rw [parts, poke_append_right _ start.symm]
    simp [poke, replace, List.take_append, List.drop_append, List.take_of_length_le,
      List.drop_of_length_le, size, table, forty, kept]
  have front : (pre ++ (l ++ (t ++ f))).length = w.start + 48 := by
    simp only [List.length_append]
    omega
  generalize room : fetch slack (poke w.buf (w.start + 4) f) (w.start + 48) needed = opened
  have wide : opened.length = needed := by
    rw [← room, length_fetch]
  -- The match goes over the start of the gap and the rest of the old fields.
  have inserted : insertUninitialized slack (poke w.buf (w.start + 4) f) (w.start + 48) needed =
      (pre ++ (l ++ (t ++ f))) ++ ((opened ++ f.drop 4).take 88 ++
        ((opened ++ f.drop 4).drop 88 ++ (entry.drop 88 ++ post))) := by
    rw [insertUninitialized, room, moved, List.take_left' front, List.drop_left' front,
      ← List.append_assoc (List.take 88 _), List.take_append_drop]
    simp only [List.append_assoc]
  have standard : ((opened ++ f.drop 4).take 88).length = (stdMatch entry).toBytes.length := by
    rw [Match.Standard.length_toBytes, Match.Standard.ofpmtStandardLength, List.length_take,
      List.length_append, List.length_drop]
    omega
  refine ⟨(opened ++ f.drop 4).drop 88, ?_, ?_⟩
  · rw [List.length_drop, List.length_append, List.length_drop]
    omega
  · simp only [openFlowEntry, fields, matched]
    rw [inserted, poke_append front standard]
    simp only [List.append_assoc]

theorem length_newEntry (host : Host) (long : 88 ≤ entry.length) (version : Nat) :
    (newEntry host version entry).length = 136 + (instruction host version entry).length := by
  have table := length_window entry (show 2 + 2 ≤ entry.length by omega)
  have kept := length_window entry (show 44 + 44 ≤ entry.length by omega)
  simp only [newEntry, List.length_append, length_bigBytes, table, kept,
    Match.Standard.length_toBytes, Match.Standard.ofpmtStandardLength]
  omega

theorem resized (size : Nat) (long : 88 ≤ entry.length) (start : w.start = pre.length)
    (tail : Bytes) : poke (pre ++ (window entry 0 2 ++ tail)) w.start (narrow16 size) =
      pre ++ (bigBytes 2 size ++ tail) := by
  have two := length_window entry (show 0 + 2 ≤ entry.length by omega)
  rw [narrow16_natCast, poke_append start.symm (by rw [two, length_bigBytes])]

private theorem settles_entryActions (host : Host) (slack : Slack) (place : At w pre entry post)
    (front : pre ≠ []) (valid : IsFlowEntry entry) :
    ∃ c gap, gap.length = 8 ∧
      Settles (fun fuel => normActionsV1orV2 host slack fuel (stdMatch entry).nwProto.toNat
        (actionStart slack w)) (.done c) ∧
      c.buf = pre ++ (window entry 0 2 ++ (window entry 2 2 ++ (window entry 44 44 ++
        ((stdMatch entry).toBytes ++ (gap ++ (newActions host (version w.buf) entry ++ post)))))) ∧
      (entry.length : Int) + c.lengthChange =
        88 + (newActions host (version w.buf) entry).length := by
  have long := valid.long
  have start := place.start
  obtain ⟨address, accepted⟩ := valid.accepted
  obtain ⟨gap, eight, opened⟩ := opened_eq slack place long (show 48 ≤ 56 by omega)
  have size := length_window entry (show 0 + 2 ≤ entry.length by omega)
  have table := length_window entry (show 2 + 2 ≤ entry.length by omega)
  have kept := length_window entry (show 44 + 44 ≤ entry.length by omega)
  generalize ahead : pre ++ (window entry 0 2 ++ (window entry 2 2 ++ (window entry 44 44 ++
    ((stdMatch entry).toBytes ++ gap)))) = pre'
  have regroup : ∀ tail : Bytes, pre ++ (window entry 0 2 ++ (window entry 2 2 ++
      (window entry 44 44 ++ ((stdMatch entry).toBytes ++ (gap ++ tail))))) = pre' ++ tail := by
    intro tail
    rw [← ahead]
    simp
  have total : pre'.length = w.start + 144 := by
    rw [← ahead]
    simp only [List.length_append, Match.Standard.length_toBytes,
      Match.Standard.ofpmtStandardLength]
    omega
  have spans : Spans (actionStart slack w) pre' (entry.drop 88) post := by
    refine ⟨?_, total.symm, ?_⟩
    · rwa [List.append_assoc, ← regroup]
    · simp only [actionStart, flowLength_eq slack place valid, List.length_drop, total]
      omega
  have same : version (actionStart slack w).buf = version w.buf := by
    obtain ⟨byte, more, rfl⟩ := List.exists_cons_of_ne_nil front
    simp only [actionStart]
    rw [opened, place.buf]
    rfl
  have filled : pre' ≠ [] := by
    rw [← ahead]
    simp [front]
  obtain ⟨c, settled, result, change⟩ :=
    settles_accepted host slack (stdMatch entry).nwProto.toNat spans filled accepted
  rw [same] at result change
  refine ⟨c, gap, eight, settled, ?_, ?_⟩
  · rw [regroup, result, List.append_assoc]
    rfl
  · rw [List.length_drop] at change
    simp only [actionStart, newActions] at change ⊢
    omega

private theorem settles_entry (host : Host) (slack : Slack) (place : At w pre entry post)
    (front : pre ≠ []) (valid : IsFlowEntry entry) :
    ∃ w', Settles (fun fuel => normalizeMPFlowReplyV1 host slack fuel w) (.done w') ∧
      w'.buf = pre ++ (newEntry host (version w.buf) entry ++ post) ∧
      w'.start = pre.length + (newEntry host (version w.buf) entry).length := by
  have long := valid.long
  have start := place.start
  have length := flowLength_eq slack place valid
  have inside : w.start + entry.length ≤ w.buf.length := by
    rw [place.buf, place.start, List.length_append, List.length_append]
    omega
  have size := length_newEntry host long (version w.buf)
  simp only [normalizeMPFlowReplyV1, length,
    if_neg (show ¬ w.start + entry.length > w.buf.length by omega),
    if_neg (show ¬ entry.length < 88 by omega), valid.units, ne_eq, not_true_eq_false, if_false]
  by_cases actions : 88 < entry.length
  · obtain ⟨c, gap, eight, settled, result, change⟩ :=
      settles_entryActions host slack place front valid
    have behind : instruction host (version w.buf) entry =
        applyActionsHeader (8 + (newActions host (version w.buf) entry).length) ++
          newActions host (version w.buf) entry := if_pos actions
    generalize newActions host (version w.buf) entry = range at result change behind
    simp only [if_pos (show entry.length - 88 > 0 by omega), flowMatch_eq place long]
    have header : (entry.length : Int) - 88 + 8 + c.lengthChange = 8 + range.length := by omega
    have stated : (entry.length : Int) + 56 + c.lengthChange = (144 + range.length : Nat) := by
      omega
    have next : (w.start : Int) + entry.length + 56 + c.lengthChange =
        (w.start + (144 + range.length) : Nat) := by omega
    have counted : (instruction host (version w.buf) entry).length = 8 + range.length := by
      rw [behind, List.length_append, length_applyActionsHeader]
    refine ⟨_, settled.map (closeFlowEntry slack w), ?_, ?_⟩
    · have table := length_window entry (show 0 + 2 ≤ entry.length by omega)
      have fields := length_window entry (show 2 + 2 ≤ entry.length by omega)
      have kept := length_window entry (show 44 + 44 ≤ entry.length by omega)
      have written : poke c.buf (w.start + 136) (applyActionsHeader (8 + range.length)) =
          pre ++ (window entry 0 2 ++ (window entry 2 2 ++ (window entry 44 44 ++
            ((stdMatch entry).toBytes ++ (applyActionsHeader (8 + range.length) ++
              (range ++ post)))))) := by
        rw [result, poke_append_right _ start.symm]
        simp [poke, replace, List.take_append, List.drop_append, List.take_of_length_le,
          List.drop_of_length_le, table, fields, kept, eight, Match.Standard.length_toBytes,
          Match.Standard.ofpmtStandardLength, length_applyActionsHeader]
      simp only [closeFlowEntry, length, header, stated, written]
      rw [resized _ long start, newEntry, counted, behind, ← Nat.add_assoc]
      simp
    · simp only [closeFlowEntry, length, next, size, counted, unsignedCast_natCast]
      omega
  · have bare : entry.length = 88 := by omega
    have none : entry.drop 88 = [] := List.drop_eq_nil_of_le (by omega)
    have nothing : instruction host (version w.buf) entry = [] := if_neg actions
    simp only [if_neg (show ¬ entry.length - 88 > 0 by omega)]
    refine ⟨_, settles_const (by simp), ?_, ?_⟩
    · obtain ⟨gap, empty, opened⟩ := opened_eq slack place long (Nat.le_refl 48)
      obtain rfl := List.eq_nil_of_length_eq_zero empty
      have stored := resized 136 long start (w := w) (window entry 2 2 ++ (window entry 44 44 ++
        ((stdMatch entry).toBytes ++ post)))
      rw [none, List.nil_append, List.nil_append] at opened
      simp only [opened, bare]
      rw [newEntry, nothing]
      simpa using stored
    · simp only [size, nothing, List.length_nil]
      omega

end

private theorem visits_entries (host : Host) (slack : Slack) (entries : List Bytes)
    (all : ∀ entry ∈ entries, IsFlowEntry entry) {w : Walk} {pre : Bytes}
    (place : At w pre entries.flatten []) (front : pre ≠ []) :
    ∃ w', Visits Walk.more (turn host slack .flowV1) w w' ∧
      At w' (pre ++ (entries.map (newEntry host (version w.buf))).flatten) [] [] := by
  have first : version w.buf = version pre := by
    rw [version, place.buf, big8_append _ (List.length_pos_of_ne_nil front), version]
  rw [first]
  -- The version stands in front of all entries.
  refine visits_tiles (fun before => before ≠ [] ∧ version before = version pre) entries ?_ ?_ ?_
    (by rwa [List.map_id]) ⟨front, rfl⟩
  · rintro entry member (rfl : entry = [])
    have long := (all [] member).long
    exact absurd long (by decide)
  · rintro entry - before ⟨filled, same⟩
    refine ⟨by simp [filled], ?_⟩
    rw [version, big8_append _ (List.length_pos_of_ne_nil filled), ← version, same]
  · rintro entry member w before post (here : At w before entry post) ⟨filled, same⟩
    have current : version w.buf = version pre := by
      rw [version, here.buf, big8_append _ (List.length_pos_of_ne_nil filled), ← version, same]
    obtain ⟨w', settled, buf, start⟩ := settles_entry host slack here filled (all entry member)
    rw [current] at buf start
    refine ⟨w', settled, ?_, ?_⟩
    · rw [buf, List.nil_append, List.append_assoc]
    · rw [start, List.length_append]

/-- What a normalised entry says: its own size, the table, the fields from the duration to the
counters and the match of the old entry, and one instruction with the normalised actions if
the old entry has actions. -/
structure Restates (host : Host) (entry entry' : Bytes) : Prop where
  stated : big16 entry' 0 = entry'.length
  tableId : big8 entry' 2 = big8 entry 2
  fields : window entry' 4 44 = window entry 44 44
  matched : window entry' 48 88 = (stdMatch entry).toBytes
  bare : entry.length = 88 → entry'.length = 136
  instructed : 88 < entry.length →
    big16 entry' 136 = 4 ∧ big16 entry' 138 = 8 + (newActions host 1 entry).length ∧
      entry'.drop 144 = newActions host 1 entry ∧ entry'.length = 136 + big16 entry' 138

private theorem restates_newEntry (host : Host) {entry : Bytes} (long : 88 ≤ entry.length)
    (fits : (newEntry host 1 entry).length ≤ 65535) :
    Restates host entry (newEntry host 1 entry) := by
  have size := length_newEntry host long 1
  have two := length_window entry (show 2 + 2 ≤ entry.length by omega)
  have kept := length_window entry (show 44 + 44 ≤ entry.length by omega)
  have std : (stdMatch entry).toBytes.length = 88 := Match.Standard.length_toBytes ..
  have table (y : Bytes) : big8 (window entry 2 2 ++ y) 0 = big8 entry 2 := by
    rw [big8_append _ (by omega), window, big8_take (by omega), big8_drop]
  generalize behind : instruction host 1 entry = tail at size
  have whole : newEntry host 1 entry = bigBytes 2 (136 + tail.length) ++ (window entry 2 2 ++
      (window entry 44 44 ++ ((stdMatch entry).toBytes ++ tail))) := by
    rw [newEntry, behind]
  generalize newEntry host 1 entry = entry' at size whole fits
  refine ⟨?_, ?_, ?_, ?_, ?_, ?_⟩
  · rw [size, whole, big16_here, Nat.mod_eq_of_lt (by omega)]
  · simp [whole, big8_skip, table]
  · simp [whole, window_skip, window_here, two, kept]
  · simp [whole, window_skip, window_here, two, kept, std]
  · intro bare
    rw [instruction, if_neg (by omega)] at behind
    rw [size, ← behind]
    rfl
  · intro actions
    rw [instruction, if_pos actions] at behind
    generalize newActions host 1 entry = range at behind ⊢
    have eight := length_applyActionsHeader (8 + range.length)
    have counted : tail.length = 8 + range.length := by
      rw [← behind, List.length_append, eight]
    have header : big16 (applyActionsHeader (8 + range.length)) 2 = 8 + range.length := by
      rw [show (8 : Int) + range.length = (8 + range.length : Nat) by omega,
        length_of_applyActionsHeader, Nat.mod_eq_of_lt (by omega)]
    have length : big16 entry' 138 = 8 + range.length := by
      simp [whole, big16_skip, two, kept, std, ← behind, big16_append, eight, header]
    refine ⟨?_, length, ?_, ?_⟩
    · simp [whole, big16_skip, two, kept, std, ← behind, big16_append, eight,
        type_applyActionsHeader]
    · simp [whole, List.drop_append, List.drop_of_length_le, two, kept, std, ← behind, eight]
    · rw [size, length, counted]

section

variable {host : Host} {slack : Slack} {head : Bytes} {entries : List Bytes}

private theorem settles_reply (host : Host) (slack : Slack) (twelve : head.length = 12)
    (flow : replyType head = .flowDesc) (all : ∀ entry ∈ entries, IsFlowEntry entry)
    (long : ¬ Header.length (head ++ entries.flatten) < 12) :
    Settles (fun fuel => normalizeMultipartReplyV1 host slack fuel (head ++ entries.flatten))
      (.done (head ++ (List.replicate 4 0 ++
        (entries.map (newEntry host (version head))).flatten))) := by
  have widened : insertZeros (head ++ entries.flatten) 12 4 =
      (head ++ List.replicate 4 0) ++ entries.flatten := by
    rw [insertZeros, ByteList.insert, List.take_left' twelve, List.drop_left' twelve]
  have type : replyType ((head ++ List.replicate 4 0) ++ entries.flatten) = .flowDesc := by
    rw [replyType, List.append_assoc, big16_append _ (by omega), ← replyType, flow]
  have place : At ⟨(head ++ List.replicate 4 0) ++ entries.flatten, sizeofMultipart⟩
      (head ++ List.replicate 4 0) entries.flatten [] := by
    refine ⟨?_, ?_⟩
    · rw [List.append_nil]
    · simp [twelve, sizeofMultipart]
  obtain ⟨w', visited, ended⟩ := visits_entries host slack entries all place (by simp)
  have result := ended.buf
  have same : version ((head ++ List.replicate 4 0) ++ entries.flatten) = version head := by
    rw [version, List.append_assoc, big8_append _ (by omega), version]
  simp only [same] at result
  have settled := (settles_of_visits visited ended).map Walk.buf
  rw [List.append_nil, List.append_nil, List.append_assoc] at result
  rw [result] at settled
  simp only [normalizeMultipartReplyV1, if_neg long, widened, type]
  exact settled

private theorem normalize_reply (old : version head = 1)
    (reply : messageType head = OFPT.multipartReply) (long : 4 ≤ head.length) (body : Bytes)
    (fuel : Nat) :
    Dispatch.normalize host slack fuel (head ++ body) =
      (normalizeMultipartReplyV1 host slack fuel (repairHeader (head ++ body))).map
        finishHeader := by
  have version' : version (head ++ body) = 1 := by
    rw [version, big8_append _ (by omega), ← version, old]
  have type : messageType (head ++ body) = OFPT.multipartReply := by
    rwa [messageType, version, Header.type, big8_append _ (by omega), big8_append _ (by omega)]
  rw [Dispatch.normalize, version', type, Termination.normalizeBody_replyV1]

private theorem restates_entries (host : Host) (all : ∀ entry ∈ entries, IsFlowEntry entry)
    (fits : (entries.map (newEntry host 1)).flatten.length ≤ 65535) :
    List.Forall₂ (Restates host) entries (entries.map (newEntry host 1)) := by
  induction entries with
  | nil => exact .nil
  | cons entry entries ih =>
    rw [List.forall_mem_cons] at all
    rw [List.map_cons, List.flatten_cons, List.length_append] at fits
    exact .cons (restates_newEntry host all.1.long (by omega)) (ih all.2 (by omega))

/-- A version 1 flow statistics reply with well-formed entries that does not become too big is
not marked and has as many entries afterwards; they tile the body and restate the old ones in
order. -/
theorem flowReply_restated (host : Host) (slack : Slack) (head : Bytes) (entries : List Bytes)
    (twelve : head.length = 12) (old : version head = 1)
    (reply : messageType head = OFPT.multipartReply) (flow : replyType head = .flowDesc)
    (size : Header.length head = (head ++ entries.flatten).length)
    (all : ∀ entry ∈ entries, IsFlowEntry entry) :
    ∃ out, Settles (fun fuel => Dispatch.normalize host slack fuel (head ++ entries.flatten))
        (.done out) ∧
      (versionFlag out ≠ tooBigErrorFlag → version out = 1 ∧
        ∃ entries', out.drop 16 = entries'.flatten ∧
          List.Forall₂ (Restates host) entries entries') := by
  have known : messageType (head ++ entries.flatten) ≠ OFPT.unsupported := by
    rw [messageType, version, Header.type, big8_append _ (by omega), big8_append _ (by omega)]
    rw [messageType, version, Header.type] at reply
    rw [reply]
    decide
  obtain ⟨head', repaired, length', drop', stated, kept⟩ :=
    repairHeader_append entries.flatten (by omega) known
  simp only [normalize_reply old reply (by omega), repaired]
  have sized : Header.length (head ++ entries.flatten) = (head ++ entries.flatten).length :=
    (big16_append _ (by omega)).trans size
  have flow' : replyType head' = .flowDesc := by
    rw [← flow, replyType, replyType, show 8 = 4 + 4 from rfl, ← big16_drop, drop', big16_drop]
  have one : version head' = 1 := (kept sized).trans old
  have long : ¬ Header.length (head' ++ entries.flatten) < 12 := by
    have small : Header.length head < 65536 := big16_lt ..
    rw [Header.length, big16_append _ (by omega), ← Header.length, stated,
      Nat.mod_eq_of_lt (by omega), List.length_append]
    omega
  have settled := settles_reply host slack (length'.trans twelve) flow' all long
  rw [one] at settled
  refine ⟨_, settled.map finishHeader, fun small => ?_⟩
  generalize whole : head' ++ (List.replicate 4 0 ++
    (entries.map (newEntry host 1)).flatten) = result at small ⊢
  have length : result.length = 16 + (entries.map (newEntry host 1)).flatten.length := by
    rw [← whole]
    simp only [List.length_append, List.length_replicate, length', twelve]
    omega
  have same : version result = 1 := by
    rw [← whole, version, big8_append _ (by omega), ← version, one]
  have fits := fits_of_versionFlag same (by omega) small
  rw [finishHeader_of_fits fits]
  refine ⟨(version_setLength (by omega) _).trans same, entries.map (newEntry host 1), ?_,
    restates_entries host all ?_⟩
  · rw [setLength, drop_poke (by omega) (by rw [length_bigBytes]; omega), ← whole,
      ← List.append_assoc]
    exact List.drop_left' (by simp [length', twelve])
  · simp only [ofpMaxSize] at fits
    omega

/-- An entry of table 3 with an `OUTPUT` to the controller. -/
def outputEntry : Bytes :=
  [0, 96, 3, 0] ++ List.replicate 40 0 ++ List.replicate 44 7 ++ [0, 0, 0, 8, 255, 253, 0, 64]

private theorem isFlowEntry_outputEntry : IsFlowEntry outputEntry :=
  ⟨by decide, by decide, by decide, 0, by decide⟩

def outputReply : Bytes := [1, 17, 0, 204, 0, 0, 0, 1, 0, 1, 0, 0]

private theorem steady_outputReply :
    Steady fun fuel => Dispatch.normalize .little (fun _ _ => 0) fuel
    (outputReply ++ [outputEntry, outputEntry].flatten) := by
  have flows : (enteredLoop (outputReply ++ [outputEntry, outputEntry].flatten)).map Prod.fst =
      some .flowV1 := by decide +kernel
  obtain ⟨⟨kind, start⟩, entered, -⟩ := Option.map_eq_some_iff.mp flows
  simp only [Termination.normalize_of_entered entered]
  exact (steady_whileLoop (Termination.steady_turn kind) start).map _

theorem flowReply_restated_two :
    ∃ out entries', Settles (fun fuel => Dispatch.normalize .little (fun _ _ => 0) fuel
        (outputReply ++ [outputEntry, outputEntry].flatten)) (.done out) ∧
      version out = 1 ∧ out.length = 336 ∧ out.drop 16 = entries'.flatten ∧
      List.Forall₂ (Restates .little) [outputEntry, outputEntry] entries' := by
  obtain ⟨out, settled, restated⟩ := flowReply_restated .little (fun _ _ => 0) outputReply
    [outputEntry, outputEntry] rfl (by decide) (by decide) (by decide) (by decide +kernel)
    (by simp [isFlowEntry_outputEntry])
  have shown : (versionFlag out, out.length) = (0, 336) := steady_outputReply.apply_eq settled
    (f := fun out => (versionFlag out, out.length)) (m := 3) (by decide +kernel)
  obtain ⟨flag, length⟩ := Prod.mk.inj shown
  obtain ⟨one, entries', tiles, all⟩ := restated (by rw [flag]; decide)
  exact ⟨out, entries', settled, one, length, tiles, all⟩

end

end Libofp.Normalize.FlowReplies
