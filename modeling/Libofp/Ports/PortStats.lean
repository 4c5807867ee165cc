/- GID: Libofp/Ports/PortStats
   digest: Port statistics as each version has them on the wire, and back. -/

import Libofp.Multipart.Sending
import Libofp.Normalize.RecordTiling
import Libofp.Normalize.Termination
import Libofp.Wire.PropertySearch

set_option autoImplicit false

namespace Libofp.Ports.PortStats

open Octets.ByteRange Octets.ByteList Octets.BigEndian
open Base.Iteration Oxm.Field Messages Messages.Header
open Messages.Builders (headerBytes length_headerBytes length_of_headerBytes)
open Multipart.Sending Wire.PaddedElements Wire.PropertySearch
open Normalize.ActionRewrite Normalize.MultipartReplies
open Normalize.Ports (sizeofMultipart)
open Normalize.RecordTiling Normalize.Dispatch

structure DurationSec where
  sec : BitVec 32
  nsec : BitVec 32
  deriving DecidableEq, Repr

/-- `MPPortStats` without its length, which follows from the properties. -/
structure MPPortStats where
  portNo : BitVec 32
  duration : DurationSec
  rxPackets : BitVec 64
  txPackets : BitVec 64
  rxBytes : BitVec 64
  txBytes : BitVec 64
  rxDropped : BitVec 64
  txDropped : BitVec 64
  rxErrors : BitVec 64
  txErrors : BitVec 64
  deriving DecidableEq, Repr

structure PortStatsPropertyEthernet where
  rxFrameErr : BitVec 64
  rxOverErr : BitVec 64
  rxCrcErr : BitVec 64
  collisions : BitVec 64
  deriving DecidableEq, Repr

def DurationSec.bytes (d : DurationSec) : Bytes :=
  bigBytes 4 d.sec.toNat ++ bigBytes 4 d.nsec.toNat

/-- The 64 bytes from `rxPackets_` on. -/
def MPPortStats.counters (s : MPPortStats) : Bytes :=
  bigBytes 8 s.rxPackets.toNat ++ bigBytes 8 s.txPackets.toNat ++ bigBytes 8 s.rxBytes.toNat ++
    bigBytes 8 s.txBytes.toNat ++ bigBytes 8 s.rxDropped.toNat ++ bigBytes 8 s.txDropped.toNat ++
    bigBytes 8 s.rxErrors.toNat ++ bigBytes 8 s.txErrors.toNat

namespace PortStatsPropertyEthernet

/-- `OFPPSPT_ETHERNET`. -/
def type : Nat := 0

def header : Bytes := bigBytes 2 type ++ bigBytes 2 40 ++ List.replicate 4 0

/-- The 32 bytes from `rxFrameErr_` on. -/
def counters (eth : PortStatsPropertyEthernet) : Bytes :=
  bigBytes 8 eth.rxFrameErr.toNat ++ bigBytes 8 eth.rxOverErr.toNat ++
    bigBytes 8 eth.rxCrcErr.toNat ++ bigBytes 8 eth.collisions.toNat

def bytes (eth : PortStatsPropertyEthernet) : Bytes := header ++ eth.counters

end PortStatsPropertyEthernet

/-- `MPPortStatsBuilder`: the fixed part and the bytes of the property list. -/
structure MPPortStatsBuilder where
  msg : MPPortStats
  properties : Bytes
  deriving DecidableEq, Repr

/-- The memory of `msg_`, with the length that `updateLen` has set. -/
def MPPortStatsBuilder.msgBytes (b : MPPortStatsBuilder) : Bytes :=
  bigBytes 2 (80 + b.properties.length) ++ List.replicate 2 0 ++ bigBytes 4 b.msg.portNo.toNat ++
    b.msg.duration.bytes ++ b.msg.counters

/-- `MPPortStatsBuilder::write`: what goes to a channel of a version. -/
def MPPortStatsBuilder.write (version : Nat) (b : MPPortStatsBuilder) : Bytes :=
  if version ≥ 5 then b.msgBytes ++ b.properties
  else
    (if version = 1 then bigBytes 2 b.msg.portNo.toNat ++ List.replicate 6 0
      else bigBytes 4 b.msg.portNo.toNat ++ List.replicate 4 0) ++
    b.msg.counters ++
    (match findProperty PortStatsPropertyEthernet.type b.properties with
      | some eth => window eth 8 32
      | none => List.replicate 32 0) ++
    if version = 4 then b.msg.duration.bytes else []

section

/-- The value of a `Big64` field. -/
def big64 (data : Bytes) (offset : Nat) : BitVec 64 :=
  BitVec.ofNat 64 (bigNat (window data offset 8))

/-- The fields of an `MPPortStats` in memory. -/
def readStats (record : Bytes) : MPPortStats where
  portNo := BitVec.ofNat 32 (big32 record 4)
  duration := ⟨BitVec.ofNat 32 (big32 record 8), BitVec.ofNat 32 (big32 record 12)⟩
  rxPackets := big64 record 16
  txPackets := big64 record 24
  rxBytes := big64 record 32
  txBytes := big64 record 40
  rxDropped := big64 record 48
  txDropped := big64 record 56
  rxErrors := big64 record 64
  txErrors := big64 record 72

def readEthernet (property : Bytes) : PortStatsPropertyEthernet where
  rxFrameErr := big64 property 8
  rxOverErr := big64 property 16
  rxCrcErr := big64 property 24
  collisions := big64 property 32

def properties (record : Bytes) : Bytes := safeByteRange (record.take (big16 record 0)) 80

structure PortRecord where
  stats : MPPortStats
  ethernet : PortStatsPropertyEthernet
  deriving DecidableEq, Repr

def PortRecord.builder (r : PortRecord) : MPPortStatsBuilder := ⟨r.stats, r.ethernet.bytes⟩

def PortRecord.bytes (r : PortRecord) : Bytes := r.builder.write 5

def readRecord (record : Bytes) : Option PortRecord :=
  (findProperty PortStatsPropertyEthernet.type (properties record)).map fun eth =>
    ⟨readStats record, readEthernet eth⟩

variable {x : Bytes} (y : Bytes) {pos : Nat}

theorem big64_skip (behind : x.length ≤ pos) : big64 (x ++ y) pos = big64 y (pos - x.length) := by
  rw [big64, big64, window_skip y behind]

theorem big64_here (value : BitVec 64) : big64 (bigBytes 8 value.toNat ++ y) 0 = value := by
  rw [big64, window_here y (length_bigBytes ..), bigNat_bigBytes,
    Nat.mod_eq_of_lt (by omega), BitVec.ofNat_toNat, BitVec.setWidth_eq]

private theorem ofNat_big32_here (value : BitVec 32) :
    BitVec.ofNat 32 (big32 (bigBytes 4 value.toNat ++ y) 0) = value := by
  rw [big32_here, Nat.mod_eq_of_lt value.isLt, BitVec.ofNat_toNat, BitVec.setWidth_eq]

end

@[simp] theorem length_duration (d : DurationSec) : d.bytes.length = 8 := by
  simp [DurationSec.bytes]

@[simp] theorem length_counters (s : MPPortStats) : s.counters.length = 64 := by
  simp [MPPortStats.counters]

@[simp] theorem length_header : PortStatsPropertyEthernet.header.length = 8 := rfl

section

variable (eth : PortStatsPropertyEthernet)

@[simp] theorem length_ethernetCounters : eth.counters.length = 32 := by
  simp [PortStatsPropertyEthernet.counters]

@[simp] theorem length_ethernet : eth.bytes.length = 40 := by
  simp [PortStatsPropertyEthernet.bytes]

theorem findProperty_ethernet :
    findProperty PortStatsPropertyEthernet.type eth.bytes = some eth.bytes := by
  have type : big16 eth.bytes 0 = PortStatsPropertyEthernet.type := by
    rw [PortStatsPropertyEthernet.bytes, big16_append _ (by simp)]
    rfl
  have size : big16 eth.bytes 2 = 40 := by
    rw [PortStatsPropertyEthernet.bytes, big16_append _ (by simp)]
    rfl
  refine findProperty_single type ?_
  rw [Spans, size, length_ethernet]
  rfl

private theorem window_ethernet : window eth.bytes 8 32 = eth.counters := by
  rw [PortStatsPropertyEthernet.bytes, window_skip _ (by simp), length_header, Nat.sub_self, window,
    List.drop_zero, List.take_of_length_le (by simp)]

end

theorem PortRecord.bytes_eq (r : PortRecord) : r.bytes =
    bigBytes 2 120 ++ (List.replicate 2 0 ++ (bigBytes 4 r.stats.portNo.toNat ++
      (r.stats.duration.bytes ++ (r.stats.counters ++
        (PortStatsPropertyEthernet.header ++ r.ethernet.counters))))) := by
  rw [PortRecord.bytes, MPPortStatsBuilder.write, if_pos (by omega), MPPortStatsBuilder.msgBytes]
  simp only [PortRecord.builder, length_ethernet]
  simp [PortStatsPropertyEthernet.bytes]

@[simp] theorem PortRecord.length_bytes (r : PortRecord) : r.bytes.length = 120 := by
  simp [PortRecord.bytes_eq]

theorem PortRecord.length_field (r : PortRecord) : big16 r.bytes 0 = 120 := by
  rw [PortRecord.bytes_eq, big16_here]

private theorem readRecord_bytes (r : PortRecord) : readRecord r.bytes = some r := by
  have size := r.length_field
  have tail : properties r.bytes = r.ethernet.bytes := by
    rw [properties, size, List.take_of_length_le (by simp), safeByteRange_eq_drop,
      PortRecord.bytes_eq]
    simp only [← List.append_assoc]
    rw [List.append_assoc _ PortStatsPropertyEthernet.header]
    exact List.drop_left' (by simp)
  have stats : readStats r.bytes = r.stats := by
    have two : (List.replicate 2 (0 : UInt8)).length = 2 := rfl
    rw [PortRecord.bytes_eq]
    generalize List.replicate 2 (0 : UInt8) = pad at two
    simp [readStats, DurationSec.bytes, MPPortStats.counters, big32_skip, ofNat_big32_here,
      big64_skip, big64_here, two]
  have ethernet : readEthernet r.ethernet.bytes = r.ethernet := by
    have eight := length_header
    have last := big64_here [] r.ethernet.collisions
    rw [List.append_nil] at last
    rw [PortStatsPropertyEthernet.bytes]
    generalize PortStatsPropertyEthernet.header = header at eight
    simp [readEthernet, PortStatsPropertyEthernet.counters, big64_skip, big64_here, eight, last]
  rw [readRecord, tail, findProperty_ethernet, Option.map_some, stats, ethernet]

section

variable {w : Walk} {pre post portNo pad counters ethernet duration : Bytes}

private theorem moved_eq {opened : Bytes} (four : portNo.length = 4) (padded : pad.length = 4)
    (counted : counters.length = 64) (errors : ethernet.length = 32)
    (lasted : duration.length = 8) (eight : opened.length = 8) (post : Bytes) :
    let record := portNo ++ (pad ++ (counters ++ (ethernet ++ (duration ++ (opened ++ post)))))
    let swapped := poke record 0 (window record 4 4 ++ window record 0 4)
    let shifted := poke swapped 16 (window swapped 8 64)
    let dated := poke shifted 8 (window shifted 104 8)
    let closed := poke dated 80 (PortStatsPropertyEthernet.header ++ window swapped 72 32)
    poke closed 0 (bigBytes 2 120) = bigBytes 2 120 ++ (pad.drop 2 ++ (portNo ++ (duration ++
      (counters ++ (PortStatsPropertyEthernet.header ++ (ethernet ++ post)))))) := by
  intro record swapped shifted dated closed
  have swapped_eq : swapped =
      pad ++ (portNo ++ (counters ++ (ethernet ++ (duration ++ (opened ++ post))))) := by
    simp [swapped, record, poke, replace, window, List.take_append, List.drop_append, four, padded,
      List.drop_of_length_le]
  -- The counters go over their own last bytes and the first eight of the Ethernet counters.
  have shifted_eq : shifted = pad ++ (portNo ++ (counters.take 8 ++ (counters ++
      (ethernet.drop 8 ++ (duration ++ (opened ++ post)))))) := by
    simp [shifted, swapped_eq, poke, replace, window, List.take_append, List.drop_append, four,
      padded, counted, errors, List.take_of_length_le, List.drop_of_length_le]
  have dated_eq : dated = pad ++ (portNo ++ (duration ++ (counters ++
      (ethernet.drop 8 ++ (duration ++ (opened ++ post)))))) := by
    simp [dated, shifted_eq, poke, replace, window, List.take_append, List.drop_append, four,
      padded, counted, errors, lasted, List.take_of_length_le, List.drop_of_length_le]
  have closed_eq : closed = pad ++ (portNo ++ (duration ++ (counters ++
      (PortStatsPropertyEthernet.header ++ (ethernet ++ post))))) := by
    simp [closed, dated_eq, swapped_eq, poke, replace, window, List.take_append, List.drop_append,
      four, padded, counted, errors, lasted, eight, List.take_of_length_le, List.drop_of_length_le]
  simp [closed_eq, poke, replace, List.drop_append, padded]

theorem normalizeMPPortStatsReplyV4_eq (slack : Slack) (four : portNo.length = 4)
    (padded : pad.length = 4) (counted : counters.length = 64) (errors : ethernet.length = 32)
    (lasted : duration.length = 8)
    (place : At w pre (portNo ++ (pad ++ (counters ++ (ethernet ++ duration)))) post) :
    normalizeMPPortStatsReplyV4 slack w =
      ⟨pre ++ (bigBytes 2 120 ++ (pad.drop 2 ++ (portNo ++ (duration ++ (counters ++
        (PortStatsPropertyEthernet.header ++ (ethernet ++ post))))))), w.start + 120⟩ := by
  have start := place.start
  have whole := place.buf
  have room : ¬ w.remaining < 112 := by
    rw [place.remaining_eq]
    simp only [List.length_append]
    omega
  generalize gap : fetch slack w.buf (w.start + 112) 8 = opened
  have eight : opened.length = 8 := by rw [← gap, length_fetch]
  have inserted : insertUninitialized slack w.buf (w.start + 112) 8 =
      pre ++ (portNo ++ (pad ++ (counters ++ (ethernet ++ (duration ++ (opened ++ post)))))) := by
    rw [insertUninitialized, gap, whole, start]
    simp [List.take_append, List.drop_append, List.take_of_length_le, List.drop_of_length_le, four,
      padded, counted, errors, lasted]
  have moved := moved_eq four padded counted errors lasted eight post
  have read := fun y len => window_append_right y start.symm 0 len
  have readAt := fun y k len => window_append_right y start.symm k len
  have stored := fun y data => poke_append_right y start.symm 0 data
  have storedAt := fun y k data => poke_append_right y start.symm k data
  simp only [Nat.add_zero] at read stored
  simp only [normalizeMPPortStatsReplyV4, if_neg room, inserted, read, readAt, stored, storedAt]
  exact congrArg (fun buf => Walk.mk (pre ++ buf) (w.start + 120)) moved

theorem normalizeMPPortStatsReplyV2_eq (slack : Slack) (four : portNo.length = 4)
    (padded : pad.length = 4) (counted : counters.length = 64) (errors : ethernet.length = 32)
    (place : At w pre (portNo ++ (pad ++ (counters ++ ethernet))) post) :
    normalizeMPPortStatsReplyV2 slack w =
      ⟨pre ++ (bigBytes 2 120 ++ (pad.drop 2 ++ (portNo ++ (List.replicate 8 0 ++ (counters ++
        (PortStatsPropertyEthernet.header ++ (ethernet ++ post))))))), w.start + 120⟩ := by
  have start := place.start
  have room : ¬ w.remaining < 104 := by
    rw [place.remaining_eq]
    simp only [List.length_append]
    omega
  have widened : At { w with buf := insertZeros w.buf (w.start + 104) 8 } pre
      (portNo ++ (pad ++ (counters ++ (ethernet ++ List.replicate 8 0)))) post := by
    refine ⟨?_, start⟩
    rw [insertZeros, Octets.ByteList.insert, place.buf, start]
    simp [List.take_append, List.drop_append, List.take_of_length_le, List.drop_of_length_le, four,
      padded, counted, errors]
  rw [normalizeMPPortStatsReplyV2, if_neg room]
  exact normalizeMPPortStatsReplyV4_eq slack four padded counted errors rfl widened

private theorem normalizeMPPortStatsReplyV1_eq (slack : Slack) {port : Nat} {tail : Bytes}
    (long : 102 ≤ tail.length) (place : At w pre (bigBytes 2 port ++ tail) post) :
    normalizeMPPortStatsReplyV1 slack w = normalizeMPPortStatsReplyV2 slack { w with
      buf := pre ++ (bigBytes 4 (normPortNumberV1 (port % 65536)) ++ (tail.drop 2 ++ post)) } := by
  have start := place.start
  have enough := place.remaining_eq
  rw [List.length_append, length_bigBytes] at enough
  have number : big16 w.buf w.start = port % 65536 := by
    rw [place.buf, List.append_assoc, big16_within _ start.symm]
  have widened : poke w.buf w.start (bigBytes 4 (normPortNumberV1 (port % 65536))) =
      pre ++ (bigBytes 4 (normPortNumberV1 (port % 65536)) ++ (tail.drop 2 ++ post)) := by
    have fits : 2 - tail.length = 0 := by omega
    rw [place.buf, start]
    simp [poke, replace, List.drop_append, List.drop_of_length_le, fits]
  have same : w.remaining = Walk.remaining { w with
      buf := pre ++ (bigBytes 4 (normPortNumberV1 (port % 65536)) ++ (tail.drop 2 ++ post)) } := by
    rw [enough, Walk.remaining]
    simp only [List.length_append, length_bigBytes, List.length_drop]
    omega
  rw [normalizeMPPortStatsReplyV1, normalizeMPPortStatsReplyV2, ← same, if_neg (by omega),
    if_neg (by omega)]
  simp only [number, widened]

end

section

def recordKind (version : Nat) : RecordKind :=
  if version = 1 then .portStatsV1 else if version = 4 then .portStatsV4 else .portStatsV2

def Narrow (port : BitVec 32) : Prop := port.toNat ≤ 0xFF00 ∨ 0xFFFFFF01 ≤ port.toNat

structure PortRecord.Fits (version : Nat) (r : PortRecord) : Prop where
  narrow : version = 1 → Narrow r.stats.portNo
  idle : version < 4 → r.stats.duration = ⟨0, 0⟩

theorem PortRecord.Fits.duration_bytes {version : Nat} {r : PortRecord} (fits : r.Fits version)
    (early : version < 4) : r.stats.duration.bytes = List.replicate 8 0 := by
  rw [fits.idle early]
  rfl

private theorem normPortNumberV1_of_narrow {port : BitVec 32} (narrow : Narrow port) :
    normPortNumberV1 (port.toNat % 65536) = port.toNat := by
  rw [normPortNumberV1]
  rcases narrow with real | fake <;> split <;> omega

variable {w : Walk} {pre post : Bytes} {r : PortRecord}

theorem PortRecord.write_eq (r : PortRecord) {version : Nat} (old : version < 5) :
    r.builder.write version =
      (if version = 1 then bigBytes 2 r.stats.portNo.toNat ++ List.replicate 6 0
        else bigBytes 4 r.stats.portNo.toNat ++ List.replicate 4 0) ++ (r.stats.counters ++
      (r.ethernet.counters ++ if version = 4 then r.stats.duration.bytes else [])) := by
  rw [MPPortStatsBuilder.write, if_neg (by omega)]
  simp [PortRecord.builder, findProperty_ethernet, window_ethernet]

private theorem at_record (r : PortRecord) (post : Bytes) (start : w.start = pre.length) :
    At ⟨pre ++ (bigBytes 2 120 ++ (List.replicate 2 0 ++ (bigBytes 4 r.stats.portNo.toNat ++
      (r.stats.duration.bytes ++ (r.stats.counters ++ (PortStatsPropertyEthernet.header ++
        (r.ethernet.counters ++ post))))))), w.start + 120⟩ (pre ++ r.bytes) [] post := by
  constructor
  · simp [r.bytes_eq]
  · rw [List.length_append, r.length_bytes, start]

private theorem replaces_record (host : Host) (slack : Slack) {version : Nat}
    (known : 1 ≤ version ∧ version ≤ 4) (fits : r.Fits version)
    (place : At w pre (r.builder.write version) post) :
    Replaces host slack (recordKind version) w pre r.bytes post := by
  have done := at_record r post place.start
  rw [r.write_eq (by omega)] at place
  rw [Replaces, recordKind]
  by_cases one : version = 1
  · rw [if_pos one, if_neg (by omega), List.append_nil, List.append_assoc] at place
    have widened := normalizeMPPortStatsReplyV1_eq slack (by simp) place
    rw [normPortNumberV1_of_narrow (fits.narrow one)] at widened
    have there : At { w with buf := pre ++ (bigBytes 4 r.stats.portNo.toNat ++
        ((List.replicate 6 0 ++ (r.stats.counters ++ r.ethernet.counters)).drop 2 ++ post)) } pre
          (bigBytes 4 r.stats.portNo.toNat ++ (List.replicate 4 0 ++ (r.stats.counters ++
            r.ethernet.counters))) post :=
      ⟨rfl, place.start⟩
    have turned := normalizeMPPortStatsReplyV2_eq slack (length_bigBytes ..) rfl
      (length_counters _) (length_ethernetCounters _) there
    have settled : Settles (fun fuel => turn host slack .portStatsV1 fuel w)
        (.done (normalizeMPPortStatsReplyV1 slack w)) := settles_const (by simp)
    rw [widened, turned] at settled
    rw [fits.duration_bytes (by omega)] at done
    rw [if_pos one]
    exact ⟨_, settled, done⟩
  rw [if_neg one] at place ⊢
  by_cases four : version = 4
  · rw [if_pos four, List.append_assoc] at place
    have turned := normalizeMPPortStatsReplyV4_eq slack (length_bigBytes ..) rfl
      (length_counters _) (length_ethernetCounters _) (length_duration _) place
    have settled : Settles (fun fuel => turn host slack .portStatsV4 fuel w)
        (.done (normalizeMPPortStatsReplyV4 slack w)) := settles_const (by simp)
    rw [turned] at settled
    rw [if_pos four]
    exact ⟨_, settled, done⟩
  · rw [if_neg four, List.append_nil, List.append_assoc] at place
    have turned := normalizeMPPortStatsReplyV2_eq slack (length_bigBytes ..) rfl
      (length_counters _) (length_ethernetCounters _) place
    have settled : Settles (fun fuel => turn host slack .portStatsV2 fuel w)
        (.done (normalizeMPPortStatsReplyV2 slack w)) := settles_const (by simp)
    rw [turned] at settled
    rw [fits.duration_bytes (by omega)] at done
    rw [if_neg four]
    exact ⟨_, settled, done⟩

end

section

/-- `OFPMP_PORT_STATS`. -/
def mpPortStats : BitVec 16 := 4

def replyBody (version : Nat) (stats : List PortRecord) : Bytes :=
  (stats.map fun r => r.builder.write version).flatten

/-- A `PORT_STATS` reply with the records as its body, sent to an empty channel. -/
def portStatsReply (version : Nat) (xid : BitVec 32) (flags : BitVec 16)
    (stats : List PortRecord) : Bytes :=
  (send reply ⟨version, 0, 0, xid, mpPortStats, flags, replyBody version stats⟩
    ⟨[], xid, version⟩).2.buf

theorem version_headerBytes {version type : Nat} (length xid : Nat) (rest : Bytes)
    (small : version < 256) :
    Header.version (headerBytes version type length xid ++ rest) = version := by
  rw [Header.version, headerBytes]
  simp only [List.append_assoc]
  rw [big8_here, Nat.mod_eq_of_lt small]

theorem messageType_headerBytes {version type : Nat} (length xid : Nat) (rest : Bytes)
    (small : version < 256) (known : type < 256) :
    messageType (headerBytes version type length xid ++ rest) = translateType version type 4 := by
  have second : Header.type (headerBytes version type length xid ++ rest) = type := by
    rw [Header.type, headerBytes]
    simp only [List.append_assoc]
    rw [big8_within _ (length_bigBytes ..), Nat.mod_eq_of_lt known]
  rw [messageType, version_headerBytes length xid rest small, second]

private theorem repairHeader_headerBytes {version type length : Nat} (xid : Nat) (rest : Bytes)
    (small : version < 256) (known : type < 256)
    (supported : translateType version type 4 ≠ OFPT.unsupported) (size : length = 8 + rest.length)
    (fits : length < 65536) :
    repairHeader (headerBytes version type length xid ++ rest) =
      headerBytes version (translateType version type 4) length xid ++ rest := by
  have typed : ∀ new, setType (headerBytes version type length xid ++ rest) new =
      headerBytes version new length xid ++ rest := by
    intro new
    rw [setType, headerBytes, headerBytes]
    simp only [List.append_assoc]
    exact poke_append (length_bigBytes ..) (by simp)
  have stated := @length_of_headerBytes version xid (translateType version type 4) length rest fits
  have total : (headerBytes version (translateType version type 4) length xid ++ rest).length =
      length := by
    rw [List.length_append, length_headerBytes, size]
  simp only [repairHeader, messageType_headerBytes length xid rest small known, if_neg supported,
    typed, stated, total, ne_eq, not_true_eq_false, if_false]

variable {version : Nat} {stats : List PortRecord}

private theorem length_replyBody_le (old : version < 5) (stats : List PortRecord) :
    (replyBody version stats).length ≤ 112 * stats.length := by
  induction stats with
  | nil => exact Nat.le_refl 0
  | cons r stats ih =>
    have size : (r.builder.write version).length ≤ 112 := by
      rw [r.write_eq old]
      split <;> split <;> simp
    rw [replyBody, List.map_cons, List.flatten_cons, List.length_append, ← replyBody,
      List.length_cons]
    omega

def replyHead (version : Nat) (xid : BitVec 32) (flags : BitVec 16) (body : Bytes) : Bytes :=
  headerBytes version OFPT.multipartReply (body.length + headSize version) xid.toNat ++
    (bigBytes 2 mpPortStats.toNat ++ (bigBytes 2 flags.toNat ++ List.replicate 4 0))

private theorem length_replyHead (xid : BitVec 32) (flags : BitVec 16) (body : Bytes) :
    (replyHead version xid flags body).length = 16 := by
  simp [replyHead, length_headerBytes]

private theorem replyType_replyHead (xid : BitVec 32) (flags : BitVec 16) (body rest : Bytes) :
    replyType (replyHead version xid flags body ++ rest) = .portStats := by
  rw [replyType, replyHead, List.append_assoc, List.append_assoc,
    big16_within _ (length_headerBytes ..)]
  rfl

private theorem version_replyHead (small : version < 256) (xid : BitVec 32) (flags : BitVec 16)
    (body rest : Bytes) : Header.version (replyHead version xid flags body ++ rest) = version := by
  rw [replyHead, List.append_assoc, version_headerBytes _ _ _ small]

private theorem portStatsReply_eq (xid : BitVec 32) (flags : BitVec 16) :
    portStatsReply version xid flags stats =
      headerBytes version (if version = 1 then 17 else OFPT.multipartReply)
        ((replyBody version stats).length + headSize version) xid.toNat ++
      (bigBytes 2 mpPortStats.toNat ++ (bigBytes 2 flags.toNat ++
        ((if version = 1 then [] else List.replicate 4 0) ++ replyBody version stats))) := by
  simp only [portStatsReply, send, reply, MultipartBuilder.msg, headSize, List.nil_append]
  split
  · rw [List.take_left' (by simp [length_headerBytes])]
    simp
  · rw [List.take_of_length_le (by simp [length_headerBytes])]
    simp

private theorem enteredLoop_header {type length xid : Nat} {rest : Bytes} (first : version ≠ 0)
    (small : version < 256) (known : type < 256)
    (reply : translateType version type 4 = OFPT.multipartReply)
    (size : length = 8 + rest.length) (fits : length < 65536) (whole : headSize version ≤ length) :
    let repaired := headerBytes version OFPT.multipartReply length xid ++ rest
    enteredLoop (headerBytes version type length xid ++ rest) =
      if version = 1 then enteredBy (replyPlanV1 (replyType (insertZeros repaired 12 4)))
        (insertZeros repaired 12 4)
      else enteredBy (laterReplyPlan version (replyType repaired)) repaired := by
  have repaired := repairHeader_headerBytes xid rest small known (by rw [reply]; decide) size fits
  have kind := messageType_headerBytes length xid rest small known
  have stated := @length_of_headerBytes version xid OFPT.multipartReply length rest fits
  rw [reply] at repaired kind
  rw [headSize] at whole
  simp only [enteredLoop, kind, repaired, stated, sizeofMultipart,
    version_headerBytes length xid rest small, first, ne_eq, not_true_eq_false, or_self, if_false]
  by_cases one : version = 1
  · rw [if_pos one] at whole ⊢
    rw [if_pos one, if_neg (by omega)]
  · rw [if_neg one] at whole ⊢
    rw [if_neg one, if_neg (by omega)]

private theorem enteredLoop_portStatsReply (known : 1 ≤ version ∧ version ≤ 4) (xid : BitVec 32)
    (flags : BitVec 16) (fits : 16 + (replyBody version stats).length ≤ 65535) :
    enteredLoop (portStatsReply version xid flags stats) =
      some (recordKind version, ⟨replyHead version xid flags (replyBody version stats) ++
        replyBody version stats, sizeofMultipart⟩) := by
  have type := @replyType_replyHead version xid flags (replyBody version stats)
    (replyBody version stats)
  have head : headSize version ≤ 16 := by
    rw [headSize]
    split <;> decide
  rw [portStatsReply_eq]
  generalize replyBody version stats = body at fits type ⊢
  rw [enteredLoop_header (by omega) (by omega) (by split <;> decide) ?_ ?_ (by omega) (by omega)]
  · split
    · next one =>
      have widened : insertZeros (headerBytes version OFPT.multipartReply
          (body.length + headSize version) xid.toNat ++ (bigBytes 2 mpPortStats.toNat ++
            (bigBytes 2 flags.toNat ++ ([] ++ body)))) 12 4 =
          replyHead version xid flags body ++ body := by
        simp [insertZeros, Octets.ByteList.insert, replyHead, List.take_append, List.drop_append,
          List.take_of_length_le, List.drop_of_length_le, length_headerBytes]
      rw [widened, type, one]
      rfl
    · next later =>
      have plan : laterReplyPlan version .portStats = .records (recordKind version) := by
        obtain rfl | rfl | rfl : version = 2 ∨ version = 3 ∨ version = 4 := by omega
        all_goals rfl
      have whole : headerBytes version OFPT.multipartReply (body.length + headSize version)
          xid.toNat ++ (bigBytes 2 mpPortStats.toNat ++ (bigBytes 2 flags.toNat ++
            (List.replicate 4 0 ++ body))) = replyHead version xid flags body ++ body := by
        simp only [replyHead, List.append_assoc]
      rw [whole, type, plan]
      rfl
  · obtain rfl | rfl | rfl | rfl : version = 1 ∨ version = 2 ∨ version = 3 ∨ version = 4 := by
      omega
    all_goals rfl
  · rw [headSize]
    split <;> simp <;> omega

private theorem length_recordBytes (stats : List PortRecord) :
    (stats.map PortRecord.bytes).flatten.length = 120 * stats.length := by
  induction stats with
  | nil => rfl
  | cons r stats ih =>
    rw [List.map_cons, List.flatten_cons, List.length_append, r.length_bytes, ih, List.length_cons]
    omega

/-- The records of a reply are the ones that were written, byte for byte what the builder writes
in version 5, and the loop stops where they end. -/
theorem portStats_survive (host : Host) (slack : Slack) (version : Nat)
    (known : 1 ≤ version ∧ version ≤ 4) (xid : BitVec 32) (flags : BitVec 16)
    (stats : List PortRecord) (all : ∀ r ∈ stats, r.Fits version)
    (fits : 16 + 120 * stats.length ≤ 65535) :
    (∃ out, Settles (fun fuel => Normalize.Dispatch.normalize host slack fuel
        (portStatsReply version xid flags stats)) (.done out) ∧
      Header.version out = version ∧ Header.length out = out.length ∧
      ∃ found : List Bytes, out.drop sizeofMultipart = found.flatten ∧
        (∀ record ∈ found, record.length = 120 ∧ big16 record 0 = 120) ∧
        found = stats.map PortRecord.bytes ∧ found.map readRecord = stats.map some) ∧
    ∃ kind start stop, enteredLoop (portStatsReply version xid flags stats) = some (kind, start) ∧
      Settles (fun fuel => records host slack kind fuel start) (.done stop) ∧
      stop.start = stop.buf.length := by
  have size := length_replyBody_le (show version < 5 by omega) stats
  have entered := @enteredLoop_portStatsReply version stats known xid flags (by omega)
  have sixteen := @length_replyHead version xid flags (replyBody version stats)
  have first := version_replyHead (show version < 256 by omega) xid flags
    (replyBody version stats)
  generalize replyHead version xid flags (replyBody version stats) = head at entered sixteen first
  have place : At ⟨head ++ replyBody version stats, sizeofMultipart⟩ head
      (stats.map fun r => r.builder.write version).flatten [] := by
    refine ⟨?_, sixteen.symm⟩
    rw [List.append_nil, replyBody]
  have filled : ∀ r ∈ stats, r.builder.write version ≠ [] := by
    intro r _ empty
    have longer := congrArg List.length empty
    rw [r.write_eq (by omega), List.length_append, List.length_append, length_counters,
      List.length_nil] at longer
    omega
  obtain ⟨stop, visited, ended⟩ := visits_tiles (fun _ => True) stats filled
    (fun _ _ _ _ => trivial)
    (fun r member w pre post here _ => replaces_record host slack known (all r member) here)
    place trivial
  have settled := settles_of_visits visited ended
  have whole : stop.buf = head ++ (stats.map PortRecord.bytes).flatten := by
    rw [ended.buf, List.append_nil, List.append_nil]
  have total : stop.buf.length = 16 + 120 * stats.length := by
    rw [whole, List.length_append, sixteen, length_recordBytes]
  have closed := finishHeader_of_fits (show stop.buf.length ≤ ofpMaxSize by rw [total]; exact fits)
  refine ⟨⟨finishHeader stop.buf, ?_, ?_, ?_, stats.map PortRecord.bytes, ?_, ?_, rfl, ?_⟩,
    recordKind version, _, stop, entered, settled, ?_⟩
  · simp only [Normalize.Termination.normalize_of_entered entered]
    exact settled.map fun w => finishHeader w.buf
  · rw [closed, version_setLength (by omega), whole, first]
  · rw [closed, headerLength_setLength (by omega), length_setLength (by omega),
      Nat.mod_eq_of_lt (by omega)]
  · rw [closed, setLength, sizeofMultipart, drop_poke (by omega) (by simp), whole]
    exact List.drop_left' sixteen
  · intro record member
    obtain ⟨r, -, rfl⟩ := List.mem_map.mp member
    exact ⟨r.length_bytes, r.length_field⟩
  · rw [List.map_map]
    exact List.map_congr_left fun r _ => readRecord_bytes r
  · rw [ended.start, ended.buf, List.append_nil, List.append_nil]

def twoPorts : List PortRecord :=
  [⟨⟨0xFFFFFFFD, ⟨0, 0⟩, 1, 2, 3, 4, 5, 6, 7, 8⟩, ⟨9, 10, 11, 12⟩⟩,
    ⟨⟨7, ⟨0, 0⟩, 0x8000000000000000, 0, 0, 0, 0, 0, 0, 0⟩, ⟨0, 0, 0, 1⟩⟩]

theorem portStats_survive_two :
    (∀ r ∈ twoPorts, r.Fits 1) ∧ ∃ out, Settles (fun fuel => Normalize.Dispatch.normalize .little
        (fun _ _ => 0) fuel (portStatsReply 1 5 0 twoPorts)) (.done out) ∧
      Header.version out = 1 ∧ Header.length out = out.length ∧
      ∃ found : List Bytes, out.drop sizeofMultipart = found.flatten ∧
        (∀ record ∈ found, record.length = 120 ∧ big16 record 0 = 120) ∧
        found = twoPorts.map PortRecord.bytes ∧ found.map readRecord = twoPorts.map some := by
  have all : ∀ r ∈ twoPorts, r.Fits 1 := by
    intro r member
    simp only [twoPorts, List.mem_cons, List.not_mem_nil, or_false] at member
    obtain rfl | rfl := member
    · exact ⟨fun _ => .inr (by decide), fun _ => rfl⟩
    · exact ⟨fun _ => .inl (by decide), fun _ => rfl⟩
  exact ⟨all, (portStats_survive .little (fun _ _ => 0) 1 (by decide) 5 0 twoPorts all
    (by decide)).1⟩

end

end Libofp.Ports.PortStats
