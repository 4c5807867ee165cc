/- GID: Libofp/Messages/PacketIn
   digest: Packet-in messages as their builder writes them in each protocol version, and the
     accessors that read them. -/

import Libofp.Match.BlockSteps
import Libofp.Match.Header
import Libofp.Messages.Builders

/-! One structure in memory serves four layouts on the wire. The table shows where the
fields are; the columns are versions 1, 2, 3 and those from 4 on.

    buffer_id     8   8   8   8
    total_len    12  20  12  12
    reason       16  22  14  14
    table_id      -  23  15  15
    cookie        -   -   -  16
    match         -   -  16  24
    in_port      14  12  in the match
    in_phy_port   -  16  in the match
    metadata      -   -  in the match
    enet_frame   18  24  behind the match -/

set_option autoImplicit false

namespace Libofp.Messages.PacketIn

open Octets.ByteRange Octets.ByteList Octets.BigEndian
open Oxm Oxm.Range Oxm.FieldTable Match.Builder Builders

section

variable (msg : Bytes)

def bufferId : Nat := big32 msg 8

def totalLen : Nat := if Header.version msg = 2 then big16 msg 20 else big16 msg 12

def reason : Nat :=
  match Header.version msg with
  | 1 => big8 msg 16
  | 2 => big8 msg 22
  | _ => big8 msg 14

def tableID : Nat :=
  match Header.version msg with
  | 1 => 0
  | 2 => big8 msg 23
  | _ => big8 msg 15

def matchHeader : Bytes := if Header.version msg = 3 then msg.drop 16 else msg.drop 24

def matchField (id : InternalId) : Nat :=
  (get (Match.Header.oxmRange (matchHeader msg)) id.type (8 * id.size)).toNat

def inPort : Nat :=
  match Header.version msg with
  | 1 =>
    let port32 := big16 msg 14
    -- Sign extend to 32 bits the "fake" ports.
    if port32 > 0xFF00 then port32 + 0xFFFF0000 else port32
  | 2 => big32 msg 12
  | _ => matchField msg .inPort

/-- `PacketIn::inPhyPort`: a field that is missing or zero stands for the port. -/
def inPhyPort : Nat :=
  match Header.version msg with
  | 1 => 0
  | 2 => big32 msg 16
  | _ => if matchField msg .inPhyPort ≠ 0 then matchField msg .inPhyPort else matchField msg .inPort

def metadata : Nat :=
  match Header.version msg with
  | 1 | 2 => 0
  | _ => matchField msg .metadata

def cookie : Nat :=
  match Header.version msg with
  | 1 | 2 | 3 => 0
  | _ => bigNat (window msg 16 8)

def enetFrame : Bytes :=
  let whole := msg.take (Header.length msg)
  match Header.version msg with
  | 1 => safeByteRange whole 18
  | 2 => safeByteRange whole 24
  | 3 => safeByteRange whole (24 - 8 + Match.Header.paddedLength (matchHeader msg) + 2)
  | _ => safeByteRange whole (24 + Match.Header.paddedLength (matchHeader msg) + 2)

end

structure PacketInBuilder where
  bufferId : UInt32
  totalLen : UInt16
  reason : UInt8
  tableID : UInt8
  cookie : UInt64
  inPort : UInt32 := 0
  inPhyPort : UInt32 := 0
  metadata : UInt64 := 0
  match_ : List Item := []
  enetFrame : Bytes

namespace PacketInBuilder

variable (b : PacketInBuilder)

/-- The memory of `msg_` when the header and the match header have been filled in. -/
def memory (version length xid matchLength : Nat) : Bytes :=
  headerBytes version Header.OFPT.packetIn length xid ++ (bigBytes 4 b.bufferId.toNat ++
    (bigBytes 2 b.totalLen.toNat ++ (bigBytes 1 b.reason.toNat ++ (bigBytes 1 b.tableID.toNat ++
      (bigBytes 8 b.cookie.toNat ++ (bigBytes 2 Match.Header.ofpmtOxm ++
        (bigBytes 2 matchLength ++ List.replicate 4 0)))))))

/-- The memory of `inPort_` and of `inPhyPort_` behind it. -/
def ports : Bytes := bigBytes 4 b.inPort.toNat ++ bigBytes 4 b.inPhyPort.toNat

def sendV1 (xid : Nat) : Bytes :=
  let msgLen := 18 + b.enetFrame.length
  let msg := b.memory 1 msgLen xid 0
  msg.take 14 ++ window b.ports 2 2 ++ window msg 14 1 ++ window msg 28 1 ++ b.enetFrame

def sendV2 (xid : Nat) : Bytes :=
  let msgLen := 24 + b.enetFrame.length
  let msg := b.memory 2 msgLen xid 0
  msg.take 8 ++ window msg 8 4 ++ b.ports ++ window msg 12 4 ++ b.enetFrame

/-- A field that `replaceUnchecked` is called with. -/
def contextField (id : InternalId) (regular : id.isExperimenter = false) (value : Nat) : Field :=
  let size := id.size
  ⟨id, bigBytes size value, length_bigBytes size value, regular⟩

/-- `match_` with the context fields: those that are zero are omitted, and the physical port
where it is the port. -/
def contextMatch : List Item :=
  let list := b.match_
  let list := if b.inPort ≠ 0 then
    replaceUnchecked list (contextField .inPort (by decide) b.inPort.toNat) else list
  let list := if b.inPhyPort ≠ 0 ∧ b.inPhyPort ≠ b.inPort then
    replaceUnchecked list (contextField .inPhyPort (by decide) b.inPhyPort.toNat) else list
  if b.metadata ≠ 0 then
    replaceUnchecked list (contextField .metadata (by decide) b.metadata.toNat) else list

def sendV3 (xid : Nat) : Bytes :=
  let oxm := toRange b.contextMatch
  let msgMatchLen := 28 - 8 + oxm.length
  let msgMatchLenPadded := padLength msgMatchLen
  let enetFrameLen := b.enetFrame.length + 2
  let msg := b.memory 3 (msgMatchLenPadded + enetFrameLen) xid (4 + oxm.length)
  msg.take (24 - 8) ++ window msg 24 4 ++ oxm ++
    List.replicate (msgMatchLenPadded - msgMatchLen) 0 ++ List.replicate 2 0 ++ b.enetFrame

def sendV4 (version xid : Nat) : Bytes :=
  let oxm := toRange b.contextMatch
  let msgMatchLen := 28 + oxm.length
  let msgMatchLenPadded := padLength msgMatchLen
  let enetFrameLen := b.enetFrame.length + 2
  let msg := b.memory version (msgMatchLenPadded + enetFrameLen) xid (4 + oxm.length)
  msg.take 28 ++ oxm ++
    List.replicate (msgMatchLenPadded - msgMatchLen) 0 ++ List.replicate 2 0 ++ b.enetFrame

/-- `PacketInBuilder::send`: what is written to a channel. -/
def send (version xid : Nat) : Bytes :=
  match version with
  | 1 => b.sendV1 xid
  | 2 => b.sendV2 xid
  | 3 => b.sendV3 xid
  | _ => b.sendV4 version xid

end PacketInBuilder

section

variable (version xid length : Nat) (rest : Bytes)

def header : Bytes := headerBytes version Header.OFPT.packetIn length xid

@[simp] theorem length_header : (header version xid length).length = 8 := length_headerBytes ..

theorem version_header (known : version < 256) :
    Header.version (header version xid length ++ rest) = version := by
  simp [header, Header.version, headerBytes, big8, bigBytes]
  omega

end

/-- What the header of a message that fits says. -/
theorem header_fields {version xid length : Nat} {msg rest : Bytes}
    (whole : msg = header version xid length ++ rest) (known : version < 256)
    (size : msg.length = length) (fits : msg.length ≤ 65535) :
    Header.version msg = version ∧ Header.length msg = msg.length := by
  subst whole
  exact ⟨version_header version xid length rest known,
    (length_of_headerBytes _ (by omega)).trans size.symm⟩

section

variable (b : PacketInBuilder) (xid : Nat)

private theorem sendV1_eq : b.sendV1 xid =
    header 1 xid (18 + b.enetFrame.length) ++
      (bigBytes 4 b.bufferId.toNat ++ (bigBytes 2 b.totalLen.toNat ++
        (bigBytes 2 b.inPort.toNat ++ (bigBytes 1 b.reason.toNat ++
          (bigBytes 1 0 ++ b.enetFrame))))) := by
  simp [PacketInBuilder.sendV1, PacketInBuilder.memory, PacketInBuilder.ports, header,
    headerBytes, bigBytes, window]

private theorem sendV2_eq : b.sendV2 xid =
    header 2 xid (24 + b.enetFrame.length) ++
      (bigBytes 4 b.bufferId.toNat ++ (bigBytes 4 b.inPort.toNat ++
        (bigBytes 4 b.inPhyPort.toNat ++ (bigBytes 2 b.totalLen.toNat ++
          (bigBytes 1 b.reason.toNat ++ (bigBytes 1 b.tableID.toNat ++ b.enetFrame)))))) := by
  simp [PacketInBuilder.sendV2, PacketInBuilder.memory, PacketInBuilder.ports, header,
    headerBytes, bigBytes, window]

end

structure Survives (b : PacketInBuilder) (version : Nat) (msg : Bytes) : Prop where
  bufferId : bufferId msg = b.bufferId.toNat
  totalLen : totalLen msg = b.totalLen.toNat
  reason : reason msg = b.reason.toNat
  inPort : inPort msg = b.inPort.toNat
  enetFrame : enetFrame msg = b.enetFrame
  tableID : 2 ≤ version → tableID msg = b.tableID.toNat
  inPhyPort : 2 ≤ version → inPhyPort msg = b.inPhyPort.toNat
  metadata : 3 ≤ version → metadata msg = b.metadata.toNat
  cookie : 4 ≤ version → cookie msg = b.cookie.toNat

private theorem survivesV1 (b : PacketInBuilder) (xid : Nat)
    (port : b.inPort ≤ 0xFF00 ∨ 0xFFFFFF01 ≤ b.inPort) (fits : (b.sendV1 xid).length ≤ 65535) :
    Survives b 1 (b.sendV1 xid) := by
  have whole := sendV1_eq b xid
  obtain ⟨version, stated⟩ := header_fields whole (by decide) (by rw [whole]; simp; omega) fits
  rw [whole] at version stated ⊢
  refine ⟨?_, ?_, ?_, ?_, ?_, by omega, by omega, by omega, by omega⟩
  · simp [PacketIn.bufferId, big32_skip, big32_here, Nat.mod_eq_of_lt b.bufferId.toNat_lt]
  · simp [PacketIn.totalLen, version, big16_skip, big16_here,
      Nat.mod_eq_of_lt b.totalLen.toNat_lt]
  · simp [PacketIn.reason, version, big8_skip, big8_here,
      Nat.mod_eq_of_lt b.reason.toNat_lt]
  · simp only [PacketIn.inPort, version]
    simp [big16_skip, big16_here]
    have bound := b.inPort.toNat_lt
    rw [UInt32.le_iff_toNat_le, UInt32.le_iff_toNat_le] at port
    simp only [UInt32.reduceToNat] at port
    split <;> omega
  · simp only [PacketIn.enetFrame, version, stated, List.take_length, safeByteRange_eq_drop]
    simp [List.drop_append, List.drop_of_length_le]

private theorem survivesV2 (b : PacketInBuilder) (xid : Nat)
    (fits : (b.sendV2 xid).length ≤ 65535) :
    Survives b 2 (b.sendV2 xid) := by
  have whole := sendV2_eq b xid
  obtain ⟨version, stated⟩ := header_fields whole (by decide) (by rw [whole]; simp; omega) fits
  rw [whole] at version stated ⊢
  refine ⟨?_, ?_, ?_, ?_, ?_, fun _ => ?_, fun _ => ?_, by omega, by omega⟩
  · simp [PacketIn.bufferId, big32_skip, big32_here, Nat.mod_eq_of_lt b.bufferId.toNat_lt]
  · simp [PacketIn.totalLen, version, big16_skip, big16_here,
      Nat.mod_eq_of_lt b.totalLen.toNat_lt]
  · simp [PacketIn.reason, version, big8_skip, big8_here,
      Nat.mod_eq_of_lt b.reason.toNat_lt]
  · simp [PacketIn.inPort, version, big32_skip, big32_here,
      Nat.mod_eq_of_lt b.inPort.toNat_lt]
  · simp only [PacketIn.enetFrame, version, stated, List.take_length, safeByteRange_eq_drop]
    simp [List.drop_append, List.drop_of_length_le]
  · simp [PacketIn.tableID, version, big8_skip, big8_here,
      Nat.mod_eq_of_lt b.tableID.toNat_lt]
  · simp [PacketIn.inPhyPort, version, big32_skip, big32_here,
      Nat.mod_eq_of_lt b.inPhyPort.toNat_lt]

section

variable {b : PacketInBuilder}

theorem value_contextField (id : InternalId) (regular : id.isExperimenter = false) {v : Nat}
    (fits : v < 256 ^ id.size) :
    ((PacketInBuilder.contextField id regular v).item.value (8 * id.size)).toNat = v := by
  have bytes : 8 * id.size / 8 = id.size := by omega
  have wide : (256 : Nat) ^ id.size = 2 ^ (8 * id.size) := by rw [Nat.pow_mul]
  rw [Item.value, bytes, Field.item, PacketInBuilder.contextField,
    List.take_of_length_le (length_bigBytes ..).le, bigNat_bigBytes, Nat.mod_eq_of_lt fits,
    BitVec.toNat_ofNat, Nat.mod_eq_of_lt (by omega)]

theorem type_contextField (id : InternalId) (regular : id.isExperimenter = false) (v : Nat) :
    (PacketInBuilder.contextField id regular v).item.type = id.type := rfl

def optional (present : Prop) [Decidable present] (item : Item) : List Item :=
  if present then [item] else []

section

variable {present : Prop} [Decidable present] {item : Item} {type : Nat} (list : List Item)

theorem find_optional_same (same : item.type = type) :
    (optional present item ++ list).find? (·.type == type) =
      if present then some item else list.find? (·.type == type) := by
  subst same
  unfold optional
  split
  · rw [List.singleton_append, List.find?_cons_of_pos (by simp)]
  · rw [List.nil_append]

theorem find_optional_other (other : item.type ≠ type) :
    (optional present item ++ list).find? (·.type == type) = list.find? (·.type == type) := by
  unfold optional
  split
  · rw [List.singleton_append, List.find?_cons_of_neg (by simpa using other)]
  · rw [List.nil_append]

end

theorem contextMatch_fresh (fresh : b.match_ = []) : b.contextMatch =
    optional (b.inPort ≠ 0)
        (PacketInBuilder.contextField .inPort (by decide) b.inPort.toNat).item ++
      (optional (b.inPhyPort ≠ 0 ∧ b.inPhyPort ≠ b.inPort)
          (PacketInBuilder.contextField .inPhyPort (by decide) b.inPhyPort.toNat).item ++
        (optional (b.metadata ≠ 0)
          (PacketInBuilder.contextField .metadata (by decide) b.metadata.toNat).item ++ [])) := by
  have port : InternalId.inPort.type ≠ InternalId.inPhyPort.type := by decide
  have physical : InternalId.inPhyPort.type ≠ InternalId.metadata.type := by decide
  have both : InternalId.inPort.type ≠ InternalId.metadata.type := by decide
  simp only [PacketInBuilder.contextMatch, fresh, optional]
  split_ifs <;> simp [replaceUnchecked, PacketInBuilder.contextField, Field.item, port, physical,
    both]

private theorem items_contextMatch (fresh : b.match_ = []) :
    items (toRange b.contextMatch) = b.contextMatch := by
  have all : ∀ item ∈ b.contextMatch, ∃ f : Field, item = f.item := by
    rw [contextMatch_fresh fresh]
    intro item member
    simp only [List.mem_append, List.not_mem_nil, or_false, optional] at member
    rcases member with member | member | member <;> split_ifs at member <;>
      simp only [List.mem_singleton, List.not_mem_nil] at member <;> exact ⟨_, member⟩
  apply Match.BlockSteps.items_toRange
  · intro item member
    obtain ⟨f, rfl⟩ := all item member
    exact (Match.BlockSteps.type_lt f.id).1
  · intro item member
    obtain ⟨f, rfl⟩ := all item member
    exact Match.Blocks.sized_field f

private theorem get_contextMatch (fresh : b.match_ = []) :
    (get (toRange b.contextMatch) InternalId.inPort.type 32).toNat = b.inPort.toNat ∧
      (get (toRange b.contextMatch) InternalId.inPhyPort.type 32).toNat =
        (if b.inPhyPort ≠ 0 ∧ b.inPhyPort ≠ b.inPort then b.inPhyPort.toNat else 0) ∧
      (get (toRange b.contextMatch) InternalId.metadata.type 64).toNat = b.metadata.toNat := by
  simp only [Range.get, items_contextMatch fresh]
  rw [contextMatch_fresh fresh]
  refine ⟨?_, ?_, ?_⟩
  · have value := value_contextField InternalId.inPort (by decide) b.inPort.toNat_lt
    rw [find_optional_same _ (type_contextField ..),
      find_optional_other _ (by rw [type_contextField]; decide),
      find_optional_other _ (by rw [type_contextField]; decide)]
    by_cases present : b.inPort ≠ 0
    · simp only [if_pos present]
      exact value
    · rw [Classical.not_not.mp present]
      rfl
  · have value := value_contextField InternalId.inPhyPort (by decide) b.inPhyPort.toNat_lt
    rw [find_optional_other _ (by rw [type_contextField]; decide),
      find_optional_same _ (type_contextField ..),
      find_optional_other _ (by rw [type_contextField]; decide)]
    by_cases present : b.inPhyPort ≠ 0 ∧ b.inPhyPort ≠ b.inPort
    · simp only [if_pos present]
      exact value
    · simp only [if_neg present]
      rfl
  · have value := value_contextField InternalId.metadata (by decide) b.metadata.toNat_lt
    rw [find_optional_other _ (by rw [type_contextField]; decide),
      find_optional_other _ (by rw [type_contextField]; decide),
      find_optional_same _ (type_contextField ..)]
    by_cases present : b.metadata ≠ 0
    · simp only [if_pos present]
      exact value
    · rw [Classical.not_not.mp present]
      rfl

end

def matchAndFrame (oxm frame : Bytes) : Bytes :=
  bigBytes 2 Match.Header.ofpmtOxm ++ (bigBytes 2 (4 + oxm.length) ++ (oxm ++
    (List.replicate (padLength (4 + oxm.length) - (4 + oxm.length)) 0 ++
      (List.replicate 2 0 ++ frame))))

section

variable {oxm frame : Bytes} (fits : 4 + oxm.length < 65536)

include fits

theorem length_of_matchAndFrame :
    Match.Header.length (matchAndFrame oxm frame) = 4 + oxm.length := by
  rw [Match.Header.length, matchAndFrame, big16_within _ (length_bigBytes ..),
    Nat.mod_eq_of_lt fits]

private theorem oxmRange_matchAndFrame : Match.Header.oxmRange (matchAndFrame oxm frame) = oxm := by
  have type : Match.Header.type (matchAndFrame oxm frame) = Match.Header.ofpmtOxm := by
    rw [Match.Header.type, matchAndFrame, big16_append _ (by simp), big16_bigBytes]
    rfl
  rw [Match.Header.oxmRange, if_pos type, length_of_matchAndFrame fits, matchAndFrame,
    ← List.append_assoc, List.drop_left' (by simp), Nat.add_sub_cancel_left, List.take_left]

theorem drop_matchAndFrame :
    (matchAndFrame oxm frame).drop (Match.Header.paddedLength (matchAndFrame oxm frame) + 2) =
      frame := by
  have long := le_padLength (4 + oxm.length)
  have front : (bigBytes 2 Match.Header.ofpmtOxm ++ (bigBytes 2 (4 + oxm.length) ++ (oxm ++
      (List.replicate (padLength (4 + oxm.length) - (4 + oxm.length)) (0 : UInt8) ++
        List.replicate 2 0)))).length = padLength (4 + oxm.length) + 2 := by
    simp only [List.length_append, length_bigBytes, List.length_replicate]
    omega
  rw [Match.Header.paddedLength, length_of_matchAndFrame fits, matchAndFrame]
  iterate 4 rw [← List.append_assoc]
  simp only [← List.append_assoc] at front
  exact List.drop_left' front

end

section

variable (b : PacketInBuilder) (xid : Nat)

theorem padLength_units (k n : Nat) : padLength (8 * k + n) = 8 * k + padLength n := by
  unfold padLength
  omega

private theorem sendV3_eq : b.sendV3 xid =
    header 3 xid (16 + padLength (4 + (toRange b.contextMatch).length) +
      (b.enetFrame.length + 2)) ++ (bigBytes 4 b.bufferId.toNat ++
        (bigBytes 2 b.totalLen.toNat ++ (bigBytes 1 b.reason.toNat ++ (bigBytes 1 b.tableID.toNat ++
          matchAndFrame (toRange b.contextMatch) b.enetFrame)))) := by
  have units := padLength_units 2 (4 + (toRange b.contextMatch).length)
  rw [← Nat.add_assoc] at units
  simp only [PacketInBuilder.sendV3, show 28 - 8 = 8 * 2 + 4 from rfl, units]
  simp [PacketInBuilder.memory, header, headerBytes, bigBytes, window, matchAndFrame]
  omega

private theorem sendV4_eq (version : Nat) : b.sendV4 version xid =
    header version xid (24 + padLength (4 + (toRange b.contextMatch).length) +
      (b.enetFrame.length + 2)) ++ (bigBytes 4 b.bufferId.toNat ++
        (bigBytes 2 b.totalLen.toNat ++ (bigBytes 1 b.reason.toNat ++ (bigBytes 1 b.tableID.toNat ++
          (bigBytes 8 b.cookie.toNat ++
            matchAndFrame (toRange b.contextMatch) b.enetFrame))))) := by
  have units := padLength_units 3 (4 + (toRange b.contextMatch).length)
  rw [← Nat.add_assoc] at units
  simp only [PacketInBuilder.sendV4, show 28 = 8 * 3 + 4 from rfl, units]
  simp [PacketInBuilder.memory, header, headerBytes, bigBytes, matchAndFrame]
  omega

theorem length_matchAndFrame (oxm frame : Bytes) :
    (matchAndFrame oxm frame).length = padLength (4 + oxm.length) + (frame.length + 2) := by
  have long := le_padLength (4 + oxm.length)
  simp only [matchAndFrame, List.length_append, length_bigBytes, List.length_replicate]
  omega

theorem survives_match {b : PacketInBuilder} {version xid length : Nat} {msg rest : Bytes}
    (newer : 3 ≤ version) (known : version < 256) (fresh : b.match_ = [])
    (physical : b.inPhyPort ≠ 0)
    (whole : msg = header version xid length ++ (bigBytes 4 b.bufferId.toNat ++
      (bigBytes 2 b.totalLen.toNat ++ (bigBytes 1 b.reason.toNat ++
        (bigBytes 1 b.tableID.toNat ++ rest)))))
    (fits : 4 + (toRange b.contextMatch).length < 65536)
    (matched : matchHeader msg = matchAndFrame (toRange b.contextMatch) b.enetFrame)
    (framed : enetFrame msg = b.enetFrame) (cookies : 4 ≤ version → cookie msg = b.cookie.toNat) :
    Survives b version msg := by
  have stated : Header.version msg = version := by
    rw [whole]
    exact version_header version xid length _ known
  obtain ⟨port, physicalPort, data⟩ := get_contextMatch fresh
  have range : Match.Header.oxmRange (matchHeader msg) = toRange b.contextMatch := by
    rw [matched, oxmRange_matchAndFrame fits]
  have inPort_eq : matchField msg .inPort = b.inPort.toNat := by
    rwa [matchField, range]
  have inPhyPort_eq : matchField msg .inPhyPort =
      if b.inPhyPort ≠ 0 ∧ b.inPhyPort ≠ b.inPort then b.inPhyPort.toNat else 0 := by
    rwa [matchField, range]
  have metadata_eq : matchField msg .metadata = b.metadata.toNat := by
    rwa [matchField, range]
  refine ⟨?_, ?_, ?_, ?_, framed, fun _ => ?_, fun _ => ?_, fun _ => ?_, cookies⟩
  · rw [PacketIn.bufferId, whole, big32_within _ (by simp), Nat.mod_eq_of_lt b.bufferId.toNat_lt]
  · rw [PacketIn.totalLen, stated, if_neg (by omega), whole, ← List.append_assoc,
      big16_within _ (by simp), Nat.mod_eq_of_lt b.totalLen.toNat_lt]
  · have byte : big8 msg 14 = b.reason.toNat := by
      simp [whole, big8_skip, big8_here, Nat.mod_eq_of_lt b.reason.toNat_lt]
    simp only [PacketIn.reason, stated]
    split <;> omega
  · simp only [PacketIn.inPort, stated]
    split <;> omega
  · have byte : big8 msg 15 = b.tableID.toNat := by
      simp [whole, big8_skip, big8_here, Nat.mod_eq_of_lt b.tableID.toNat_lt]
    simp only [PacketIn.tableID, stated]
    split <;> omega
  · have positive : b.inPhyPort.toNat ≠ 0 := fun zero => physical (UInt32.toNat_inj.mp zero)
    simp only [PacketIn.inPhyPort, stated, inPort_eq, inPhyPort_eq]
    split
    · omega
    · omega
    · -- A physical port that is the port is not in the match.
      by_cases same : b.inPhyPort = b.inPort
      · simp [same]
      · simp [same, physical, positive]
  · simp only [PacketIn.metadata, stated]
    split <;> omega

private theorem survivesV3 {b : PacketInBuilder} (fresh : b.match_ = [])
    (physical : b.inPhyPort ≠ 0) (fits : (b.sendV3 xid).length ≤ 65535) :
    Survives b 3 (b.sendV3 xid) := by
  have whole := sendV3_eq b xid
  have long := le_padLength (4 + (toRange b.contextMatch).length)
  have size : (b.sendV3 xid).length =
      16 + padLength (4 + (toRange b.contextMatch).length) + (b.enetFrame.length + 2) := by
    rw [whole]
    simp only [List.length_append, length_header, length_bigBytes, length_matchAndFrame]
    omega
  obtain ⟨version, stated⟩ := header_fields whole (by decide) size fits
  have behind : (b.sendV3 xid).drop 16 = matchAndFrame (toRange b.contextMatch) b.enetFrame := by
    simp [whole, List.drop_append, List.drop_of_length_le]
  have matched : matchHeader (b.sendV3 xid) =
      matchAndFrame (toRange b.contextMatch) b.enetFrame := by
    rw [matchHeader, version, if_pos rfl, behind]
  refine survives_match (by omega) (by omega) fresh physical whole (by omega) matched ?_ (by omega)
  simp only [PacketIn.enetFrame, version, stated, List.take_length, safeByteRange_eq_drop, matched]
  rw [show 24 - 8 = 16 from rfl, Nat.add_assoc, ← List.drop_drop, behind,
    drop_matchAndFrame (by omega)]

private theorem survivesV4 {b : PacketInBuilder} {version : Nat} (newer : 4 ≤ version)
    (known : version < 256) (fresh : b.match_ = []) (physical : b.inPhyPort ≠ 0)
    (fits : (b.sendV4 version xid).length ≤ 65535) : Survives b version (b.sendV4 version xid) := by
  have whole := sendV4_eq b xid version
  have long := le_padLength (4 + (toRange b.contextMatch).length)
  have size : (b.sendV4 version xid).length =
      24 + padLength (4 + (toRange b.contextMatch).length) + (b.enetFrame.length + 2) := by
    rw [whole]
    simp only [List.length_append, length_header, length_bigBytes, length_matchAndFrame]
    omega
  obtain ⟨version', stated⟩ := header_fields whole known size fits
  have cookied : (b.sendV4 version xid).drop 16 = bigBytes 8 b.cookie.toNat ++
      matchAndFrame (toRange b.contextMatch) b.enetFrame := by
    simp [whole, List.drop_append, List.drop_of_length_le]
  have behind : (b.sendV4 version xid).drop 24 =
      matchAndFrame (toRange b.contextMatch) b.enetFrame := by
    rw [← List.drop_drop (i := 8) (j := 16), cookied, List.drop_left' (length_bigBytes ..)]
  have matched : matchHeader (b.sendV4 version xid) =
      matchAndFrame (toRange b.contextMatch) b.enetFrame := by
    rw [matchHeader, version', if_neg (by omega), behind]
  refine survives_match (by omega) known fresh physical whole (by omega) matched ?_ fun _ => ?_
  · simp only [PacketIn.enetFrame, version', stated, List.take_length, safeByteRange_eq_drop,
      matched]
    split
    · omega
    · omega
    · omega
    · rw [Nat.add_assoc, ← List.drop_drop, behind, drop_matchAndFrame (by omega)]
  · simp only [PacketIn.cookie, version', window, cookied, List.take_left' (length_bigBytes ..)]
    split
    · omega
    · omega
    · omega
    · rw [bigNat_bigBytes]
      exact Nat.mod_eq_of_lt b.cookie.toNat_lt

end

/-- What a fresh builder sends in a version from 1 to 6 is read back by the accessors. -/
theorem packetIn_survives (b : PacketInBuilder) (version xid : Nat) (first : 1 ≤ version)
    (last : version ≤ 6) (fresh : b.match_ = []) (physical : b.inPhyPort ≠ 0)
    (port : version = 1 → b.inPort ≤ 0xFF00 ∨ 0xFFFFFF01 ≤ b.inPort)
    (fits : (b.send version xid).length ≤ 65535) : Survives b version (b.send version xid) := by
  unfold PacketInBuilder.send at fits ⊢
  split at fits
  · exact survivesV1 b xid (port rfl) fits
  · exact survivesV2 b xid fits
  · exact survivesV3 xid fresh physical fits
  · rename_i one two three
    have newer : 4 ≤ version := by
      have notOne : version ≠ 1 := one
      have notTwo : version ≠ 2 := two
      have notThree : version ≠ 3 := three
      omega
    exact survivesV4 xid newer (by omega) fresh physical fits

def controllerPacket : PacketInBuilder where
  bufferId := 0xFFFFFFFF
  totalLen := 3
  reason := 1
  tableID := 2
  cookie := 5
  inPort := 0xFFFFFFFD
  inPhyPort := 7
  metadata := 9
  enetFrame := [1, 2, 3]

theorem packetIn_survives_controller :
    (controllerPacket.send 4 1).length = 61 ∧
      Survives controllerPacket 4 (controllerPacket.send 4 1) :=
  ⟨by decide +kernel, packetIn_survives controllerPacket 4 1 (by decide) (by decide) rfl
    (by decide) (by decide) (by decide +kernel)⟩

end Libofp.Messages.PacketIn
