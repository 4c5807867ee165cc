/- GID: Libofp/Ports/PortDescriptions
   digest: Port descriptions of the older versions: what normalisation makes of them is turned
     back into the same bytes. -/

import Libofp.Normalize.Dispatch
import Libofp.Wire.PropertySearch

set_option autoImplicit false

namespace Libofp.Ports.PortDescriptions

open Octets.ByteRange Octets.ByteList Octets.BigEndian
open Base.Iteration Oxm.Field Messages Messages.Header
open Wire.ProtocolRange Wire.PaddedElements Wire.PropertySearch
open Normalize.ActionRewrite (normPortNumberV1)
open Normalize.Ports Normalize.Dispatch

/-- `OFPPortFeaturesFlagsConvertToV1`. -/
def portFeaturesConvertToV1 (features : Nat) : Nat :=
  (features &&& 0xFFFF007F) ||| ((features &&& 0xF800) >>> 4)

/-- `Port`: the port number, the length at offset 4, and so on up to the properties. -/
def portLayout : ElementLayout := padded 40 4

def properties (port : Bytes) : Bytes := safeByteRange (port.take (big16 port 4)) 40

/-- `OFPPDPT_ETHERNET`. -/
def pdptEthernet : Nat := 0

/-- The Ethernet property of a port; zeros stand for one that is missing, which gives
`OFPPF_NONE` and the speed 0. -/
def ethernetOf (port : Bytes) : Bytes :=
  (findProperty pdptEthernet (properties port)).getD (List.replicate 32 0)

/-- `PortV1(const Port &)`. -/
def toPortV1 (port : Bytes) : Bytes :=
  let eth := ethernetOf port
  bigBytes 2 (big32 port 0) ++ window port 8 6 ++ window port 16 16 ++ window port 32 4 ++
    window port 36 4 ++ bigBytes 4 (portFeaturesConvertToV1 (big32 eth 8)) ++
    bigBytes 4 (portFeaturesConvertToV1 (big32 eth 12)) ++
    bigBytes 4 (portFeaturesConvertToV1 (big32 eth 16)) ++
    bigBytes 4 (portFeaturesConvertToV1 (big32 eth 20))

/-- `PortV2(const Port &)`. -/
def toPortV2 (port : Bytes) : Bytes :=
  let eth := ethernetOf port
  bigBytes 4 (big32 port 0) ++ List.replicate 4 0 ++ window port 8 6 ++ List.replicate 2 0 ++
    window port 16 16 ++ window port 32 4 ++ window port 36 4 ++ bigBytes 4 (big32 eth 8) ++
    bigBytes 4 (big32 eth 12) ++ bigBytes 4 (big32 eth 16) ++ bigBytes 4 (big32 eth 20) ++
    bigBytes 4 (big32 eth 24) ++ bigBytes 4 (big32 eth 28)

theorem testBit_ones (n shift i : Nat) :
    ((2 ^ n - 1) <<< shift).testBit i = decide (shift ≤ i ∧ i < shift + n) := by
  by_cases above : shift ≤ i <;> simp [above]
  omega

theorem testBit_kept (i : Nat) :
    (0xFFFF007F : Nat).testBit i = decide (i < 7 ∨ 16 ≤ i ∧ i < 32) := by
  have mask : (0xFFFF007F : Nat) = (2 ^ 16 - 1) <<< 16 ||| (2 ^ 7 - 1) <<< 0 := rfl
  rw [mask, Nat.testBit_or, testBit_ones, testBit_ones, ← Bool.decide_or, decide_eq_decide]
  omega

theorem testBit_fromV1 (features i : Nat) : (portFeaturesConvertFromV1 features).testBit i =
    (features.testBit i && decide (i < 7 ∨ 16 ≤ i ∧ i < 32) ||
      features.testBit (i - 4) && decide (11 ≤ i ∧ i < 16)) := by
  have mask : (0xF80 : Nat) = (2 ^ 5 - 1) <<< 7 := rfl
  rw [portFeaturesConvertFromV1, Nat.testBit_or, Nat.testBit_and, testBit_kept,
    Nat.testBit_shiftLeft, Nat.testBit_and, mask, testBit_ones]
  by_cases moved : 11 ≤ i ∧ i < 16
  · have above : 4 ≤ i ∧ 7 ≤ i - 4 ∧ i - 4 < 7 + 5 := by omega
    simp [moved, above]
  · by_cases above : 4 ≤ i
    · have outside : ¬ (7 ≤ i - 4 ∧ i - 4 < 7 + 5) := by omega
      simp [moved, outside]
    · simp [moved, above]

private theorem testBit_toV1 (features i : Nat) : (portFeaturesConvertToV1 features).testBit i =
    (features.testBit i && decide (i < 7 ∨ 16 ≤ i ∧ i < 32) ||
      features.testBit (4 + i) && decide (7 ≤ i ∧ i < 12)) := by
  have mask : (0xF800 : Nat) = (2 ^ 5 - 1) <<< 11 := rfl
  have range : (11 ≤ 4 + i ∧ 4 + i < 11 + 5) ↔ (7 ≤ i ∧ i < 12) := by omega
  rw [portFeaturesConvertToV1, Nat.testBit_or, Nat.testBit_and, testBit_kept,
    Nat.testBit_shiftRight, Nat.testBit_and, mask, testBit_ones]
  simp only [range]

private theorem convertToV1_fromV1 {features : Nat} (small : features < 2 ^ 32)
    (clear : features &&& 0xF000 = 0) :
    portFeaturesConvertToV1 (portFeaturesConvertFromV1 features) = features := by
  apply Nat.eq_of_testBit_eq
  intro i
  have high : 32 ≤ i → features.testBit i = false := by
    intro above
    exact Nat.testBit_lt_two_pow (small.trans_le (Nat.pow_le_pow_right (by decide) above))
  have middle : 12 ≤ i ∧ i < 16 → features.testBit i = false := by
    intro between
    have mask : (0xF000 : Nat) = (2 ^ 4 - 1) <<< 12 := rfl
    have zero := congrArg (Nat.testBit · i) clear
    simp only [mask, Nat.testBit_and, testBit_ones, Nat.zero_testBit] at zero
    simpa [between] using zero
  rw [testBit_toV1, testBit_fromV1, testBit_fromV1]
  grind

structure Describes (port : Bytes) (portNo : Nat) (hwAddr name config state ethernet : Bytes) :
    Prop where
  size : port.length = defaultSizeEthernet
  stated : big16 port 4 = defaultSizeEthernet
  portNo : big32 port 0 = portNo
  hwAddr : window port 8 6 = hwAddr
  name : window port 16 16 = name
  config : window port 32 4 = config
  state : window port 36 4 = state
  ethernet : ethernetOf port = ethernet

theorem describes_portBuilder {portNo : Nat} {hwAddr name config state ethernet : Bytes}
    (number : portNo < 4294967296) (six : hwAddr.length = 6) (sixteen : name.length = 16)
    (four : config.length = 4) (four' : state.length = 4) (property : ethernet.length = 32)
    (type : big16 ethernet 0 = pdptEthernet) (length : big16 ethernet 2 = 32) :
    Describes (portBuilder portNo hwAddr name config state ethernet) portNo hwAddr name config
      state ethernet := by
  obtain ⟨port, parts⟩ : ∃ port, port = portBuilder portNo hwAddr name config state ethernet :=
    ⟨_, rfl⟩
  rw [← parts]
  simp only [portBuilder, property, List.append_assoc] at parts
  have two : (List.replicate 2 (0 : UInt8)).length = 2 := rfl
  generalize List.replicate 2 (0 : UInt8) = pad at parts two
  have size : port.length = 72 := by simp [parts, two, six, sixteen, four, four', property]
  have stated : big16 port 4 = 72 := by rw [parts, big16_within _ (length_bigBytes ..)]
  have tail : properties port = ethernet := by
    rw [properties, stated, List.take_of_length_le (by omega), safeByteRange_eq_drop, parts]
    simp [List.drop_append, List.drop_of_length_le, two, six, sixteen, four, four']
  refine ⟨size, stated, ?_, ?_, ?_, ?_, ?_, ?_⟩
  · rw [parts, big32_here, Nat.mod_eq_of_lt number]
  · simp [parts, window_skip, window_here, two, six]
  · simp [parts, window_skip, window_here, two, six, sixteen]
  · simp [parts, window_skip, window_here, two, six, sixteen, four]
  · simp [parts, window_skip, window_here, two, six, sixteen, four, four']
  · rw [ethernetOf, tail, findProperty_single type]
    · rfl
    · rw [Spans, property, length]
      rfl

theorem Describes.isElement {port hwAddr name config state ethernet : Bytes} {portNo : Nat}
    (reads : Describes port portNo hwAddr name config state ethernet) :
    port.length = defaultSizeEthernet ∧ IsElement 40 4 port := by
  refine ⟨reads.size, ?_, ?_⟩ <;> rw [reads.stated]
  · decide
  · exact reads.size

theorem length_portPropertyEthernet (curr advertised supported peer currSpeed maxSpeed : Nat) :
    (portPropertyEthernet curr advertised supported peer currSpeed maxSpeed).length = 32 := by
  simp [portPropertyEthernet]

theorem read_portPropertyEthernet (curr advertised supported peer currSpeed maxSpeed : Nat) :
    let eth := portPropertyEthernet curr advertised supported peer currSpeed maxSpeed
    big16 eth 0 = pdptEthernet ∧ big16 eth 2 = 32 ∧ big32 eth 8 = curr % 4294967296 ∧
      big32 eth 12 = advertised % 4294967296 ∧ big32 eth 16 = supported % 4294967296 ∧
      big32 eth 20 = peer % 4294967296 ∧ big32 eth 24 = currSpeed % 4294967296 ∧
      big32 eth 28 = maxSpeed % 4294967296 := by
  have four : (List.replicate 4 (0 : UInt8)).length = 4 := rfl
  intro eth
  simp only [eth, portPropertyEthernet, List.append_assoc]
  generalize List.replicate 4 (0 : UInt8) = pad at four
  refine ⟨?_, ?_, ?_, ?_, ?_, ?_, ?_, ?_⟩
  · rw [big16_here]
    rfl
  · rw [big16_within _ (length_bigBytes ..)]
  all_goals simp [big32_skip, big32_here, big32_bigBytes, four]

theorem big32_lt (data : Bytes) (offset : Nat) : big32 data offset < 4294967296 := by
  have high := big16_lt data offset
  have low := big16_lt data (offset + 2)
  rw [big32]
  omega

private theorem convertFromV1_lt (features : Nat) :
    portFeaturesConvertFromV1 features < 4294967296 := by
  rw [show (4294967296 : Nat) = 2 ^ 32 from rfl]
  apply Nat.lt_pow_two_of_testBit
  intro i above
  rw [testBit_fromV1]
  have far : ¬ (i < 7 ∨ 16 ≤ i ∧ i < 32) ∧ ¬ (11 ≤ i ∧ i < 16) := by omega
  simp [far.1, far.2]

theorem normPortNumberV1_bounds {port : Nat} (small : port < 65536) :
    normPortNumberV1 port < 4294967296 ∧ normPortNumberV1 port % 65536 = port := by
  rw [normPortNumberV1]
  split <;> omega

structure IsPortV1 (port : Bytes) : Prop where
  size : port.length = 48
  curr : big32 port 32 &&& 0xF000 = 0
  advertised : big32 port 36 &&& 0xF000 = 0
  supported : big32 port 40 &&& 0xF000 = 0
  peer : big32 port 44 &&& 0xF000 = 0

structure IsPortV2 (port : Bytes) : Prop where
  size : port.length = 64
  pad1 : window port 4 4 = List.replicate 4 0
  pad2 : window port 14 2 = List.replicate 2 0

theorem describes_portV1 {port : Bytes} (size : port.length = 48) :
    Describes (portV1.convert port) (normPortNumberV1 (big16 port 0)) (window port 2 6)
      (window port 8 16) (window port 24 4) (window port 28 4)
      (portPropertyEthernet (portFeaturesConvertFromV1 (big32 port 32))
        (portFeaturesConvertFromV1 (big32 port 36)) (portFeaturesConvertFromV1 (big32 port 40))
        (portFeaturesConvertFromV1 (big32 port 44)) 0 0) := by
  obtain ⟨type, length, -⟩ := read_portPropertyEthernet
    (portFeaturesConvertFromV1 (big32 port 32)) (portFeaturesConvertFromV1 (big32 port 36))
    (portFeaturesConvertFromV1 (big32 port 40)) (portFeaturesConvertFromV1 (big32 port 44)) 0 0
  exact describes_portBuilder (normPortNumberV1_bounds (big16_lt ..)).1
    (length_window _ (by omega)) (length_window _ (by omega)) (length_window _ (by omega))
    (length_window _ (by omega)) (length_portPropertyEthernet ..) type length

theorem describes_portV2 {port : Bytes} (size : port.length = 64) :
    Describes (portV2.convert port) (big32 port 0) (window port 8 6) (window port 16 16)
      (window port 32 4) (window port 36 4)
      (portPropertyEthernet (big32 port 40) (big32 port 44) (big32 port 48) (big32 port 52)
        (big32 port 56) (big32 port 60)) := by
  obtain ⟨type, length, -⟩ := read_portPropertyEthernet (big32 port 40) (big32 port 44)
    (big32 port 48) (big32 port 52) (big32 port 56) (big32 port 60)
  exact describes_portBuilder (big32_lt ..) (length_window _ (by omega))
    (length_window _ (by omega)) (length_window _ (by omega)) (length_window _ (by omega))
    (length_portPropertyEthernet ..) type length

private theorem toPortV1_convert {port : Bytes} (valid : IsPortV1 port) :
    toPortV1 (portV1.convert port) = port := by
  have size := valid.size
  have reads := describes_portV1 size
  obtain ⟨-, -, curr, advertised, supported, peer, -, -⟩ := read_portPropertyEthernet
    (portFeaturesConvertFromV1 (big32 port 32)) (portFeaturesConvertFromV1 (big32 port 36))
    (portFeaturesConvertFromV1 (big32 port 40)) (portFeaturesConvertFromV1 (big32 port 44)) 0 0
  have back : ∀ k, big32 port k &&& 0xF000 = 0 →
      portFeaturesConvertToV1 (portFeaturesConvertFromV1 (big32 port k) % 4294967296) =
        big32 port k := by
    intro k clear
    rw [Nat.mod_eq_of_lt (convertFromV1_lt _), convertToV1_fromV1 (big32_lt port k) clear]
  have number : bigBytes 2 (normPortNumberV1 (big16 port 0)) = window port 0 2 := by
    have low := (normPortNumberV1_bounds (big16_lt port 0)).2
    rw [← bigBytes_mod, show 256 ^ 2 = 65536 from rfl, low, bigBytes_big16 (by omega)]
  simp only [toPortV1, reads.portNo, reads.hwAddr, reads.name, reads.config, reads.state,
    reads.ethernet, curr, advertised, supported, peer, back _ valid.curr, back _ valid.advertised,
    back _ valid.supported, back _ valid.peer, number]
  rw [bigBytes_big32 (by omega), bigBytes_big32 (by omega), bigBytes_big32 (by omega),
    bigBytes_big32 (by omega)]
  simp only [window_append_window, Nat.reduceAdd]
  exact window_all size

private theorem toPortV2_convert {port : Bytes} (valid : IsPortV2 port) :
    toPortV2 (portV2.convert port) = port := by
  have size := valid.size
  have reads := describes_portV2 size
  obtain ⟨-, -, curr, advertised, supported, peer, currSpeed, maxSpeed⟩ :=
    read_portPropertyEthernet (big32 port 40) (big32 port 44) (big32 port 48) (big32 port 52)
      (big32 port 56) (big32 port 60)
  have word : ∀ k, k + 4 ≤ 64 → bigBytes 4 (big32 port k % 4294967296) = window port k 4 := by
    intro k inside
    rw [Nat.mod_eq_of_lt (big32_lt ..), bigBytes_big32 (by omega)]
  have number : bigBytes 4 (big32 port 0) = window port 0 4 := bigBytes_big32 (by omega)
  simp only [toPortV2, reads.portNo, reads.hwAddr, reads.name, reads.config, reads.state,
    reads.ethernet, curr, advertised, supported, peer, currSpeed, maxSpeed, number, ← valid.pad1,
    ← valid.pad2]
  rw [word 40 (by omega), word 44 (by omega), word 48 (by omega), word 52 (by omega),
    word 56 (by omega), word 60 (by omega)]
  simp only [window_append_window, Nat.reduceAdd]
  exact window_all size

section

def portFormat (version : Nat) : PortFormat := if version = 1 then portV1 else portV2

def IsOldPort (version : Nat) (port : Bytes) : Prop :=
  if version = 1 then IsPortV1 port else IsPortV2 port

/-- `PortV1(const Port &)` or `PortV2(const Port &)`, by the version. -/
def toOldPort (version : Nat) (port : Bytes) : Bytes :=
  if version = 1 then toPortV1 port else toPortV2 port

private theorem size_of_isOldPort {version : Nat} {port : Bytes} (valid : IsOldPort version port) :
    port.length = (portFormat version).size := by
  unfold IsOldPort portFormat at *
  split_ifs at valid ⊢
  · exact valid.size
  · exact valid.size

private theorem toOldPort_convert {version : Nat} {port : Bytes} (valid : IsOldPort version port) :
    toOldPort version ((portFormat version).convert port) = port := by
  unfold IsOldPort toOldPort portFormat at *
  split_ifs at valid ⊢
  · exact toPortV1_convert valid
  · exact toPortV2_convert valid

theorem isElement_convert {version : Nat} {port : Bytes} (valid : IsOldPort version port) :
    ((portFormat version).convert port).length = defaultSizeEthernet ∧
      IsElement 40 4 ((portFormat version).convert port) := by
  unfold IsOldPort portFormat at *
  split_ifs at valid ⊢
  · exact (describes_portV1 valid.size).isElement
  · exact (describes_portV2 valid.size).isElement

variable {format : PortFormat} {ports : List Bytes} {head : Bytes}

private theorem convertPorts_flatten (sized : ∀ port ∈ ports, port.length = format.size) :
    convertPorts format ports.length ports.flatten = (ports.map format.convert).flatten := by
  induction ports with
  | nil => rfl
  | cons port ports ih =>
    rw [List.forall_mem_cons] at sized
    rw [List.length_cons, convertPorts, List.flatten_cons, List.take_left' sized.1,
      List.drop_left' sized.1, ih sized.2, List.map_cons, List.flatten_cons]

theorem length_flatten_of_sized {size : Nat} (sized : ∀ port ∈ ports, port.length = size) :
    ports.flatten.length = size * ports.length := by
  induction ports with
  | nil => rfl
  | cons port ports ih =>
    rw [List.forall_mem_cons] at sized
    rw [List.flatten_cons, List.length_append, sized.1, ih sized.2, List.length_cons, Nat.mul_succ,
      Nat.add_comm]

theorem length_convertedPorts
    (converted : ∀ port ∈ ports, (format.convert port).length = defaultSizeEthernet) :
    (ports.map format.convert).flatten.length = defaultSizeEthernet * ports.length := by
  have all : ∀ port ∈ ports.map format.convert, port.length = defaultSizeEthernet := by
    intro port member
    obtain ⟨old, inside, rfl⟩ := List.mem_map.mp member
    exact converted old inside
  rw [length_flatten_of_sized all, List.length_map]

private theorem normalizeFeaturesReply_eq (slack : Slack)
    (front : head.length = sizeofFeaturesReply)
    (stated : Header.length (head ++ ports.flatten) = (head ++ ports.flatten).length)
    (positive : 0 < format.size) (smaller : format.size ≤ defaultSizeEthernet)
    (sized : ∀ port ∈ ports, port.length = format.size)
    (converted : ∀ port ∈ ports, (format.convert port).length = defaultSizeEthernet)
    (fits : sizeofFeaturesReply + defaultSizeEthernet * ports.length ≤ 65535) :
    normalizeFeaturesReply slack format (head ++ ports.flatten) =
      head ++ (ports.map format.convert).flatten := by
  have old := length_flatten_of_sized sized
  have new := length_convertedPorts converted
  rw [List.length_append, front, old] at stated
  have count : sizeofFeaturesReply + format.size * ports.length - sizeofFeaturesReply =
      format.size * ports.length := Nat.add_sub_cancel_left ..
  have grows : format.size * ports.length ≤ defaultSizeEthernet * ports.length :=
    Nat.mul_le_mul_right _ smaller
  simp only [normalizeFeaturesReply, stated, count, Nat.mul_mod_right, ne_eq, not_true_eq_false,
    if_false, Nat.mul_div_cancel_left _ positive, List.drop_left' front,
    convertPorts_flatten sized, new]
  generalize room : fetch slack (head ++ ports.flatten) (head ++ ports.flatten).length
    (defaultSizeEthernet * ports.length - format.size * ports.length) = gap
  have wide : (ports.flatten ++ gap).length = (ports.map format.convert).flatten.length := by
    rw [List.length_append, ← room, length_fetch, old, new]
    omega
  have place := poke_append (y := []) front wide
  rw [List.append_nil, List.append_nil] at place
  rw [if_neg (by omega), if_neg (by omega), replacePorts, addUninitialized, new, room,
    List.append_assoc, place]

private theorem normalizeBody_featuresReply (host : Host) (slack : Slack) {version : Nat}
    (known : 1 ≤ version ∧ version ≤ 4) (fuel : Nat) (buf : Bytes) :
    normalizeBody host slack version OFPT.featuresReply fuel buf =
      .done (normalizeFeaturesReply slack (portFormat version) buf) := by
  obtain rfl | rfl | rfl | rfl : version = 1 ∨ version = 2 ∨ version = 3 ∨ version = 4 := by omega
  all_goals rfl

private theorem translateType_featuresReply {version : Nat} (known : 1 ≤ version ∧ version ≤ 4) :
    translateType version OFPT.featuresReply 4 = OFPT.featuresReply := by
  obtain rfl | rfl | rfl | rfl : version = 1 ∨ version = 2 ∨ version = 3 ∨ version = 4 := by omega
  all_goals rfl

private theorem size_portFormat (version : Nat) :
    0 < (portFormat version).size ∧ (portFormat version).size ≤ defaultSizeEthernet := by
  rw [portFormat]
  split <;> decide

structure Restores (version : Nat) (ports : List Bytes) (range : Bytes) : Prop where
  tiled : (portLayout.items range).flatten = range
  count : (portLayout.items range).length = ports.length
  sized : ∀ port ∈ portLayout.items range, port.length = defaultSizeEthernet
  same : (portLayout.items range).map (toOldPort version) = ports

private theorem restores_converted {version : Nat}
    (valid : ∀ port ∈ ports, IsOldPort version port) :
    Restores version ports (ports.map (portFormat version).convert).flatten := by
  have elements : ∀ port ∈ ports.map (portFormat version).convert,
      port.length = defaultSizeEthernet ∧ IsElement 40 4 port := by
    intro port member
    obtain ⟨old, inside, rfl⟩ := List.mem_map.mp member
    exact isElement_convert (valid old inside)
  have items : portLayout.items (ports.map (portFormat version).convert).flatten =
      ports.map (portFormat version).convert :=
    items_flatten fun port member => (elements port member).2.spans (by decide)
  constructor
  · rw [items]
  · rw [items, List.length_map]
  · rw [items]
    exact fun port member => (elements port member).1
  · rw [items, List.map_map]
    conv_rhs => rw [← List.map_id ports]
    exact List.map_congr_left fun port member => toOldPort_convert (valid port member)

/-- The ports of a features reply are found again, each in a structure of 72 bytes that is turned
back into the port. A header that states another size is repaired and marked. -/
theorem featuresReply_restored (host : Host) (slack : Slack) (head : Bytes) (ports : List Bytes)
    (front : head.length = sizeofFeaturesReply) (known : 1 ≤ version head ∧ version head ≤ 4)
    (type : Header.type head = OFPT.featuresReply)
    (valid : ∀ port ∈ ports, IsOldPort (version head) port)
    (fits : sizeofFeaturesReply + defaultSizeEthernet * ports.length ≤ 65535) :
    ∃ out, Settles (fun fuel => Normalize.Dispatch.normalize host slack fuel
        (head ++ ports.flatten)) (.done out) ∧
      (Header.length head = (head ++ ports.flatten).length → version out = version head) ∧
      Restores (version head) ports (out.drop sizeofFeaturesReply) := by
  have long : 4 ≤ head.length := by
    rw [front]
    decide
  have first : version (head ++ ports.flatten) = version head := by
    rw [version, big8_append _ (by omega), version]
  have same : Header.type (head ++ ports.flatten) = OFPT.featuresReply := by
    rw [Header.type, big8_append _ (by omega), ← Header.type, type]
  have reply : messageType (head ++ ports.flatten) = OFPT.featuresReply := by
    rw [messageType, first, same, translateType_featuresReply known]
  obtain ⟨head', repaired, length', -, stated, kept⟩ :=
    repairHeader_append ports.flatten long (by rw [reply]; decide)
  have front' : head'.length = sizeofFeaturesReply := length'.trans front
  have sized : ∀ port ∈ ports, port.length = (portFormat (version head)).size :=
    fun port member => size_of_isOldPort (valid port member)
  have converted : ∀ port ∈ ports,
      ((portFormat (version head)).convert port).length = defaultSizeEthernet :=
    fun port member => (isElement_convert (valid port member)).1
  obtain ⟨positive, smaller⟩ := size_portFormat (version head)
  have total : (head ++ ports.flatten).length ≤ 65535 := by
    have grows := Nat.mul_le_mul_right ports.length smaller
    rw [List.length_append, front, length_flatten_of_sized sized]
    omega
  have counted : Header.length (head' ++ ports.flatten) = (head' ++ ports.flatten).length := by
    rw [Header.length, big16_append _ (by omega), ← Header.length, stated,
      Nat.mod_eq_of_lt (by omega), List.length_append, List.length_append, length']
  have normalised :=
    normalizeFeaturesReply_eq slack front' counted positive smaller sized converted fits
  generalize whole : head' ++ (ports.map (portFormat (version head)).convert).flatten = result
    at normalised
  have size : result.length = sizeofFeaturesReply + defaultSizeEthernet * ports.length := by
    rw [← whole, List.length_append, front', length_convertedPorts converted]
  have closed := finishHeader_of_fits (show result.length ≤ ofpMaxSize by rw [size]; exact fits)
  refine ⟨finishHeader result, ?_, ?_, ?_⟩
  · simp only [Normalize.Dispatch.normalize, first, reply, repaired, normalised,
      normalizeBody_featuresReply host slack known]
    exact settles_const (by simp)
  · intro own
    rw [closed, version_setLength (by omega), ← whole, version, big8_append _ (by omega), ← version]
    exact kept ((big16_append _ (by omega)).trans own)
  · rw [closed, setLength, drop_poke (by omega) (by rw [length_bigBytes]; decide), ← whole,
      List.drop_left' front']
    exact restores_converted valid

def twoPortsHead : Bytes := [1, 6, 0, 128, 0, 0, 0, 1] ++ List.replicate 24 0

def fullPort : Bytes :=
  [255, 253, 2, 0, 0, 0, 0, 1] ++ List.replicate 16 97 ++ List.replicate 8 1 ++
    (List.replicate 4 [0, 0, 15, 255]).flatten

private theorem isPortV1_fullPort : IsPortV1 fullPort :=
  ⟨rfl, by decide, by decide, by decide, by decide⟩

theorem featuresReply_restored_two :
    ∃ out, Settles (fun fuel => Normalize.Dispatch.normalize .little (fun _ _ => 0) fuel
        (twoPortsHead ++ [fullPort, fullPort].flatten)) (.done out) ∧
      (Header.length twoPortsHead = (twoPortsHead ++ [fullPort, fullPort].flatten).length →
        version out = version twoPortsHead) ∧
      Restores (version twoPortsHead) [fullPort, fullPort] (out.drop sizeofFeaturesReply) := by
  refine featuresReply_restored .little (fun _ _ => 0) twoPortsHead [fullPort, fullPort] rfl
    (by decide) (by decide) ?_ (by decide)
  intro port member
  obtain rfl : port = fullPort := by simpa using member
  exact isPortV1_fullPort

end

end Libofp.Ports.PortDescriptions
