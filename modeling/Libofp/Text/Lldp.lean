/- GID: Libofp/Text/Lldp
   digest: LLDP values in text: which values are read back from the text that is printed for
     them. -/

import Libofp.Text.Hex
import Libofp.Text.StringRef
import Libofp.Text.Utf8Repair

set_option autoImplicit false

namespace Libofp.Text.Lldp

open Octets.ByteRange Base.Digits Base.Utf8 Hex StringRef Utf8Repair

structure AddressText (size : Nat) where
  toString : Bytes → Bytes
  parse : Bytes → Option Bytes
  parse_toString : ∀ addr, addr.length = size → parse (toString addr) = some addr

/-- `MacAddress::parse`: the six bytes of the address. -/
def parseMac (s : Bytes) : Option Bytes :=
  let colons := hexDelimitedToRawData s 6 ':'.toUInt8
  if colons.1 = 6 then some colons.2
  else
    let strict := hexStrictToRawData s 6
    if s.length = 12 ∧ strict.1 = 6 then some strict.2
    else
      let hyphens := hexDelimitedToRawData s 6 '-'.toUInt8
      if hyphens.1 = 6 then some hyphens.2 else none

/-- `MacAddress`, in text. -/
def macText : AddressText 6 where
  toString addr := cString (rawDataToHexDelimitedLowercase addr)
  parse := parseMac
  parse_toString addr size := by
    have some : addr ≠ [] := List.length_pos_iff.mp (by omega)
    have read := hexDelimitedToRawData_lowercase some
    rw [size] at read
    simp only [parseMac, read, if_true]

section

def fromRaw (val : Bytes) (subtype : UInt8) : Option Bytes :=
  let (data, err) := hexToRawBuffer val (val.length / 2 + 1)
  if err then none else some (if subtype ≠ 0 then subtype :: data else data)

def toRaw (tag data : Bytes) (offset : Nat) : Bytes :=
  tag ++ ' '.toUInt8 :: rawDataToHex (data.drop offset)

def fromText (val : Bytes) (subtype : UInt8) : Option Bytes :=
  some (if subtype ≠ 0 then subtype :: val else val)

/-- `toText`, with a tag that may be empty. -/
def toText (tag data : Bytes) (offset : Nat) : Bytes :=
  let utf8 := validUtf8String (data.drop offset)
  if tag.isEmpty then utf8 else tag ++ ' '.toUInt8 :: utf8

/-- `fromAddressV4` and `fromAddressV6`: the number of the address family stands behind the
subtype. -/
def fromAddress {size : Nat} (text : AddressText size) (family : UInt8) (val : Bytes)
    (subtype : UInt8) : Option Bytes :=
  (text.parse val).map fun addr => subtype :: family :: addr

/-- `toAddressV4`, `toAddressV6` and `toAddressMAC`. -/
def toAddressOf {size : Nat} (text : AddressText size) (tag data : Bytes) (offset : Nat) : Bytes :=
  if offset + size = data.length then
    tag ++ ' '.toUInt8 :: text.toString ((data.drop offset).take size)
  else toRaw (literal "unknown") data 0

def fromAddressMAC (val : Bytes) (subtype : UInt8) : Option Bytes :=
  (macText.parse val).map fun addr => subtype :: addr

def toAddressMAC (data : Bytes) (offset : Nat) : Bytes :=
  toAddressOf macText (literal "mac") data offset

variable (v4 : AddressText 4) (v6 : AddressText 16)

def fromAddressV4 (val : Bytes) (subtype : UInt8) : Option Bytes := fromAddress v4 1 val subtype

def fromAddressV6 (val : Bytes) (subtype : UInt8) : Option Bytes := fromAddress v6 2 val subtype

def toAddressV4 (data : Bytes) (offset : Nat) : Bytes :=
  toAddressOf v4 (literal "ip") data offset

def toAddressV6 (data : Bytes) (offset : Nat) : Bytes :=
  toAddressOf v6 (literal "ip6") data offset

def toAddress (data : Bytes) (offset : Nat) : Bytes :=
  match data[offset]? with
  | none => toRaw (literal "unknown") data 0
  | some family =>
    if family = 1 then toAddressV4 v4 data 2
    else if family = 2 then toAddressV6 v6 data 2
    else toRaw (literal "unknown") data 0

end

section

inductive Style where
  | raw (tag : Bytes)
  | text (tag : Bytes)
  | mac
  | network
  deriving DecidableEq

inductive Form where
  | raw
  | text
  | mac
  | ip
  | ip6
  deriving DecidableEq

/-- One of the tests of `chassisIDFromString` and `portIDFromString`. -/
structure Row where
  tag : Bytes
  form : Form
  subtype : UInt8
  deriving DecidableEq

def LocallyAssigned : UInt8 := 7

variable (v4 : AddressText 4) (v6 : AddressText 16)

def Form.read (form : Form) (val : Bytes) (subtype : UInt8) : Option Bytes :=
  match form with
  | .raw => fromRaw val subtype
  | .text => fromText val subtype
  | .mac => fromAddressMAC val subtype
  | .ip => fromAddressV4 v4 val subtype
  | .ip6 => fromAddressV6 v6 val subtype

/-- `chassisIDToString` and `portIDToString`, with the styles of their subtypes. -/
def idToString (style : UInt8 → Option Style) (data : Bytes) : Bytes :=
  match data with
  | [] => literal "unknown"
  | subtype :: _ =>
    match style subtype with
    | some (.raw tag) => toRaw tag data 1
    | some (.text tag) => toText tag data 1
    | some .mac => toAddressMAC data 1
    | some .network => toAddress v4 v6 data 1
    | none => toRaw (literal "unknown") data 0

def lookup (rows : List Row) (tag : Bytes) : Option Row := rows.find? fun row => tag == row.tag

/-- `chassisIDFromString` and `portIDFromString`, with their tests. -/
def idFromString (rows : List Row) (val : Bytes) : Option Bytes :=
  let pair := split val ' '.toUInt8
  match lookup rows pair.1 with
  | some row => row.form.read v4 v6 pair.2 row.subtype
  | none => fromText val LocallyAssigned

/-- `chassisIDToString`, by the `ChassisIDSubtype`. -/
def chassisStyle (subtype : UInt8) : Option Style :=
  if subtype = 1 then some (.raw (literal "chassis"))
  else if subtype = 2 then some (.text (literal "ifalias"))
  else if subtype = 3 then some (.raw (literal "port"))
  else if subtype = 4 then some .mac
  else if subtype = 5 then some .network
  else if subtype = 6 then some (.text (literal "ifname"))
  else if subtype = 7 then some (.text [])
  else none

/-- The tests of `chassisIDFromString`. -/
def chassisRows : List Row :=
  [⟨literal "unknown", .raw, 0⟩, ⟨literal "ifalias", .text, 2⟩, ⟨literal "chassis", .raw, 1⟩,
    ⟨literal "port", .raw, 3⟩, ⟨literal "ifname", .text, 6⟩, ⟨literal "mac", .mac, 4⟩,
    ⟨literal "ip", .ip, 5⟩, ⟨literal "ip6", .ip6, 5⟩]

/-- `portIDToString`, by the `PortIDSubtype`. -/
def portStyle (subtype : UInt8) : Option Style :=
  if subtype = 1 then some (.raw (literal "ifalias"))
  else if subtype = 2 then some (.raw (literal "port"))
  else if subtype = 4 then some .network
  else if subtype = 3 then some .mac
  else if subtype = 5 then some (.text (literal "ifname"))
  else if subtype = 6 then some (.raw (literal "circuit"))
  else if subtype = 7 then some (.text [])
  else none

/-- The tests of `portIDFromString`. -/
def portRows : List Row :=
  [⟨literal "unknown", .raw, 0⟩, ⟨literal "ifalias", .raw, 1⟩, ⟨literal "port", .raw, 2⟩,
    ⟨literal "ifname", .text, 5⟩, ⟨literal "mac", .mac, 3⟩, ⟨literal "ip", .ip, 4⟩,
    ⟨literal "ip6", .ip6, 4⟩, ⟨literal "circuit", .raw, 6⟩]

def chassisIDToString (data : Bytes) : Bytes := idToString v4 v6 chassisStyle data

def chassisIDFromString (val : Bytes) : Option Bytes := idFromString v4 v6 chassisRows val

def portIDToString (data : Bytes) : Bytes := idToString v4 v6 portStyle data

def portIDFromString (val : Bytes) : Option Bytes := idFromString v4 v6 portRows val

end

/-- `raw_ostream::write_hex`. -/
def writeHex (n : Nat) : Bytes := printNat 16 n

def orgSpecificToString (data : Bytes) : Bytes :=
  match data with
  | a :: b :: c :: subtype :: rest =>
    let oui := a.toNat * 65536 + b.toNat * 256 + c.toNat
    literal "0x" ++ writeHex oui ++ literal " 0x" ++ writeHex subtype.toNat ++
      ' '.toUInt8 :: rawDataToHex rest
  | _ => toRaw (literal "unknown") data 0

/-- `orgSpecificFromString`. The four bytes of `(oui << 8) | subtype` go before the data. -/
def orgSpecificFromString (val : Bytes) : Option Bytes :=
  match consumeUnsigned 32 val 0 with
  | none => none
  | some (str, oui) =>
    match consumeUnsigned 8 (ltrim str) 0 with
    | none => none
    | some (str, subtype) =>
      let str := ltrim str
      let (data, err) := hexToRawBuffer str (str.length / 2 + 1)
      if err then none
      else
        let word := oui * 256 % 2 ^ 32 ||| subtype
        some (UInt8.ofNat (word / 2 ^ 24) :: UInt8.ofNat (word / 2 ^ 16) ::
          UInt8.ofNat (word / 2 ^ 8) :: UInt8.ofNat word :: data)

inductive LLDPType where
  | chassisID
  | portID
  | byteString
  | orgSpecific
  deriving DecidableEq

section

variable (v4 : AddressText 4) (v6 : AddressText 16)

def lldpParse (type : LLDPType) (val : Bytes) : Option Bytes :=
  match type with
  | .chassisID => chassisIDFromString v4 v6 val
  | .portID => portIDFromString v4 v6 val
  | .byteString => fromText val 0
  | .orgSpecific => orgSpecificFromString val

def lldpToString (type : LLDPType) (data : Bytes) : Bytes :=
  match type with
  | .chassisID => chassisIDToString v4 v6 data
  | .portID => portIDToString v4 v6 data
  | .byteString => toText [] data 0
  | .orgSpecific => orgSpecificToString data

end

def Fits (style : UInt8 → Option Style) (rows : List Row) (subtype : UInt8) : Prop :=
  match style subtype with
  | some (.raw tag) =>
    ' '.toUInt8 ∉ tag ∧ subtype ≠ 0 ∧ lookup rows tag = some ⟨tag, .raw, subtype⟩
  | some (.text tag) => subtype ≠ 0 ∧
    (tag = [] ∧ subtype = LocallyAssigned ∨
      tag ≠ [] ∧ ' '.toUInt8 ∉ tag ∧ lookup rows tag = some ⟨tag, .text, subtype⟩)
  | some .mac => lookup rows (literal "mac") = some ⟨literal "mac", .mac, subtype⟩
  | some .network =>
    lookup rows (literal "ip") = some ⟨literal "ip", .ip, subtype⟩ ∧
      lookup rows (literal "ip6") = some ⟨literal "ip6", .ip6, subtype⟩
  | none => True

instance (style : UInt8 → Option Style) (rows : List Row) (subtype : UInt8) :
    Decidable (Fits style rows subtype) := by
  unfold Fits
  split <;> infer_instance

/-- The two tables agree, and no test gives the subtype of text without a tag. -/
structure Agree (style : UInt8 → Option Style) (rows : List Row) : Prop where
  unknown : lookup rows (literal "unknown") = some ⟨literal "unknown", .raw, 0⟩
  fits : ∀ subtype, Fits style rows subtype
  tagged : ∀ row ∈ rows, row.subtype ≠ LocallyAssigned ∧ (row.subtype = 0 → row.form = .raw)
  untagged : style LocallyAssigned = some (.text [])

private theorem chassis_agree : Agree chassisStyle chassisRows where
  unknown := by decide
  fits := by decide +kernel
  tagged := by decide
  untagged := by decide

private theorem port_agree : Agree portStyle portRows where
  unknown := by decide
  fits := by decide +kernel
  tagged := by decide
  untagged := by decide

section

variable {data val tag : Bytes} {subtype : UInt8}

private theorem fromRaw_tooBig (subtype : UInt8) :
    fromRaw (literal "== hex too big ==") subtype = none := by
  have err : (hexToRawBuffer (literal "== hex too big ==") 9).2 = true := by decide
  rw [fromRaw]
  exact if_pos err

theorem fromRaw_rawDataToHex (data : Bytes) (subtype : UInt8) :
    fromRaw (rawDataToHex data) subtype =
      if data.length ≤ kTwoGigabytes then some (if subtype ≠ 0 then subtype :: data else data)
      else none := by
  by_cases small : data.length ≤ kTwoGigabytes
  · have length : (data.flatMap hexByte).length = data.length * 2 := by
      simp [List.length_flatMap, hexByte]
    have read : hexToRawBuffer (data.flatMap hexByte) ((data.flatMap hexByte).length / 2 + 1) =
        (data, false) := hexToRawBuffer_flatMap (by omega)
    rw [if_pos small, rawDataToHex_eq small, fromRaw, read]
    rfl
  · rw [if_neg small, rawDataToHex, if_pos (Nat.lt_of_not_le small), fromRaw_tooBig]

private theorem fromRaw_shorter (read : fromRaw val 0 = some data) :
    2 * data.length ≤ val.length := by
  have length := length_hexToRawBufferLoop (val.length / 2 + 1) val [] none false
  rw [fromRaw, hexToRawBuffer, if_neg (Nat.succ_ne_zero _)] at read
  dsimp only at read
  split at read
  · contradiction
  · obtain rfl := Option.some.inj read
    simpa using length

private theorem fromRaw_subtype (given : subtype ≠ 0) (read : fromRaw val subtype = some data) :
    ∃ rest, data = subtype :: rest := by
  rw [fromRaw] at read
  dsimp only at read
  split at read
  · contradiction
  · exact ⟨_, (Option.some.inj read).symm⟩

end

section

variable {style : UInt8 → Option Style} {rows : List Row} {v4 : AddressText 4}
variable {v6 : AddressText 16} {data tag val : Bytes} {subtype : UInt8}

theorem idFromString_tag (space : ' '.toUInt8 ∉ tag) {row : Row}
    (found : lookup rows tag = some row) :
    idFromString v4 v6 rows (tag ++ ' '.toUInt8 :: val) = row.form.read v4 v6 val row.subtype := by
  rw [idFromString, split_append space]
  rw [found]

theorem idFromString_unknown (agree : Agree style rows) (data : Bytes) :
    idFromString v4 v6 rows (toRaw (literal "unknown") data 0) =
      if data.length ≤ kTwoGigabytes then some data else none := by
  rw [toRaw, idFromString_tag (by decide) agree.unknown, Form.read, fromRaw_rawDataToHex,
    List.drop_zero]
  rfl

theorem Form.read_subtype {form : Form} (given : subtype ≠ 0)
    (read : form.read v4 v6 val subtype = some data) : ∃ rest, data = subtype :: rest := by
  cases form with
  | raw => exact fromRaw_subtype given read
  | text =>
    rw [Form.read, fromText, if_pos given] at read
    exact ⟨val, (Option.some.inj read).symm⟩
  | mac =>
    obtain ⟨addr, -, rfl⟩ := Option.map_eq_some_iff.mp read
    exact ⟨addr, rfl⟩
  | ip =>
    obtain ⟨addr, -, rfl⟩ := Option.map_eq_some_iff.mp read
    exact ⟨_, rfl⟩
  | ip6 =>
    obtain ⟨addr, -, rfl⟩ := Option.map_eq_some_iff.mp read
    exact ⟨_, rfl⟩

private theorem length_split_snd (s : Bytes) (c : UInt8) : (split s c).2.length ≤ s.length := by
  rw [split]
  split
  · exact Nat.zero_le _
  · rw [List.length_drop]
    exact Nat.sub_le _ _

private theorem idFromString_ambiguous (agree : Agree style rows) {row : Row}
    (found : lookup rows (split val ' '.toUInt8).1 = some row) :
    idFromString v4 v6 rows val ≠ some (LocallyAssigned :: val) := by
  intro read
  rw [idFromString, found] at read
  dsimp only at read
  obtain ⟨other, raw⟩ := agree.tagged row (List.mem_of_find?_eq_some found)
  by_cases zero : row.subtype = 0
  · rw [raw zero, zero] at read
    have shorter := fromRaw_shorter read
    have part := length_split_snd val ' '.toUInt8
    rw [List.length_cons] at shorter
    omega
  · obtain ⟨rest, same⟩ := Form.read_subtype zero read
    exact other (List.cons_eq_cons.mp same).1.symm

def textPart (style : UInt8 → Option Style) (data : Bytes) : Bytes :=
  match data with
  | [] => []
  | subtype :: rest =>
    match style subtype with
    | some (.text _) => rest
    | _ => []

def hexSize (style : UInt8 → Option Style) (data : Bytes) : Nat :=
  match data with
  | [] => 0
  | subtype :: rest =>
    match style subtype with
    | some (.raw _) => rest.length
    | some (.text _) => 0
    | some .mac => if rest.length = 6 then 0 else data.length
    | some .network =>
      if rest.head? = some 1 ∧ rest.length = 5 ∨ rest.head? = some 2 ∧ rest.length = 17 then 0
      else data.length
    | none => data.length

def TagInText (rows : List Row) (data : Bytes) : Prop :=
  data.head? = some LocallyAssigned ∧ (split data.tail ' '.toUInt8).1 ∈ rows.map Row.tag

instance (rows : List Row) (data : Bytes) : Decidable (TagInText rows data) :=
  inferInstanceAs (Decidable (_ ∧ _))

theorem lookup_eq_none_iff : lookup rows tag = none ↔ tag ∉ rows.map Row.tag := by
  rw [lookup, List.find?_eq_none]
  constructor
  · intro other inside
    obtain ⟨row, member, same⟩ := List.mem_map.mp inside
    exact other row member (beq_iff_eq.mpr same.symm)
  · intro absent row member same
    exact absent (List.mem_map.mpr ⟨row, member, (beq_iff_eq.mp same).symm⟩)

theorem not_tagInText {rest : Bytes} (other : subtype ≠ LocallyAssigned) :
    ¬ TagInText rows (subtype :: rest) := fun tagged => other (Option.some.inj tagged.1)

variable (v4 v6) in
theorem idFromString_address {size : Nat} (text : AddressText size) (front rest : Bytes) {row : Row}
    (agree : Agree style rows) (space : ' '.toUInt8 ∉ tag) (found : lookup rows tag = some row)
    (read : ∀ val, row.form.read v4 v6 val row.subtype = (text.parse val).map (front ++ ·)) :
    idFromString v4 v6 rows (toAddressOf text tag (front ++ rest) front.length) =
      if rest.length = size ∨ (front ++ rest).length ≤ kTwoGigabytes then some (front ++ rest)
      else none := by
  rw [toAddressOf]
  by_cases whole : rest.length = size
  · rw [if_pos (by rw [List.length_append, whole]), if_pos (.inl whole),
      idFromString_tag space found, read, List.drop_left,
      List.take_of_length_le (Nat.le_of_eq whole), text.parse_toString rest whole]
    rfl
  · rw [if_neg (by rw [List.length_append]; omega), idFromString_unknown agree]
    simp [whole]

theorem printed_iff {p : Prop} [Decidable p] {n : Nat} :
    (if p ∨ n ≤ kTwoGigabytes then some data else none) = some data ↔
      (if p then 0 else n) ≤ kTwoGigabytes := by
  by_cases short : p
  · simp [short]
  · simp [short]

private theorem idFromString_network (agree : Agree style rows) (subtype : UInt8) (rest : Bytes)
    (ip : lookup rows (literal "ip") = some ⟨literal "ip", .ip, subtype⟩)
    (ip6 : lookup rows (literal "ip6") = some ⟨literal "ip6", .ip6, subtype⟩) :
    idFromString v4 v6 rows (toAddress v4 v6 (subtype :: rest) 1) =
      if (rest.head? = some 1 ∧ rest.length = 5 ∨ rest.head? = some 2 ∧ rest.length = 17) ∨
        (subtype :: rest).length ≤ kTwoGigabytes then some (subtype :: rest) else none := by
  rw [toAddress]
  cases rest with
  | nil => simp [idFromString_unknown agree]
  | cons family addr =>
    simp only [List.getElem?_cons_succ, List.getElem?_cons_zero, List.head?_cons,
      Option.some.injEq, List.length_cons]
    by_cases four : family = 1
    · subst four
      have read := idFromString_address v4 v6 v4 [subtype, 1] addr agree (by decide) ip
        fun val => rfl
      refine read.trans ?_
      simp
    · rw [if_neg four]
      by_cases six : family = 2
      · subst six
        have read := idFromString_address v4 v6 v6 [subtype, 2] addr agree (by decide) ip6
          fun val => rfl
        refine read.trans ?_
        simp
      · rw [if_neg six, idFromString_unknown agree]
        simp [four, six]

theorem id_roundTrip (agree : Agree style rows) (nonempty : data ≠ [])
    (legal : Legal (textPart style data)) :
    idFromString v4 v6 rows (idToString v4 v6 style data) = some data ↔
      ¬ TagInText rows data ∧ hexSize style data ≤ kTwoGigabytes := by
  obtain ⟨subtype, rest, rfl⟩ := List.exists_cons_of_ne_nil nonempty
  have fits := agree.fits subtype
  rw [Fits] at fits
  rw [textPart] at legal
  rw [idToString, hexSize]
  have local_ : ∀ {s}, style subtype = s → s ≠ some (.text []) → subtype ≠ LocallyAssigned := by
    rintro s is other rfl
    exact other (is.symm.trans agree.untagged)
  cases is : style subtype with
  | none =>
    have other := local_ is (by simp)
    rw [idFromString_unknown agree]
    simp [not_tagInText other]
  | some kind =>
    cases kind with
    | raw tag =>
      have other := local_ is (by simp)
      simp only [is] at fits legal ⊢
      obtain ⟨space, given, found⟩ := fits
      rw [toRaw, idFromString_tag space found, Form.read, fromRaw_rawDataToHex, if_pos given,
        List.drop_succ_cons, List.drop_zero]
      simp [not_tagInText other]
    | text tag =>
      simp only [is] at fits legal ⊢
      rw [toText, List.drop_succ_cons, List.drop_zero, validUtf8String_of_legal legal]
      obtain ⟨given, ⟨rfl, rfl⟩ | ⟨named, space, found⟩⟩ := fits
      · have tags : TagInText rows (LocallyAssigned :: rest) ↔
            (split rest ' '.toUInt8).1 ∈ rows.map Row.tag := and_iff_right rfl
        rw [tags, and_iff_left (Nat.zero_le _)]
        cases found : lookup rows (split rest ' '.toUInt8).1 with
        | none =>
          refine iff_of_true ?_ (lookup_eq_none_iff.mp found)
          simp only [List.isEmpty_nil, if_true, idFromString, found, fromText, if_pos given]
        | some row =>
          refine iff_of_false (idFromString_ambiguous agree found) ?_
          rw [← lookup_eq_none_iff, found]
          exact Option.some_ne_none row
      · have other : subtype ≠ LocallyAssigned :=
          local_ is fun same => named (Style.text.inj (Option.some.inj same))
        rw [if_neg (by simpa using named), idFromString_tag space found, Form.read, fromText,
          if_pos given]
        simp [not_tagInText other]
    | mac =>
      have other := local_ is (by simp)
      simp only [is] at fits legal ⊢
      have read := idFromString_address v4 v6 macText [subtype] rest agree (by decide) fits
        fun val => rfl
      rw [and_iff_right (not_tagInText other), toAddressMAC]
      exact (congrArg (· = some (subtype :: rest)) read).to_iff.trans printed_iff
    | network =>
      have other := local_ is (by simp)
      simp only [is] at fits legal ⊢
      rw [and_iff_right (not_tagInText other),
        idFromString_network agree subtype rest fits.1 fits.2]
      exact printed_iff

end

section

variable {s rest : Bytes} {width n : Nat}

private theorem consumeUnsignedInteger_hex : consumeUnsignedInteger (literal "0x" ++ s) 0 =
    consumeUnsignedInteger s 16 := by
  have sensed : getAutoSenseRadix (literal "0x" ++ s) = (s, 16) := rfl
  rfl

theorem consumeUnsigned_writeHex (wide : width ≤ 64) (small : n < 2 ^ width) :
    consumeUnsigned width (literal "0x" ++ writeHex n ++ ' '.toUInt8 :: rest) 0 =
      some (' '.toUInt8 :: rest, n) := by
  have below : n < 2 ^ 64 := Nat.lt_of_lt_of_le small (Nat.pow_le_pow_right (by decide) wide)
  refine consumeUnsigned_eq.mpr ⟨?_, small⟩
  rw [List.append_assoc, consumeUnsignedInteger_hex]
  refine (consumeUnsignedInteger_iff (by decide)).mpr ⟨writeHex n, rfl,
    isNumeral_printNat (by decide) (by decide) n, ?_,
    (numeral_printNat (by decide) (by decide) n).symm, below⟩
  intro c first
  rw [List.head?_cons, Option.mem_some_iff] at first
  subst first
  decide

theorem ltrim_space (other : ∀ c ∈ s.head?, c ∉ whitespace) : ltrim (' '.toUInt8 :: s) = s := by
  cases s with
  | nil => rfl
  | cons c s =>
    have stop : ¬ whitespace.contains c = true := by
      rw [List.contains_iff_mem]
      exact other c rfl
    exact List.dropWhile_cons_of_neg stop

private theorem rawDataToHex_head (data : Bytes) :
    ∀ c ∈ (rawDataToHex data).head?, c ∉ whitespace := by
  have upper : ∀ e : UInt8, toHexUpperCase (e >>> 4) ∉ whitespace := by decide +kernel
  by_cases small : data.length ≤ kTwoGigabytes
  · rw [rawDataToHex_eq small]
    cases data with
    | nil => simp
    | cons e data =>
      intro c first
      rw [List.flatMap_cons, hexByte, List.cons_append, List.head?_cons,
        Option.mem_some_iff] at first
      subst first
      exact upper e
  · have equals : (literal "== hex too big ==").head? = some '='.toUInt8 := rfl
    rw [rawDataToHex, if_pos (Nat.lt_of_not_le small), equals]
    intro c first
    rw [Option.mem_some_iff] at first
    subst first
    decide

private theorem consumeUnsigned_unknown (s : Bytes) :
    consumeUnsigned width (literal "unknown" ++ s) 0 = none := by
  have sensed : getAutoSenseRadix (literal "unknown" ++ s) = (literal "unknown" ++ s, 10) := rfl
  have digits : consumeDigits 10 (literal "unknown" ++ s) 0 = some (literal "unknown" ++ s, 0) :=
    rfl
  have nothing : consumeUnsignedInteger (literal "unknown" ++ s) 0 = none := by
    simp only [consumeUnsignedInteger, sensed, digits, if_true]
    split <;> rfl
  rw [consumeUnsigned, nothing]

private theorem word_bytes (a b c subtype : UInt8) :
    let word := (a.toNat * 65536 + b.toNat * 256 + c.toNat) * 256 % 2 ^ 32 ||| subtype.toNat
    UInt8.ofNat (word / 2 ^ 24) = a ∧ UInt8.ofNat (word / 2 ^ 16) = b ∧
      UInt8.ofNat (word / 2 ^ 8) = c ∧ UInt8.ofNat word = subtype := by
  have first := a.toNat_lt
  have second := b.toNat_lt
  have third := c.toNat_lt
  have fourth := subtype.toNat_lt
  have fits : (a.toNat * 65536 + b.toNat * 256 + c.toNat) * 256 < 2 ^ 32 := by omega
  intro word
  have value : word =
      (a.toNat * 65536 + b.toNat * 256 + c.toNat) * 256 + subtype.toNat := by
    have shifted := Nat.shiftLeft_add_eq_or_of_lt fourth
      (a.toNat * 65536 + b.toNat * 256 + c.toNat)
    rw [Nat.shiftLeft_eq] at shifted
    exact (congrArg (· ||| subtype.toNat) (Nat.mod_eq_of_lt fits)).trans shifted.symm
  refine ⟨?_, ?_, ?_, ?_⟩
  all_goals
    apply UInt8.toNat_inj.mp
    rw [UInt8.toNat_ofNat']
    omega

private theorem orgSpecificFromString_eq (a b c subtype : UInt8) (rest : Bytes) :
    orgSpecificFromString (orgSpecificToString (a :: b :: c :: subtype :: rest)) =
      (fromRaw (rawDataToHex rest) 0).map fun data => a :: b :: c :: subtype :: data := by
  have first := a.toNat_lt
  have second := b.toNat_lt
  have third := c.toNat_lt
  have oui : a.toNat * 65536 + b.toNat * 256 + c.toNat < 2 ^ 32 := by omega
  have space : literal " 0x" = ' '.toUInt8 :: literal "0x" := rfl
  have zero : ∀ c ∈ (literal "0x" ++ writeHex subtype.toNat ++
      ' '.toUInt8 :: rawDataToHex rest).head?, c ∉ whitespace := by
    intro c first
    obtain rfl : '0'.toUInt8 = c := Option.some.inj first
    decide
  obtain ⟨byte1, byte2, byte3, byte4⟩ := word_bytes a b c subtype
  have text : orgSpecificToString (a :: b :: c :: subtype :: rest) =
      literal "0x" ++ writeHex (a.toNat * 65536 + b.toNat * 256 + c.toNat) ++ ' '.toUInt8 ::
        (literal "0x" ++ writeHex subtype.toNat ++ ' '.toUInt8 :: rawDataToHex rest) := by
    simp [orgSpecificToString, space]
  rw [text, orgSpecificFromString, consumeUnsigned_writeHex (by decide) oui]
  dsimp only
  rw [ltrim_space zero, consumeUnsigned_writeHex (by decide) subtype.toNat_lt]
  dsimp only
  rw [ltrim_space (rawDataToHex_head rest), byte1, byte2, byte3, byte4, fromRaw]
  dsimp only
  split <;> rfl

private theorem orgSpecific_roundTrip (data : Bytes) :
    orgSpecificFromString (orgSpecificToString data) = some data ↔
      4 ≤ data.length ∧ data.length - 4 ≤ kTwoGigabytes := by
  have short : ∀ {data : Bytes}, data.length < 4 →
      orgSpecificToString data = toRaw (literal "unknown") data 0 →
      (orgSpecificFromString (orgSpecificToString data) = some data ↔
        4 ≤ data.length ∧ data.length - 4 ≤ kTwoGigabytes) := by
    intro data size text
    refine iff_of_false ?_ (by omega)
    rw [text, toRaw, orgSpecificFromString, consumeUnsigned_unknown]
    exact (Option.some_ne_none data).symm
  match data with
  | a :: b :: c :: subtype :: rest =>
    rw [orgSpecificFromString_eq, fromRaw_rawDataToHex]
    simp only [List.length_cons]
    by_cases small : rest.length ≤ kTwoGigabytes
    · rw [if_pos small]
      exact iff_of_true rfl ⟨by omega, by omega⟩
    · rw [if_neg small]
      exact iff_of_false (by simp) (by omega)
  | [] => exact short (by decide) rfl
  | [a] => exact short (by simp) rfl
  | [a, b] => exact short (by simp) rfl
  | [a, b, c] => exact short (by simp) rfl

end

def LLDPType.text (type : LLDPType) (data : Bytes) : Bytes :=
  match type with
  | .chassisID => textPart chassisStyle data
  | .portID => textPart portStyle data
  | .byteString => data
  | .orgSpecific => []

/-- The values that their text determines: locally assigned text does not begin with the word of
another kind, an organization is complete, and no more than two gigabytes are printed in
hexadecimal. -/
def Printable (type : LLDPType) (data : Bytes) : Prop :=
  match type with
  | .chassisID => ¬ TagInText chassisRows data ∧ hexSize chassisStyle data ≤ kTwoGigabytes
  | .portID => ¬ TagInText portRows data ∧ hexSize portStyle data ≤ kTwoGigabytes
  | .byteString => True
  | .orgSpecific => 4 ≤ data.length ∧ data.length - 4 ≤ kTwoGigabytes

/-- A value with legal text is read back from its own text exactly when it is one of these. -/
theorem lldp_roundTrip_iff (v4 : AddressText 4) (v6 : AddressText 16) (type : LLDPType)
    (data : Bytes) (nonempty : data ≠ []) (legal : Legal (type.text data)) :
    lldpParse v4 v6 type (lldpToString v4 v6 type data) = some data ↔ Printable type data := by
  cases type with
  | chassisID => exact id_roundTrip chassis_agree nonempty legal
  | portID => exact id_roundTrip port_agree nonempty legal
  | byteString =>
    refine iff_of_true ?_ trivial
    have text : toText [] data 0 = data := validUtf8String_of_legal legal
    rw [lldpToString, text]
    rfl
  | orgSpecific => exact orgSpecific_roundTrip data

def verbatim (size : Nat) : AddressText size where
  toString addr := addr
  parse s := if s.length = size then some s else none
  parse_toString _ length := if_pos length

theorem lldp_roundTrip_port : lldpParse (verbatim 4) (verbatim 16) .portID
    (lldpToString (verbatim 4) (verbatim 16) .portID [2, 0x0A, 0xFF]) = some [2, 0x0A, 0xFF] :=
  (lldp_roundTrip_iff (verbatim 4) (verbatim 16) .portID [2, 0x0A, 0xFF] (by decide) .nil).mpr
    ⟨by decide, by decide⟩

/-- A locally assigned chassis id comes back as an interface name, and an organization of three
bytes does not come back. -/
theorem lldp_not_read_back :
    lldpParse (verbatim 4) (verbatim 16) .chassisID (lldpToString (verbatim 4) (verbatim 16)
        .chassisID (7 :: literal "ifname eth0")) = some (6 :: literal "eth0") ∧
      lldpParse (verbatim 4) (verbatim 16) .orgSpecific (lldpToString (verbatim 4) (verbatim 16)
        .orgSpecific [0x00, 0x26, 0xE1]) = none := by
  have text : lldpToString (verbatim 4) (verbatim 16) .chassisID (7 :: literal "ifname eth0") =
      literal "ifname eth0" := validUtf8String_of_legal (.of_ascii (by decide +kernel))
  rw [text]
  exact ⟨by decide, by decide⟩

end Libofp.Text.Lldp
