/- GID: Libofp/Text/Hex
   digest: Hexadecimal text: the writers and readers of raw data, and the strings that the reader
     of delimited bytes accepts. -/

import Libofp.Base.Digits
import Libofp.Octets.ByteRange

set_option autoImplicit false

namespace Libofp.Text.Hex

open Octets.ByteRange Base.Digits

/-- `isxdigit`, in the C locale. -/
def isxdigit (c : UInt8) : Bool :=
  '0'.toUInt8 ≤ c && c ≤ '9'.toUInt8 || 'a'.toUInt8 ≤ c && c ≤ 'f'.toUInt8 ||
    'A'.toUInt8 ≤ c && c ≤ 'F'.toUInt8

def fromHex (hex : UInt8) : UInt32 :=
  if hex ≤ '9'.toUInt8 then hex.toUInt32 - '0'.toUInt8.toUInt32
  else (hex.toUInt32 &&& ~~~0x20) - 'A'.toUInt8.toUInt32 + 10

def HexDigitsUpperCase : Bytes := literal "0123456789ABCDEF"

def HexDigitsLowerCase : Bytes := literal "0123456789abcdef"

def toHexUpperCase (value : UInt8) : UInt8 := HexDigitsUpperCase.getD value.toNat 0

def toHexLowerCase (value : UInt8) : UInt8 := HexDigitsLowerCase.getD value.toNat 0

theorem isxdigit_iff : ∀ c : UInt8, isxdigit c = true ↔ IsDigit 16 c := by
  decide +kernel

theorem toNat_fromHex : ∀ c : UInt8, IsDigit 16 c → (fromHex c).toNat = digitValue c := by
  decide +kernel

/-- `UInt8_narrow_cast((FromHex(a) << 4) | FromHex(b))`. -/
def fromHexPair (a b : UInt8) : UInt8 := (fromHex a <<< 4 ||| fromHex b).toUInt8

/-- `RawDataToHexDelimitedLowercase`: the contents of `buf`, with the zero at its end. -/
def rawDataToHexDelimitedLowercase : Bytes → Bytes
  | [] => [0]
  | e :: rest =>
    rest.foldl (fun (p : Bytes) (e : UInt8) =>
      p ++ [':'.toUInt8, toHexLowerCase (e >>> 4), toHexLowerCase (e &&& 0x0F)])
        [toHexLowerCase (e >>> 4), toHexLowerCase (e &&& 0x0F)] ++ [0]

/-- The string that a pointer to `char` stands for. -/
def cString (buf : Bytes) : Bytes := buf.takeWhile (· != 0)

/-- The loop of `HexDelimitedToRawData`, with the bytes that are written so far: the value
returned and the bytes written. -/
def hexDelimitedLoop (length : Nat) (delimiter : UInt8) : Bytes → Bytes → Nat × Bytes
  | out, a :: b :: input =>
    if out.length ≥ length then (0, out)
    else if ¬ isxdigit a then (0, out)
    else if b = delimiter then
      hexDelimitedLoop length delimiter (out ++ [(fromHex a).toUInt8]) input
    else if ¬ isxdigit b then (0, out)
    else
      match input with
      | [] => ((out ++ [fromHexPair a b]).length, out ++ [fromHexPair a b])
      | delim :: input =>
        if delim ≠ delimiter then (0, out ++ [fromHexPair a b])
        else hexDelimitedLoop length delimiter (out ++ [fromHexPair a b]) input
  | out, [last] =>
    if out.length ≥ length then (0, out)
    else if ¬ isxdigit last then (0, out)
    else ((out ++ [(fromHex last).toUInt8]).length, out ++ [(fromHex last).toUInt8])
  | out, [] => (0, out)

def hexDelimitedToRawData (s : Bytes) (length : Nat) (delimiter : UInt8) : Nat × Bytes :=
  hexDelimitedLoop length delimiter [] s

def IsHexGroup (g : Bytes) : Prop := (g.length = 1 ∨ g.length = 2) ∧ ∀ c ∈ g, IsDigit 16 c

inductive HexGroups (delimiter : UInt8) : Bytes → List Nat → Prop where
  | last {g : Bytes} (group : IsHexGroup g) : HexGroups delimiter g [numeral 16 g]
  | more {g rest : Bytes} {values : List Nat} (group : IsHexGroup g)
    (later : HexGroups delimiter rest values) :
    HexGroups delimiter (g ++ delimiter :: rest) (numeral 16 g :: values)

section

variable {delimiter a b : UInt8} {rest out : Bytes} {values : List Nat} {n k : Nat}

theorem isHexGroup_one : IsHexGroup [a] ↔ IsDigit 16 a := by
  simp [IsHexGroup]

theorem isHexGroup_two : IsHexGroup [a, b] ↔ IsDigit 16 a ∧ IsDigit 16 b := by
  simp [IsHexGroup]

theorem IsHexGroup.cases {g : Bytes} (group : IsHexGroup g) :
    (∃ a, g = [a] ∧ IsDigit 16 a) ∨ ∃ a b, g = [a, b] ∧ IsDigit 16 a ∧ IsDigit 16 b := by
  rcases group.1 with one | two
  · obtain ⟨a, rfl⟩ := List.length_eq_one_iff.mp one
    exact .inl ⟨a, rfl, isHexGroup_one.mp group⟩
  · obtain ⟨a, b, rfl⟩ := List.length_eq_two.mp two
    exact .inr ⟨a, b, rfl, isHexGroup_two.mp group⟩

theorem hexGroups_iff {s : Bytes} : HexGroups delimiter s values ↔
    ∃ g, IsHexGroup g ∧ (s = g ∧ values = [numeral 16 g] ∨
      ∃ rest later, s = g ++ delimiter :: rest ∧ values = numeral 16 g :: later ∧
        HexGroups delimiter rest later) := by
  constructor
  · intro groups
    cases groups with
    | last group => exact ⟨_, group, .inl ⟨rfl, rfl⟩⟩
    | more group later => exact ⟨_, group, .inr ⟨_, _, rfl, rfl, later⟩⟩
  · rintro ⟨g, group, ⟨rfl, rfl⟩ | ⟨rest, later, rfl, rfl, groups⟩⟩
    · exact .last group
    · exact .more group groups

private theorem not_hexGroups_nil : ¬ HexGroups delimiter [] values := by
  intro groups
  obtain ⟨g, group, ⟨rfl, -⟩ | ⟨rest, later, same, -⟩⟩ := hexGroups_iff.mp groups
  · simp [IsHexGroup] at group
  · simp at same

theorem hexGroups_one :
    HexGroups delimiter [a] values ↔ IsDigit 16 a ∧ values = [digitValue a] := by
  constructor
  · intro groups
    obtain ⟨g, group, ⟨rfl, rfl⟩ | ⟨rest, later, same, -⟩⟩ := hexGroups_iff.mp groups
    · exact ⟨isHexGroup_one.mp group, rfl⟩
    · rcases group.cases with ⟨a, rfl, -⟩ | ⟨a, b, rfl, -⟩
      · simp at same
      · simp at same
  · rintro ⟨digit, rfl⟩
    exact .last (isHexGroup_one.mpr digit)

theorem hexGroups_two (other : ¬ IsDigit 16 delimiter) :
    HexGroups delimiter (a :: b :: rest) values ↔ IsDigit 16 a ∧
      (b = delimiter ∧ (∃ later, values = digitValue a :: later ∧
        HexGroups delimiter rest later) ∨
      b ≠ delimiter ∧ IsDigit 16 b ∧ (rest = [] ∧ values = [numeral 16 [a, b]] ∨
        ∃ input later, rest = delimiter :: input ∧ values = numeral 16 [a, b] :: later ∧
          HexGroups delimiter input later)) := by
  have differs : ∀ {b}, IsDigit 16 b → b ≠ delimiter := fun digit same => other (same ▸ digit)
  constructor
  · intro groups
    obtain ⟨g, group, ⟨rfl, rfl⟩ | ⟨input, later, same, rfl, following⟩⟩ :=
      hexGroups_iff.mp groups
    · rcases group.cases with ⟨_, same, -⟩ | ⟨a, b, same, first, second⟩
      · simp at same
      · obtain ⟨rfl, rfl, rfl⟩ : _ = a ∧ _ = b ∧ rest = [] := by simpa using same
        exact ⟨first, .inr ⟨differs second, second, .inl ⟨rfl, rfl⟩⟩⟩
    · rcases group.cases with ⟨c, rfl, first⟩ | ⟨c, d, rfl, first, second⟩
      · obtain ⟨rfl, rfl, rfl⟩ : a = c ∧ b = delimiter ∧ rest = input := by simpa using same
        exact ⟨first, .inl ⟨rfl, later, by rw [numeral_singleton], following⟩⟩
      · obtain ⟨rfl, rfl, rfl⟩ : a = c ∧ b = d ∧ rest = delimiter :: input := by
          simpa using same
        exact ⟨first, .inr ⟨differs second, second, .inr ⟨input, later, rfl, rfl, following⟩⟩⟩
  · rintro ⟨first, ⟨rfl, later, rfl, groups⟩ | ⟨-, second, ⟨rfl, rfl⟩ |
      ⟨input, later, rfl, rfl, groups⟩⟩⟩
    · exact .more (isHexGroup_one.mpr first) groups
    · exact .last (isHexGroup_two.mpr ⟨first, second⟩)
    · exact .more (isHexGroup_two.mpr ⟨first, second⟩) groups

theorem toUInt8_fromHex :
    ∀ a : UInt8, IsDigit 16 a → (fromHex a).toUInt8 = UInt8.ofNat (digitValue a) := by
  decide +kernel

theorem fromHexPair_eq (first : IsDigit 16 a) (second : IsDigit 16 b) :
    fromHexPair a b = UInt8.ofNat (numeral 16 [a, b]) := by
  have value : numeral 16 [a, b] = digitValue a <<< 4 ||| digitValue b := by
    rw [← Nat.shiftLeft_add_eq_or_of_lt second, Nat.shiftLeft_eq]
    exact numeral_concat (s := [a])
  rw [fromHexPair, value]
  apply UInt8.toNat_inj.mp
  rw [UInt32.toNat_toUInt8, UInt32.toNat_or, UInt32.toNat_shiftLeft, toNat_fromHex a first,
    toNat_fromHex b second, UInt8.toNat_ofNat']
  have small : digitValue a < 16 := first
  have fits : digitValue a <<< 4 < 2 ^ 32 := by
    omega
  exact congrArg (fun high => (high ||| digitValue b) % 2 ^ 8) (Nat.mod_eq_of_lt fits)

/-- What the loop returns when the rest of the input is made of groups and there is room for
them. -/
def Reads (n : Nat) (delimiter : UInt8) (out input : Bytes) (result : Nat × Bytes) : Prop :=
  ∃ values, HexGroups delimiter input values ∧ out.length + values.length ≤ n ∧
    result = (out.length + values.length, out ++ values.map UInt8.ofNat)

variable {s input : Bytes} {result : Nat × Bytes} {v : Nat}

theorem HexGroups.values_ne_nil (groups : HexGroups delimiter s values) : values ≠ [] := by
  cases groups <;> simp

theorem reads_more (step : ∀ values, HexGroups delimiter s values ↔
      ∃ later, values = v :: later ∧ HexGroups delimiter input later) :
    Reads n delimiter out s result ↔
      Reads n delimiter (out ++ [UInt8.ofNat v]) input result := by
  constructor
  · rintro ⟨values, groups, room, rfl⟩
    obtain ⟨later, rfl, following⟩ := (step values).mp groups
    refine ⟨later, following, ?_, ?_⟩
    · simpa [Nat.add_assoc, Nat.add_comm 1] using room
    · simp [Nat.add_assoc, Nat.add_comm 1]
  · rintro ⟨later, following, room, rfl⟩
    refine ⟨v :: later, (step _).mpr ⟨later, rfl, following⟩, ?_, ?_⟩
    · simpa [Nat.add_assoc, Nat.add_comm 1] using room
    · simp [Nat.add_assoc, Nat.add_comm 1]

theorem reads_last (step : ∀ values, HexGroups delimiter s values ↔ values = [v])
    (room : ¬ out.length ≥ n) :
    Reads n delimiter out s result ↔
      ((out ++ [UInt8.ofNat v]).length, out ++ [UInt8.ofNat v]) = result := by
  constructor
  · rintro ⟨values, groups, -, rfl⟩
    rw [(step values).mp groups]
    simp
  · rintro rfl
    refine ⟨[v], (step _).mpr rfl, Nat.lt_of_not_le room, by simp⟩

theorem not_reads_full (full : out.length ≥ n) : ¬ Reads n delimiter out s result := by
  rintro ⟨values, groups, room, -⟩
  have some := List.length_pos_iff.mpr groups.values_ne_nil
  omega

theorem not_reads (nothing : ∀ values, ¬ HexGroups delimiter s values) :
    ¬ Reads n delimiter out s result := by
  rintro ⟨values, groups, -⟩
  exact nothing values groups

private theorem hexDelimitedLoop_iff (other : ¬ IsDigit 16 delimiter) (positive : 0 < result.1) :
    hexDelimitedLoop n delimiter out input = result ↔ Reads n delimiter out input result := by
  have refused : ∀ {written s}, ¬ Reads n delimiter written s result → ∀ {out},
      ((0, out) = result ↔ Reads n delimiter written s result) := by
    intro written s not out
    refine iff_of_false ?_ not
    rintro rfl
    exact Nat.lt_irrefl 0 positive
  fun_induction hexDelimitedLoop n delimiter out input with
  | case1 out a b input full => exact refused (not_reads_full full)
  | case2 out a b input room first =>
    rw [isxdigit_iff] at first
    refine refused (not_reads fun values groups => ?_)
    exact first ((hexGroups_two other).mp groups).1
  | case3 out a input room first ih =>
    rw [not_not, isxdigit_iff] at first
    refine ih.trans ?_
    rw [toUInt8_fromHex a first]
    refine (reads_more fun values => ?_).symm
    rw [hexGroups_two other]
    simp [first]
  | case4 out a b input room first differs second =>
    rw [isxdigit_iff] at second
    refine refused (not_reads fun values groups => ?_)
    rw [hexGroups_two other] at groups
    simp [differs, second] at groups
  | case5 out a b room first differs second =>
    rw [not_not, isxdigit_iff] at first second
    rw [fromHexPair_eq first second]
    refine (reads_last (fun values => ?_) room).symm
    rw [hexGroups_two other]
    simp [first, second, differs]
  | case6 out a b room first differs second delim input third =>
    refine refused (not_reads fun values groups => ?_)
    rw [hexGroups_two other] at groups
    simp [differs, third] at groups
  | case7 out a b room first differs second delim input third ih =>
    rw [not_not, isxdigit_iff] at first second
    rw [not_not] at third
    subst third
    refine ih.trans ?_
    rw [fromHexPair_eq first second]
    refine (reads_more fun values => ?_).symm
    rw [hexGroups_two other]
    simp [first, second, differs]
  | case8 out last full => exact refused (not_reads_full full)
  | case9 out last room digit =>
    rw [isxdigit_iff] at digit
    exact refused (not_reads fun values groups => digit (hexGroups_one.mp groups).1)
  | case10 out last room digit =>
    rw [not_not, isxdigit_iff] at digit
    rw [toUInt8_fromHex last digit]
    refine (reads_last (fun values => ?_) room).symm
    rw [hexGroups_one]
    simp [digit]
  | case11 out => exact refused (not_reads fun values => not_hexGroups_nil)

end

theorem lowercase_digits : ∀ e : UInt8, IsDigit 16 (toHexLowerCase (e >>> 4)) ∧
    IsDigit 16 (toHexLowerCase (e &&& 0x0F)) ∧
    numeral 16 [toHexLowerCase (e >>> 4), toHexLowerCase (e &&& 0x0F)] = e.toNat := by
  decide +kernel

theorem HexGroups.mem {delimiter c : UInt8} {s : Bytes} {values : List Nat}
    (groups : HexGroups delimiter s values) (member : c ∈ s) : IsDigit 16 c ∨ c = delimiter := by
  induction groups with
  | last group => exact .inl (group.2 c member)
  | more group _ ih =>
    rcases List.mem_append.mp member with inside | later
    · exact .inl (group.2 c inside)
    · rcases List.mem_cons.mp later with same | later
      · exact .inr same
      · exact ih later

private theorem rawDataToHexDelimitedLowercase_groups {data : Bytes} (some : data ≠ []) :
    ∃ text, rawDataToHexDelimitedLowercase data = text ++ [0] ∧
      HexGroups ':'.toUInt8 text (data.map UInt8.toNat) := by
  obtain ⟨e, rest, rfl⟩ := List.exists_cons_of_ne_nil some
  rw [rawDataToHexDelimitedLowercase, List.foldl_append_eq_append]
  refine ⟨_, rfl, ?_⟩
  clear some
  induction rest generalizing e with
  | nil =>
    obtain ⟨first, second, value⟩ := lowercase_digits e
    rw [List.map_singleton, ← value]
    exact .last (isHexGroup_two.mpr ⟨first, second⟩)
  | cons next rest ih =>
    obtain ⟨first, second, value⟩ := lowercase_digits e
    rw [List.map_cons (a := e), ← value]
    exact .more (isHexGroup_two.mpr ⟨first, second⟩) (ih next)

private theorem cString_of_groups {text : Bytes} {values : List Nat}
    (groups : HexGroups ':'.toUInt8 text values) : cString (text ++ [0]) = text := by
  have inside : ∀ c ∈ text, (c != 0) = true := by
    intro c member
    rw [bne_iff_ne]
    rintro rfl
    exact absurd (groups.mem member) (by decide)
  rw [cString, List.takeWhile_append_of_pos inside, List.takeWhile_cons_of_neg (by decide),
    List.append_nil]

section

variable {s bytes : Bytes} {length k : Nat} {delimiter : UInt8}

theorem hexDelimitedToRawData_eq (other : ¬ IsDigit 16 delimiter) (positive : 0 < k) :
    hexDelimitedToRawData s length delimiter = (k, bytes) ↔
      ∃ values, HexGroups delimiter s values ∧ values.length = k ∧ k ≤ length ∧
        values.map UInt8.ofNat = bytes := by
  rw [hexDelimitedToRawData, hexDelimitedLoop_iff other positive, Reads]
  apply exists_congr
  intro values
  apply and_congr_right
  intro groups
  rw [List.length_nil, Nat.zero_add, List.nil_append, Prod.mk.injEq, eq_comm, eq_comm (a := bytes)]
  constructor
  · rintro ⟨room, rfl, same⟩
    exact ⟨rfl, room, same⟩
  · rintro ⟨rfl, room, same⟩
    exact ⟨room, rfl, same⟩

theorem hexDelimitedToRawData_lowercase {data : Bytes} (some : data ≠ []) :
    hexDelimitedToRawData (cString (rawDataToHexDelimitedLowercase data)) data.length
      ':'.toUInt8 = (data.length, data) := by
  obtain ⟨text, written, groups⟩ := rawDataToHexDelimitedLowercase_groups some
  rw [written, cString_of_groups groups]
  refine (hexDelimitedToRawData_eq (by decide) (List.length_pos_iff.mpr some)).mpr
    ⟨_, groups, List.length_map _, Nat.le_refl _, ?_⟩
  rw [List.map_map]
  exact List.map_id'' (fun b => UInt8.ofNat_toNat) data

/-- `HexDelimitedToRawData` accepts the strings of at most `length` groups, with single
delimiters between them and nothing around them, and writes the values of the groups. It reads
back what `RawDataToHexDelimitedLowercase` writes. -/
theorem hexDelimitedToRawData_grammar (other : ¬ IsDigit 16 delimiter) :
    (∀ (s bytes : Bytes) (length k : Nat), 1 ≤ length → 0 < k →
      (hexDelimitedToRawData s length delimiter = (k, bytes) ↔
        ∃ values, HexGroups delimiter s values ∧ values.length = k ∧ k ≤ length ∧
          values.map UInt8.ofNat = bytes)) ∧
    (∀ (s : Bytes) (length : Nat), 1 ≤ length →
      (¬ ∃ values, HexGroups delimiter s values ∧ values.length ≤ length) →
        (hexDelimitedToRawData s length delimiter).1 = 0) ∧
    ∀ data : Bytes, data.length = 6 ∨ data.length = 8 →
      hexDelimitedToRawData (cString (rawDataToHexDelimitedLowercase data)) data.length
        ':'.toUInt8 = (data.length, data) := by
  refine ⟨fun s bytes length k _ positive => hexDelimitedToRawData_eq other positive, ?_, ?_⟩
  · intro s length _ nothing
    by_contra positive
    obtain ⟨values, groups, size, room, -⟩ :=
      (hexDelimitedToRawData_eq other (Nat.pos_of_ne_zero positive)).mp (Prod.mk.eta).symm
    exact nothing ⟨values, groups, size ▸ room⟩
  · intro data size
    refine hexDelimitedToRawData_lowercase ?_
    rintro rfl
    simp at size

theorem hexDelimitedToRawData_grammar_two_groups :
    hexDelimitedToRawData (literal "0a:f") 2 ':'.toUInt8 = (2, [10, 15]) := by
  have group : IsHexGroup (literal "0a") := isHexGroup_two.mpr (by decide)
  have last : IsHexGroup (literal "f") := isHexGroup_one.mpr (by decide)
  exact ((hexDelimitedToRawData_grammar (by decide)).1 _ _ 2 2 (by decide) (by decide)).mpr
    ⟨_, .more group (.last last), rfl, by decide, by decide⟩

end

def kTwoGigabytes : Nat := 0x80000000

def hexByte (byte : UInt8) : Bytes := [toHexUpperCase (byte >>> 4), toHexUpperCase (byte &&& 0x0F)]

/-- `RawDataToHex`, which returns a string. -/
def rawDataToHex (data : Bytes) : Bytes :=
  if data.length > kTwoGigabytes then literal "== hex too big =="
  else data.foldl (fun result byte => result ++ hexByte byte) []

/-- The loop of the `RawDataToHex` that writes to a stream: `os` is what was written before. -/
def rawDataToHexLoop (os data : Bytes) : Bytes :=
  if data.length ≥ 128 then
    rawDataToHexLoop
      (os ++ (data.take 128).foldl (fun buf byte => buf ++ hexByte byte) []) (data.drop 128)
  else os ++ data.foldl (fun buf byte => buf ++ hexByte byte) []
termination_by data.length
decreasing_by
  rw [List.length_drop]
  omega

/-- `RawDataToHex`, which writes to a stream. -/
def rawDataToHexStream (os data : Bytes) : Bytes :=
  if data.length > kTwoGigabytes then os ++ literal "== hex too big =="
  else rawDataToHexLoop os data

/-- The loop of `HexToRawData`, with the result so far and the digit that waits for a second
one. -/
def hexToRawDataLoop : Bytes → Bytes → Option UInt8 → Bytes
  | [], result, _ => result
  | c :: inp, result, ch =>
    if c = 0 then result
    else if isxdigit c then
      match ch with
      | none => hexToRawDataLoop inp result (some c)
      | some high => hexToRawDataLoop inp (result ++ [fromHexPair high c]) none
    else hexToRawDataLoop inp result ch

/-- `HexToRawData`, which returns a string. -/
def hexToRawData (hex : Bytes) : Bytes := hexToRawDataLoop hex [] none

/-- `isspace`, in the C locale. -/
def isspace (c : UInt8) : Bool := c == ' '.toUInt8 || 0x09 ≤ c && c ≤ 0x0D

/-- The loop of the `HexToRawData` that writes to a buffer of `maxlen` bytes: the bytes written
and the value of `error`. -/
def hexToRawBufferLoop (maxlen : Nat) : Bytes → Bytes → Option UInt8 → Bool → Bytes × Bool
  | [], out, ch, nonhex => (out, nonhex || ch.isSome)
  | c :: inp, out, ch, nonhex =>
    if c = 0 then (out, nonhex || ch.isSome)
    else if isxdigit c then
      match ch with
      | none => hexToRawBufferLoop maxlen inp out (some c) nonhex
      | some high =>
        if (out ++ [fromHexPair high c]).length ≥ maxlen then
          (out ++ [fromHexPair high c], nonhex)
        else hexToRawBufferLoop maxlen inp (out ++ [fromHexPair high c]) none nonhex
    else hexToRawBufferLoop maxlen inp out ch (nonhex || !isspace c)

/-- `HexToRawData`, which writes to a buffer. -/
def hexToRawBuffer (hex : Bytes) (maxlen : Nat) : Bytes × Bool :=
  if maxlen = 0 then ([], false) else hexToRawBufferLoop maxlen hex [] none false

/-- The loop of `HexStrictToRawData`. -/
def hexStrictLoop (length : Nat) : Bytes → Bytes → Nat × Bytes
  | out, a :: b :: input =>
    if out.length ≥ length then (0, out)
    else if ¬ isxdigit a ∨ ¬ isxdigit b then (0, out)
    else hexStrictLoop length (out ++ [fromHexPair a b]) input
  | out, [_] => (0, out)
  | out, [] => (out.length, out)

def hexStrictToRawData (s : Bytes) (length : Nat) : Nat × Bytes := hexStrictLoop length [] s

theorem uppercase_digits : ∀ e : UInt8, isxdigit (toHexUpperCase (e >>> 4)) = true ∧
    isxdigit (toHexUpperCase (e &&& 0x0F)) = true ∧
    fromHexPair (toHexUpperCase (e >>> 4)) (toHexUpperCase (e &&& 0x0F)) = e := by
  decide +kernel

theorem ne_zero_of_isxdigit {c : UInt8} (digit : isxdigit c = true) : c ≠ 0 := by
  rintro rfl
  exact absurd digit (by decide)

theorem rawDataToHex_eq {data : Bytes} (small : data.length ≤ kTwoGigabytes) :
    rawDataToHex data = data.flatMap hexByte := by
  rw [rawDataToHex, if_neg (Nat.not_lt.mpr small), List.flatMap_eq_foldl]

private theorem rawDataToHexLoop_eq (os data : Bytes) :
    rawDataToHexLoop os data = os ++ data.flatMap hexByte := by
  fun_induction rawDataToHexLoop os data with
  | case1 os data long ih =>
    rw [ih, ← List.flatMap_eq_foldl, List.append_assoc, ← List.flatMap_append,
      List.take_append_drop]
  | case2 os data short => rw [List.flatMap_eq_foldl]

theorem rawDataToHexStream_eq {data : Bytes} (small : data.length ≤ kTwoGigabytes) (os : Bytes) :
    rawDataToHexStream os data = os ++ data.flatMap hexByte := by
  rw [rawDataToHexStream, if_neg (Nat.not_lt.mpr small), rawDataToHexLoop_eq]

private theorem hexToRawDataLoop_hexByte (e : UInt8) (inp result : Bytes) :
    hexToRawDataLoop (hexByte e ++ inp) result none =
      hexToRawDataLoop inp (result ++ [e]) none := by
  obtain ⟨first, second, pair⟩ := uppercase_digits e
  rw [hexByte, List.cons_append, List.cons_append, List.nil_append, hexToRawDataLoop,
    if_neg (ne_zero_of_isxdigit first), if_pos first, hexToRawDataLoop,
    if_neg (ne_zero_of_isxdigit second), if_pos second, pair]

private theorem hexToRawDataLoop_flatMap (data result : Bytes) :
    hexToRawDataLoop (data.flatMap hexByte) result none = result ++ data := by
  induction data generalizing result with
  | nil => rw [List.flatMap_nil, hexToRawDataLoop, List.append_nil]
  | cons e data ih =>
    rw [List.flatMap_cons, hexToRawDataLoop_hexByte, ih, List.append_assoc,
      List.singleton_append]

theorem hexToRawData_flatMap (data : Bytes) : hexToRawData (data.flatMap hexByte) = data := by
  rw [hexToRawData, hexToRawDataLoop_flatMap, List.nil_append]

private theorem hexToRawBufferLoop_hexByte {maxlen : Nat} {out : Bytes}
    (room : out.length + 1 < maxlen) (e : UInt8) (inp : Bytes) (nonhex : Bool) :
    hexToRawBufferLoop maxlen (hexByte e ++ inp) out none nonhex =
      hexToRawBufferLoop maxlen inp (out ++ [e]) none nonhex := by
  obtain ⟨first, second, pair⟩ := uppercase_digits e
  rw [hexByte, List.cons_append, List.cons_append, List.nil_append, hexToRawBufferLoop,
    if_neg (ne_zero_of_isxdigit first), if_pos first, hexToRawBufferLoop,
    if_neg (ne_zero_of_isxdigit second), if_pos second, pair]
  rw [if_neg (by rw [List.length_append, List.length_singleton]; omega)]

private theorem hexToRawBufferLoop_flatMap {maxlen : Nat} (data out : Bytes)
    (room : out.length + data.length < maxlen) :
    hexToRawBufferLoop maxlen (data.flatMap hexByte) out none false = (out ++ data, false) := by
  induction data generalizing out with
  | nil => rw [List.flatMap_nil, hexToRawBufferLoop, List.append_nil]; rfl
  | cons e data ih =>
    rw [List.length_cons] at room
    rw [List.flatMap_cons, hexToRawBufferLoop_hexByte (by omega),
      ih _ (by rw [List.length_append, List.length_singleton]; omega), List.append_assoc,
      List.singleton_append]

theorem length_hexToRawBufferLoop (maxlen : Nat) (inp out : Bytes) (ch : Option UInt8)
    (nonhex : Bool) :
    2 * (hexToRawBufferLoop maxlen inp out ch nonhex).1.length ≤
      2 * out.length + ch.toList.length + inp.length := by
  fun_induction hexToRawBufferLoop maxlen inp out ch nonhex
  all_goals simp only [List.length_append, List.length_cons, List.length_nil, Option.toList] at *
  all_goals omega

theorem hexToRawBuffer_flatMap {maxlen : Nat} {data : Bytes} (room : data.length < maxlen) :
    hexToRawBuffer (data.flatMap hexByte) maxlen = (data, false) := by
  rw [hexToRawBuffer, if_neg (by omega),
    hexToRawBufferLoop_flatMap data [] (by rw [List.length_nil]; omega), List.nil_append]

end Libofp.Text.Hex
