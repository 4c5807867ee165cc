/- GID: Libofp/Text/OutputJson
   digest: Trees of objects, arrays, bit sets and strings are written as JSON texts that are read
     back as the same trees. -/

import Libofp.Base.JsonParser
import Libofp.Text.Hex

set_option autoImplicit false

namespace Libofp.Text.OutputJson

open Base.Digits Base.Json Base.JsonParser Octets.ByteRange Hex
open Base (Json)

section

/-- What `findUnsafe` looks for. A character from 0x80 on is a large number after the cast. -/
def isUnsafe (ch : UInt8) : Bool := ch < 0x20 || ch == '\\'.toUInt8 || ch == '"'.toUInt8

/-- `findUnsafe`; `none` is `StringRef::npos`. -/
def findUnsafe (s : Bytes) (i : Nat) : Option Nat :=
  if h : i < s.length then
    if isUnsafe s[i] then some i else findUnsafe s (i + 1)
  else none
termination_by s.length - i

private theorem findUnsafe_bounds {s : Bytes} {i k : Nat} (found : findUnsafe s i = some k) :
    i ≤ k ∧ k < s.length := by
  fun_induction findUnsafe s i with
  | case1 i h =>
    cases found
    exact ⟨le_rfl, h⟩
  | case2 i h _ ih => exact ⟨(Nat.le_succ i).trans (ih found).1, (ih found).2⟩
  | case3 => cases found

def controlReplacement : List Bytes :=
  [literal "u0000", literal "u0001", literal "u0002", literal "u0003", literal "u0004",
    literal "u0005", literal "u0006", literal "u0007", literal "b", literal "t", literal "n",
    literal "u000B", literal "f", literal "r", literal "u000E", literal "u000F", literal "u0010",
    literal "u0011", literal "u0012", literal "u0013", literal "u0014", literal "u0015",
    literal "u0016", literal "u0017", literal "u0018", literal "u0019", literal "u001A",
    literal "u001B", literal "u001C", literal "u001D", literal "u001E", literal "u001F"]

/-- The stream and `NeedComma`. -/
structure Output where
  out : Bytes
  needComma : Bool

def output (s : Bytes) (o : Output) : Output := { o with out := o.out ++ s }

def substr (s : Bytes) (pos n : Nat) : Bytes := (s.drop pos).take n

/-- One unsafe character at `offset`: the `n` characters from `pos` on, a backslash and the
replacement of a control character; with the new `pos`. Another character is copied with the
characters behind it. -/
def escapeAt (s : Bytes) (pos n offset : Nat) (o : Output) : Nat × Output :=
  let o := output (literal "\\") (output (substr s pos n) o)
  let ch := s.getD offset 0
  if ch < 0x20 then (offset + 1, output (controlReplacement.getD ch.toNat []) o)
  else (offset, o)

/-- The loop of `scalarString`, and what is left of the string behind the last unsafe character. -/
def scalarStringLoop (s : Bytes) (pos offset : Nat) (o : Output) : Output :=
  match _found : findUnsafe s (offset + 1) with
  | none => output (s.drop pos) o
  | some offset' =>
    let escaped := escapeAt s pos (offset' - pos) offset' o
    scalarStringLoop s escaped.1 offset' escaped.2
termination_by s.length - offset
decreasing_by
  have bounds := findUnsafe_bounds _found
  omega

def scalarString (s : Bytes) (o : Output) : Output :=
  let o := output (literal "\"") o
  let o :=
    match findUnsafe s 0 with
    | none => output s o
    | some offset =>
      let escaped := escapeAt s 0 offset offset o
      scalarStringLoop s escaped.1 offset escaped.2
  output (literal "\"") o

end

section

def openBracket (s : Bytes) (o : Output) : Output := { output s o with needComma := false }

def separate (o : Output) : Output := if o.needComma then output (literal ",") o else o

def written (o : Output) : Output := { o with needComma := true }

def beginMapping : Output → Output := openBracket (literal "\x7b")

def endMapping : Output → Output := output (literal "\x7d")

def beginFlowMapping : Output → Output := beginMapping

def endFlowMapping : Output → Output := endMapping

def paddedKey (key : Bytes) (o : Output) : Output :=
  output (literal "\":") (output key (output (literal "\"") o))

/-- `preflightKey`: whether the value of the key is written. -/
def preflightKey (key : Bytes) (required sameAsDefault : Bool) (o : Output) : Bool × Output :=
  if required || !sameAsDefault then (true, paddedKey key (separate o)) else (false, o)

def postflightKey : Output → Output := written

def beginSequence : Output → Output := openBracket (literal "[")

def endSequence : Output → Output := output (literal "]")

def preflightElement : Output → Output := separate

def postflightElement : Output → Output := written

def beginFlowSequence : Output → Output := openBracket (literal "[")

def endFlowSequence : Output → Output := output (literal "]")

def preflightFlowElement : Output → Output := separate

def postflightFlowElement : Output → Output := written

def beginBitSetScalar : Output → Output := openBracket (literal "[")

def bitSetMatch (str : Bytes) (isSet : Bool) (o : Output) : Output :=
  if isSet then
    written (output (literal "\"") (output str (output (literal "\"") (separate o))))
  else o

/-- The conversion `0x%08X`. -/
def hexWord (val : UInt32) : Bytes :=
  literal "0x" ++
    ([28, 24, 20, 16, 12, 8, 4, 0] : List UInt32).map fun n =>
      toHexUpperCase ((val >>> n).toUInt8 &&& 0x0F)

def bitSetMatchOther (val : UInt32) (o : Output) : Output :=
  if val ≠ 0 then
    written (output (literal "\"" ++ hexWord val ++ literal "\"") (separate o))
  else o

def endBitSetScalar : Output → Output := output (literal "]")

end

section

def Plain (s : Bytes) : Prop := ∀ c ∈ s, isUnescaped c = true

instance : DecidablePred Plain := fun s => List.decidableBAll _ s

structure MapKey where
  key : Bytes
  plain : Plain key
  required : Bool
  sameAsDefault : Bool

/-- What is written. A bit set has the names of its bits, each with whether it is set, and a mask of
other bits when its type has one. -/
inductive Tree where
  | mapping (flow : Bool) (entries : List (MapKey × Tree))
  | sequence (flow : Bool) (elements : List Tree)
  | bitSet (names : List (Bytes × Bool)) (other : Option UInt32)
  | scalar (s : Bytes)

mutual

/-- `yamlize`: the callbacks of a tree in their order. -/
def yamlize : Tree → Output → Output
  | .mapping flow entries, o =>
    if flow then endFlowMapping (processKeys entries (beginFlowMapping o))
    else endMapping (processKeys entries (beginMapping o))
  | .sequence flow elements, o =>
    if flow then endFlowSequence (processFlowElements elements (beginFlowSequence o))
    else endSequence (processElements elements (beginSequence o))
  | .bitSet names other, o =>
    let o := names.foldl (fun o bit => bitSetMatch bit.1 bit.2 o) (beginBitSetScalar o)
    endBitSetScalar (other.elim o fun val => bitSetMatchOther val o)
  | .scalar s, o => scalarString s o

/-- `processKey`. The value of a key that is not written is not visited. -/
def processKey : MapKey × Tree → Output → Output
  | (key, value), o =>
    let preflight := preflightKey key.key key.required key.sameAsDefault o
    if preflight.1 then postflightKey (yamlize value preflight.2) else preflight.2

def processKeys : List (MapKey × Tree) → Output → Output
  | [], o => o
  | entry :: entries, o => processKeys entries (processKey entry o)

def processElements : List Tree → Output → Output
  | [], o => o
  | element :: elements, o =>
    processElements elements (postflightElement (yamlize element (preflightElement o)))

def processFlowElements : List Tree → Output → Output
  | [], o => o
  | element :: elements, o =>
    processFlowElements elements (postflightFlowElement (yamlize element (preflightFlowElement o)))

end

def toJson (t : Tree) : Bytes := (yamlize t ⟨[], false⟩).out

def bitStrings (names : List (Bytes × Bool)) (other : Option UInt32) : List Bytes :=
  (names.filter Prod.snd).map Prod.fst ++ ((other.filter (· ≠ 0)).map hexWord).toList

mutual

def Tree.json : Tree → Json
  | .mapping _ entries => .object (membersJson entries)
  | .sequence _ elements => .array (elementsJson elements)
  | .bitSet names other => .array ((bitStrings names other).map .string)
  | .scalar s => .string s

def memberJson : MapKey × Tree → List (Bytes × Json)
  | (key, value) => if key.required || !key.sameAsDefault then [(key.key, value.json)] else []

def membersJson : List (MapKey × Tree) → List (Bytes × Json)
  | [] => []
  | entry :: entries => memberJson entry ++ membersJson entries

def elementsJson : List Tree → List Json
  | [] => []
  | element :: elements => element.json :: elementsJson elements

end

mutual

/-- The names of the bits that are set stand for themselves between quotes. -/
def Tree.NamesPlain : Tree → Prop
  | .mapping _ entries => entriesPlain entries
  | .sequence _ elements => elementsPlain elements
  | .bitSet names _ => ∀ bit ∈ names, bit.2 = true → Plain bit.1
  | .scalar _ => True

def entryPlain : MapKey × Tree → Prop
  | (_, value) => value.NamesPlain

def entriesPlain : List (MapKey × Tree) → Prop
  | [] => True
  | entry :: entries => entryPlain entry ∧ entriesPlain entries

def elementsPlain : List Tree → Prop
  | [] => True
  | element :: elements => element.NamesPlain ∧ elementsPlain elements

end

end

section

def glyph (c : UInt8) : Glyph :=
  if c = 0x08 then .escaped 'b'.toUInt8
  else if c = 0x09 then .escaped 't'.toUInt8
  else if c = 0x0A then .escaped 'n'.toUInt8
  else if c = 0x0C then .escaped 'f'.toUInt8
  else if c = 0x0D then .escaped 'r'.toUInt8
  else if c < 0x20 then
    .unicode '0'.toUInt8 '0'.toUInt8 (toHexUpperCase (c >>> 4)) (toHexUpperCase (c &&& 0x0F))
  else if isUnsafe c then .escaped c
  else .plain c

theorem glyph_legal : ∀ c : UInt8, (glyph c).Legal := by decide +kernel

private theorem glyph_printable :
    ∀ c : UInt8, (glyph c).text.all (0x20 ≤ ·) = true := by decide +kernel

private theorem glyph_control : ∀ c : UInt8, c < 0x20 →
    literal "\\" ++ controlReplacement.getD c.toNat [] = (glyph c).text := by decide +kernel

private theorem glyph_marked : ∀ c : UInt8, isUnsafe c = true → ¬c < 0x20 →
    literal "\\" ++ [c] = (glyph c).text := by decide +kernel

private theorem glyph_safe :
    ∀ c : UInt8, isUnsafe c = false → glyph c = .plain c := by decide +kernel

def escaped (s : Bytes) : Bytes := s.flatMap fun c => (glyph c).text

theorem escaped_append (s t : Bytes) : escaped (s ++ t) = escaped s ++ escaped t :=
  List.flatMap_append

theorem escaped_safe {s : Bytes} (safe : ∀ c ∈ s, isUnsafe c = false) : escaped s = s := by
  induction s with
  | nil => rfl
  | cons c s ih =>
    have later := ih fun d member => safe d (List.mem_cons_of_mem _ member)
    rw [escaped, List.flatMap_cons, glyph_safe c (safe c List.mem_cons_self)]
    exact congrArg (c :: ·) later

theorem quoted_glyphs (s : Bytes) :
    quoted (s.map glyph) = literal "\"" ++ (escaped s ++ literal "\"") := by
  rw [quoted, List.flatMap_map]
  rfl

/-- Whether a character of a string stands for a byte, whatever follows it. -/
def standsFor (c : UInt8) : Glyph → Bool
  | .plain d => d == c
  | .escaped d => (escapes.lookup d).getD 0 == c
  | .unicode d e f g =>
    decide (numeral 16 [d, e, f, g] < 0xD800) && utf8 (numeral 16 [d, e, f, g]) == [c]

private theorem glyph_standsFor : ∀ c : UInt8, standsFor c (glyph c) = true := by decide +kernel

private theorem decode_unicode {a b c d : UInt8} (small : numeral 16 [a, b, c, d] < 0xD800)
    (glyphs : List Glyph) :
    decode (.unicode a b c d :: glyphs) = utf8 (numeral 16 [a, b, c, d]) ++ decode glyphs := by
  rw [decode.eq_def]
  dsimp only
  split
  · rw [if_neg fun pair => absurd pair.1 (Nat.not_le_of_lt small)]
  · rfl

private theorem decode_cons {c : UInt8} {g : Glyph} (means : standsFor c g = true)
    (glyphs : List Glyph) :
    decode (g :: glyphs) = c :: decode glyphs := by
  cases g with
  | plain d => rw [decode, eq_of_beq means]
  | escaped d => rw [decode, eq_of_beq means]
  | unicode d e f h =>
    obtain ⟨small, value⟩ := (Bool.and_eq_true _ _).mp means
    rw [decode_unicode (of_decide_eq_true small), eq_of_beq value, List.singleton_append]

theorem decode_glyphs (s : Bytes) : decode (s.map glyph) = s := by
  induction s with
  | nil => rfl
  | cons c s ih => rw [List.map_cons, decode_cons (glyph_standsFor c), ih]

theorem findUnsafe_end (front : Bytes) : findUnsafe front front.length = none := by
  rw [findUnsafe, dif_neg (Nat.lt_irrefl _)]

theorem findUnsafe_here {c : UInt8} (here : isUnsafe c = true) (front tail : Bytes) :
    findUnsafe (front ++ c :: tail) front.length = some front.length := by
  rw [findUnsafe, dif_pos (by simp)]
  simp [here]

theorem findUnsafe_run {run : Bytes} (safe : ∀ c ∈ run, isUnsafe c = false) (front tail : Bytes) :
    findUnsafe (front ++ (run ++ tail)) front.length =
      findUnsafe (front ++ run ++ tail) (front ++ run).length := by
  induction run generalizing front with
  | nil => simp
  | cons c run ih =>
    have later := ih (fun d member => safe d (List.mem_cons_of_mem _ member)) (front ++ [c])
    rw [findUnsafe, dif_pos (by simp)]
    simp [safe c List.mem_cons_self] at later ⊢
    exact later

theorem safe_or_split (s : Bytes) : (∀ c ∈ s, isUnsafe c = false) ∨
    ∃ run c tail, s = run ++ c :: tail ∧ (∀ d ∈ run, isUnsafe d = false) ∧ isUnsafe c = true := by
  induction s with
  | nil => exact .inl (by simp)
  | cons c s ih =>
    cases here : isUnsafe c with
    | true => exact .inr ⟨[], c, s, rfl, by simp, here⟩
    | false =>
      rcases ih with safe | ⟨run, d, tail, rfl, safe, marked⟩
      · exact .inl (by simpa [here] using safe)
      · exact .inr ⟨c :: run, d, tail, rfl, by simpa [here] using safe, marked⟩

@[simp]
theorem output_output (s t : Bytes) (o : Output) : output t (output s o) = output (s ++ t) o := by
  simp [output]

private theorem scalarStringLoop_none {s : Bytes} {pos offset : Nat}
    (found : findUnsafe s (offset + 1) = none) (o : Output) :
    scalarStringLoop s pos offset o = output (s.drop pos) o := by
  rw [scalarStringLoop]
  split
  · rfl
  · next found' => cases found.symm.trans found'

private theorem scalarStringLoop_some {s : Bytes} {pos offset k : Nat}
    (found : findUnsafe s (offset + 1) = some k) (o : Output) :
    scalarStringLoop s pos offset o =
      scalarStringLoop s (escapeAt s pos (k - pos) k o).1 k (escapeAt s pos (k - pos) k o).2 := by
  rw [scalarStringLoop]
  split
  · next found' => cases found.symm.trans found'
  · next found' =>
    cases found.symm.trans found'
    rfl

section

variable {front run tail : Bytes} {c : UInt8} {pos : Nat}

private theorem escapeAt_eq (copied : pos ≤ front.length) (o : Output) :
    escapeAt (front ++ (run ++ c :: tail)) pos (front.length + run.length - pos)
        (front.length + run.length) o =
      if c < 0x20 then
        (front.length + run.length + 1,
          output (front.drop pos ++
            (run ++ (literal "\\" ++ controlReplacement.getD c.toNat []))) o)
      else
        (front.length + run.length, output (front.drop pos ++ (run ++ literal "\\")) o) := by
  have text : substr (front ++ (run ++ c :: tail)) pos (front.length + run.length - pos) =
      front.drop pos ++ run := by
    rw [substr, List.drop_append_of_le_length copied, ← List.append_assoc]
    exact List.take_left' (by simp; omega)
  have here : (front ++ (run ++ c :: tail)).getD (front.length + run.length) 0 = c := by
    simp [List.getD]
  simp [escapeAt, text, output_output]

theorem scalarStringLoop_escape (marked : isUnsafe c = true) (copied : pos ≤ front.length)
    (later : ∀ pos o, pos ≤ (front ++ (run ++ [c])).length →
      scalarStringLoop (front ++ (run ++ [c]) ++ tail) pos (front.length + run.length) o =
        output ((front ++ (run ++ [c])).drop pos ++ escaped tail) o) (o : Output) :
    let escape := escapeAt (front ++ (run ++ c :: tail)) pos (front.length + run.length - pos)
      (front.length + run.length) o
    scalarStringLoop (front ++ (run ++ c :: tail)) escape.1 (front.length + run.length) escape.2 =
      output (front.drop pos ++ (run ++ ((glyph c).text ++ escaped tail))) o := by
  have whole : front ++ (run ++ c :: tail) = front ++ (run ++ [c]) ++ tail := by simp
  intro escape
  have step : escape = _ := escapeAt_eq copied o
  by_cases control : c < 0x20
  · -- the replacement stands for the character, which is passed over
    rw [if_pos control, glyph_control c control] at step
    have none : (front ++ (run ++ [c])).drop (front.length + run.length + 1) = [] :=
      List.drop_of_length_le (by simp [Nat.add_assoc])
    rw [step, whole, later _ _ (by simp), output_output, none]
    simp
  · -- the character itself is copied when the loop goes on
    rw [if_neg control] at step
    have rest : (front ++ (run ++ [c])).drop (front.length + run.length) = [c] := by
      rw [← List.append_assoc]
      exact List.drop_left' (by simp)
    rw [step, whole, later _ _ (by simp), output_output, rest, ← glyph_marked c marked control]
    simp

end

private theorem scalarStringLoop_eq (front tail : Bytes) {pos offset : Nat}
    (passed : front.length = offset + 1) (copied : pos ≤ front.length) (o : Output) :
    scalarStringLoop (front ++ tail) pos offset o = output (front.drop pos ++ escaped tail) o := by
  induction hn : tail.length using Nat.strong_induction_on generalizing front tail pos offset o with
  | h n ih =>
    subst hn
    rcases safe_or_split tail with safe | ⟨run, c, tail, rfl, safe, marked⟩
    · have found : findUnsafe (front ++ tail) (offset + 1) = none := by
        have run := findUnsafe_run safe front []
        rwa [List.append_nil, List.append_nil, findUnsafe_end, passed] at run
      rw [scalarStringLoop_none found, List.drop_append_of_le_length copied, escaped_safe safe]
    · have found : findUnsafe (front ++ (run ++ c :: tail)) (offset + 1) =
          some (front.length + run.length) := by
        rw [← passed, findUnsafe_run safe, findUnsafe_here marked, List.length_append]
      rw [scalarStringLoop_some found, escaped_append, escaped_safe safe]
      refine scalarStringLoop_escape marked copied (fun pos o copied => ?_) o
      exact ih tail.length (by simp; omega) _ tail (by simp; omega) copied o rfl

private theorem scalarString_eq (s : Bytes) (o : Output) :
    scalarString s o = output (quoted (s.map glyph)) o := by
  rw [quoted_glyphs, scalarString]
  rcases safe_or_split s with safe | ⟨run, c, tail, rfl, safe, marked⟩
  · have found : findUnsafe s 0 = none := by
      have run := findUnsafe_run safe [] []
      rwa [List.append_nil, List.nil_append, List.append_nil, findUnsafe_end] at run
    rw [found, escaped_safe safe]
    simp
  · have found : findUnsafe (run ++ c :: tail) 0 = some run.length := by
      exact (findUnsafe_run safe [] (c :: tail)).trans (findUnsafe_here marked run tail)
    have rest := @scalarStringLoop_escape [] run tail c 0 marked le_rfl
      (fun pos o copied => scalarStringLoop_eq _ tail (by simp) copied o)
    simp only [List.length_nil, List.nil_append, Nat.zero_add, Nat.sub_zero, List.drop_nil] at rest
    rw [found, escaped_append, escaped_safe safe]
    simp only [rest, output_output]
    simp [escaped]

end

section

def item (s : Bytes) (o : Output) : Output := written (output s (separate o))

def items (parts : List Bytes) (o : Output) : Output := parts.foldl (fun o s => item s o) o

def separated (parts : List Bytes) : Bytes := [','.toUInt8].intercalate parts

theorem items_append (parts more : List Bytes) (o : Output) :
    items (parts ++ more) o = items more (items parts o) :=
  List.foldl_append

private theorem items_more (parts : List Bytes) (out s : Bytes) :
    (items parts ⟨out ++ s, true⟩).out = out ++ separated (s :: parts) := by
  induction parts generalizing out s with
  | nil => rw [separated, List.intercalate_singleton]; rfl
  | cons part parts ih =>
    refine (ih (out ++ s ++ literal ",") part).trans ?_
    rw [separated, separated, List.intercalate_cons_cons, List.append_assoc, List.append_assoc,
      List.append_assoc]
    rfl

private theorem items_open (parts : List Bytes) (out : Bytes) :
    (items parts ⟨out, false⟩).out = out ++ separated parts := by
  cases parts with
  | nil => exact (List.append_nil out).symm
  | cons part parts => exact items_more parts out part

def Printable (s : Bytes) : Prop := ∀ c ∈ s, 0x20 ≤ c

theorem printable_of_all {s : Bytes} (all : s.all (0x20 ≤ ·) = true) : Printable s := by
  simpa [Printable] using all

theorem Printable.append {s t : Bytes} (first : Printable s) (second : Printable t) :
    Printable (s ++ t) := by
  intro c member
  rcases List.mem_append.mp member with member | member
  · exact first c member
  · exact second c member

def Written (node : Node) (s : Bytes) : Prop := Derives node s ∧ Printable s

private theorem printable_quoted {glyphs : List Glyph}
    (printable : ∀ g ∈ glyphs, Printable g.text) :
    Printable (quoted glyphs) := by
  have quote : Printable ['"'.toUInt8] := printable_of_all (by decide)
  have body : Printable (glyphs.flatMap Glyph.text) := by
    intro c member
    obtain ⟨g, known, inside⟩ := List.mem_flatMap.mp member
    exact printable g known c inside
  exact quote.append (body.append quote)

theorem written_scalar (s : Bytes) : Written (.value (.string s)) (quoted (s.map glyph)) := by
  have derives : Derives (.value (.string (decode (s.map glyph)))) (quoted (s.map glyph)) :=
    .string fun g member => by
      obtain ⟨c, _, rfl⟩ := List.mem_map.mp member
      exact glyph_legal c
  rw [decode_glyphs] at derives
  refine ⟨derives, printable_quoted fun g member => ?_⟩
  obtain ⟨c, _, rfl⟩ := List.mem_map.mp member
  exact printable_of_all (glyph_printable c)

theorem glyphs_plain {s : Bytes} (plain : Plain s) :
    quoted (s.map glyph) = literal "\"" ++ (s ++ literal "\"") := by
  have safe : ∀ c : UInt8, isUnescaped c = true → isUnsafe c = false := by decide +kernel
  rw [quoted_glyphs, escaped_safe fun c member => safe c (plain c member)]

theorem item_of_value {v : Json} {s : Bytes} (derives : Derives (.value v) s) :
    Derives (.item v) s := by
  have bare : Ws [] := by simp [Ws]
  simpa using Derives.item bare derives bare

theorem separated_printable {parts : List Bytes} (all : ∀ s ∈ parts, Printable s) :
    Printable (separated parts) := by
  have comma : Printable [','.toUInt8] := printable_of_all (by decide)
  induction parts with
  | nil => simp [separated, Printable]
  | cons s parts ih =>
    have here := all s List.mem_cons_self
    have later := ih fun t member => all t (List.mem_cons_of_mem _ member)
    cases parts with
    | nil => rwa [separated, List.intercalate_singleton]
    | cons t parts =>
      rw [separated, List.intercalate_cons_cons]
      exact (here.append comma).append later

private theorem derives_elements {v : Json} {vs : List Json} {s : Bytes} {parts : List Bytes}
    (here : Derives (.value v) s) (all : List.Forall₂ (fun v => Derives (.value v)) vs parts) :
    Derives (.elements (v :: vs)) (separated (s :: parts)) := by
  induction all generalizing v s with
  | nil =>
    rw [separated, List.intercalate_singleton]
    exact .element (item_of_value here)
  | cons next _ ih =>
    exact .elements (item_of_value here) (ih next)

private theorem derives_members {m : Bytes × Json} {ms : List (Bytes × Json)} {s : Bytes}
    {parts : List Bytes} (here : Derives (.pair m.1 m.2) s)
    (all : List.Forall₂ (fun m => Derives (.pair m.1 m.2)) ms parts) :
    Derives (.members (m :: ms)) (separated (s :: parts)) := by
  induction all generalizing m s with
  | nil =>
    rw [separated, List.intercalate_singleton]
    exact .member here
  | cons next _ ih =>
    exact .members here (ih next)

theorem printable_of_forall₂ {α : Type} {node : α → Node} {as : List α} {parts : List Bytes}
    (all : List.Forall₂ (fun a => Written (node a)) as parts) : ∀ s ∈ parts, Printable s := by
  induction all with
  | nil => simp
  | cons here _ ih =>
    intro s member
    rcases List.mem_cons.mp member with rfl | member
    · exact here.2
    · exact ih s member

theorem written_array {vs : List Json} {parts : List Bytes}
    (all : List.Forall₂ (fun v => Written (.value v)) vs parts) :
    Written (.value (.array vs)) (literal "[" ++ (separated parts ++ literal "]")) := by
  have square : Printable (literal "[") ∧ Printable (literal "]") :=
    ⟨printable_of_all (by decide), printable_of_all (by decide)⟩
  refine ⟨?_, square.1.append ((separated_printable (printable_of_forall₂ all)).append square.2)⟩
  cases all with
  | nil => exact Derives.emptyArray (w := []) (by simp [Ws])
  | cons here later => exact .array (derives_elements here.1 (later.imp fun _ _ => And.left))

private theorem written_object {ms : List (Bytes × Json)} {parts : List Bytes}
    (all : List.Forall₂ (fun m => Written (.pair m.1 m.2)) ms parts) :
    Written (.value (.object ms)) (literal "\x7b" ++ (separated parts ++ literal "\x7d")) := by
  have curly : Printable (literal "\x7b") ∧ Printable (literal "\x7d") :=
    ⟨printable_of_all (by decide), printable_of_all (by decide)⟩
  refine ⟨?_, curly.1.append ((separated_printable (printable_of_forall₂ all)).append curly.2)⟩
  cases all with
  | nil => exact Derives.emptyObject (w := []) (by simp [Ws])
  | cons here later => exact .object (derives_members here.1 (later.imp fun _ _ => And.left))

end

section

theorem brackets_out (opening closing : Bytes) (parts : List Bytes) (o : Output) :
    (output closing (items parts (openBracket opening o))).out =
      o.out ++ (opening ++ (separated parts ++ closing)) := by
  have inner := items_open parts (o.out ++ opening)
  rw [output, openBracket, output, inner]
  simp

private theorem bitSetMatch_set {name : Bytes} (plain : Plain name) (o : Output) :
    bitSetMatch name true o = item (quoted (name.map glyph)) o := by
  rw [glyphs_plain plain]
  simp [bitSetMatch, item]

private theorem hexWord_plain (val : UInt32) : Plain (hexWord val) := by
  have digit : ∀ b : UInt8, isUnescaped (toHexUpperCase (b &&& 0x0F)) = true := by decide +kernel
  have front : Plain (literal "0x") := by decide +kernel
  intro c member
  rcases List.mem_append.mp member with member | member
  · exact front c member
  · obtain ⟨n, _, rfl⟩ := List.mem_map.mp member
    exact digit _

private theorem bitSetMatchOther_items (other : Option UInt32) (o : Output) :
    other.elim o (fun val => bitSetMatchOther val o) =
      items ((((other.filter (· ≠ 0)).map hexWord).toList).map fun s =>
        quoted (s.map glyph)) o := by
  cases other with
  | none => rfl
  | some val =>
    by_cases zero : val = 0
    · subst zero
      rfl
    · simp [bitSetMatchOther, zero, Option.filter, items, item, glyphs_plain (hexWord_plain val)]

private theorem bitSet_items {names : List (Bytes × Bool)}
    (plain : ∀ bit ∈ names, bit.2 = true → Plain bit.1) (o : Output) :
    names.foldl (fun o bit => bitSetMatch bit.1 bit.2 o) o =
      items (((names.filter Prod.snd).map Prod.fst).map fun name => quoted (name.map glyph)) o := by
  induction names generalizing o with
  | nil => rfl
  | cons bit names ih =>
    obtain ⟨name, isSet⟩ := bit
    have later := ih fun bit member => plain bit (List.mem_cons_of_mem _ member)
    cases isSet with
    | false => exact later o
    | true =>
      have here := bitSetMatch_set (plain (name, true) List.mem_cons_self rfl) o
      exact (later _).trans (congrArg (items _) here)

private theorem processFlowElements_eq (elements : List Tree) (o : Output) :
    processFlowElements elements o = processElements elements o := by
  induction elements generalizing o with
  | nil => rw [processFlowElements, processElements]
  | cons element elements ih =>
    rw [processFlowElements, processElements, ih]
    rfl

private theorem written_strings (strings : List Bytes) :
    List.Forall₂ (fun v => Written (.value v)) (strings.map .string)
      (strings.map fun s => quoted (s.map glyph)) := by
  induction strings with
  | nil => exact .nil
  | cons s strings ih => exact .cons (written_scalar s) ih

private theorem written_pair (key : MapKey) {v : Json} {s : Bytes} (value : Written (.value v) s) :
    Written (.pair key.key v) (literal "\"" ++ (key.key ++ (literal "\":" ++ s))) := by
  have bare : Ws [] := by simp [Ws]
  have legal : ∀ g ∈ key.key.map glyph, g.Legal := by
    intro g member
    obtain ⟨c, _, rfl⟩ := List.mem_map.mp member
    exact glyph_legal c
  have derives := Derives.pair bare legal bare (item_of_value value.1)
  rw [decode_glyphs, glyphs_plain key.plain] at derives
  have marks : Printable (literal "\"") ∧ Printable (literal "\":") :=
    ⟨printable_of_all (by decide), printable_of_all (by decide)⟩
  have visible : ∀ c : UInt8, isUnescaped c = true → 0x20 ≤ c := by decide +kernel
  have name : Printable key.key := fun c member => visible c (key.plain c member)
  have colon : literal "\":" = literal "\"" ++ [':'.toUInt8] := by decide
  refine ⟨?_, marks.1.append (name.append (marks.2.append value.2))⟩
  simpa [colon] using derives

theorem written_eq_item {o o' : Output} {s : Bytes} (same : o'.out = (separate o).out ++ s) :
    written o' = item s o := by
  rw [written, same]
  rfl

mutual

theorem yamlize_writes : ∀ (t : Tree), t.NamesPlain → ∀ o : Output,
    ∃ s, (yamlize t o).out = o.out ++ s ∧ Written (.value t.json) s
  | .mapping flow entries, plain, o => by
    obtain ⟨parts, same, all⟩ := processKeys_writes entries plain (beginMapping o)
    refine ⟨_, ?_, written_object all⟩
    rw [yamlize, beginFlowMapping, endFlowMapping, ite_self, same]
    exact brackets_out ..
  | .sequence flow elements, plain, o => by
    obtain ⟨parts, same, all⟩ := processElements_writes elements plain (beginSequence o)
    refine ⟨_, ?_, written_array all⟩
    have flows : beginFlowSequence o = beginSequence o ∧ endFlowSequence = endSequence :=
      ⟨rfl, rfl⟩
    rw [yamlize, processFlowElements_eq, flows.1, flows.2, ite_self, same]
    exact brackets_out ..
  | .bitSet names other, plain, o => by
    refine ⟨_, ?_, written_array (written_strings (bitStrings names other))⟩
    rw [yamlize, bitSet_items plain, bitSetMatchOther_items, ← items_append, ← List.map_append]
    exact brackets_out ..
  | .scalar s, _, o => by
    refine ⟨_, ?_, written_scalar s⟩
    rw [yamlize, scalarString_eq]
    rfl

private theorem processKey_writes : ∀ (entry : MapKey × Tree), entryPlain entry → ∀ o : Output,
    ∃ parts, processKey entry o = items parts o ∧
      List.Forall₂ (fun m => Written (.pair m.1 m.2)) (memberJson entry) parts
  | (key, value), plain, o => by
    rw [processKey, memberJson, preflightKey]
    by_cases visit : (key.required || !key.sameAsDefault) = true
    · obtain ⟨s, same, text⟩ := yamlize_writes value plain (paddedKey key.key (separate o))
      rw [if_pos visit, if_pos visit]
      refine ⟨[_], ?_, .cons (written_pair key text) .nil⟩
      refine written_eq_item (same.trans ?_)
      simp [paddedKey, output]
    · rw [if_neg visit, if_neg visit]
      exact ⟨[], rfl, .nil⟩

theorem processKeys_writes : ∀ (entries : List (MapKey × Tree)), entriesPlain entries →
    ∀ o : Output, ∃ parts, processKeys entries o = items parts o ∧
      List.Forall₂ (fun m => Written (.pair m.1 m.2)) (membersJson entries) parts
  | [], _, _ => ⟨[], rfl, .nil⟩
  | entry :: entries, plain, o => by
    obtain ⟨first, same, here⟩ := processKey_writes entry plain.1 o
    obtain ⟨more, rest, later⟩ := processKeys_writes entries plain.2 (processKey entry o)
    refine ⟨first ++ more, ?_, List.rel_append here later⟩
    rw [processKeys, rest, same, items_append]

theorem processElements_writes : ∀ (elements : List Tree), elementsPlain elements →
    ∀ o : Output, ∃ parts, processElements elements o = items parts o ∧
      List.Forall₂ (fun v => Written (.value v)) (elementsJson elements) parts
  | [], _, _ => ⟨[], rfl, .nil⟩
  | element :: elements, plain, o => by
    obtain ⟨s, same, here⟩ := yamlize_writes element plain.1 (preflightElement o)
    have visit : postflightElement (yamlize element (preflightElement o)) = item s o :=
      written_eq_item same
    obtain ⟨parts, rest, later⟩ := processElements_writes elements plain.2 (item s o)
    refine ⟨s :: parts, ?_, .cons here later⟩
    rw [processElements, visit, rest]
    rfl

end

/-- What is written for a tree is a JSON text of it, which is read back as the tree, and has no
control characters. -/
theorem toJson_readBack (t : Tree) (plain : t.NamesPlain) :
    Derives (.value t.json) (toJson t) ∧ parse (toJson t) = some t.json ∧
      ∀ c ∈ toJson t, 0x20 ≤ c := by
  obtain ⟨s, same, derives, printable⟩ := yamlize_writes t plain ⟨[], false⟩
  have text : toJson t = s := same
  rw [text]
  exact ⟨derives, parse_of_derives (item_of_value derives), printable⟩

def sampleTree : Tree :=
  .mapping false
    [(⟨literal "flags", by decide +kernel, true, false⟩,
        .bitSet [(literal "SEND", true), (literal "CHECK", false)] (some 0x80)),
      (⟨literal "name", by decide +kernel, false, true⟩, .scalar (literal "x"))]

theorem toJson_readBack_sample : sampleTree.NamesPlain ∧
    parse (toJson sampleTree) = some sampleTree.json := by
  have plain : sampleTree.NamesPlain := by
    refine ⟨?_, trivial, trivial⟩
    show ∀ bit ∈ [(literal "SEND", true), (literal "CHECK", false)],
      bit.2 = true → Plain bit.1
    decide +kernel
  exact ⟨plain, (toJson_readBack sampleTree plain).2.1⟩

/-- The name of a bit is written as it is: a quote in it ends the string. -/
theorem toJson_quote_in_name :
    parse (toJson (.bitSet [(literal "\"", true)] none)) ≠
      some (Tree.json (.bitSet [(literal "\"", true)] none)) := by
  have stuck : parse (toJson (.bitSet [(literal "\"", true)] none)) = none := by
    decide +kernel
  exact nofun

end

end Libofp.Text.OutputJson
