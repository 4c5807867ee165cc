/- GID: Libofp/Text/GetJson
   digest: A stream of JSON objects is split at their braces. -/

import Libofp.Base.JsonParser
import Libofp.Octets.ByteRange

set_option autoImplicit false

namespace Libofp.Text.GetJson

open Base.Digits Base.Json Base.JsonParser Octets.ByteRange
open Base (Json)

/-- A sum in `int`, which is undefined where it leaves the type. -/
def int (x : Int) : Option Int :=
  if -2147483648 ≤ x ∧ x ≤ 2147483647 then some x else none

structure Scan where
  input : Bytes
  json : Bytes
  newlineCount : Int

/-- `scanDoubleQuotes`: the rest of a string, whose first quote was read. -/
def scanDoubleQuotes : Bytes → Bytes → Int → Option Scan
  | [], json, newlineCount => some ⟨[], json, newlineCount⟩
  | ch :: input, json, newlineCount =>
    if ch = '"'.toUInt8 then some ⟨input, json ++ [ch], newlineCount⟩
    else if ch = '\\'.toUInt8 then
      match input with
      -- the character stays the backslash when there is no other one
      | [] => some ⟨[], json ++ [ch], newlineCount⟩
      | next :: input => scanDoubleQuotes input (json ++ [ch, next]) newlineCount
    else if ch = '\n'.toUInt8 then do
      scanDoubleQuotes input (json ++ [ch]) (← int (newlineCount + 1))
    else scanDoubleQuotes input (json ++ [ch]) newlineCount

private theorem scanDoubleQuotes_length {input json : Bytes} {newlineCount : Int} {scan : Scan}
    (done : scanDoubleQuotes input json newlineCount = some scan) :
    scan.input.length ≤ input.length := by
  fun_induction scanDoubleQuotes input json newlineCount with
  | case1 | case2 | case3 =>
    cases done
    simp
  | case4 json newlineCount next input _ ih => exact (ih done).trans (by simp; omega)
  | case5 json newlineCount input _ _ ih =>
    obtain ⟨count, _, done⟩ := Option.bind_eq_some_iff.mp done
    exact (ih count done).trans (by simp)
  | case6 ch input json newlineCount _ _ _ ih => exact (ih done).trans (by simp)

/-- The loop of `scanObject`. -/
def scanObjectLoop (input json : Bytes) (newlineCount brace : Int) : Option Scan :=
  match input with
  | [] => some ⟨[], json, newlineCount⟩
  | ch :: input =>
    if ch = '\x7b'.toUInt8 then do
      scanObjectLoop input (json ++ [ch]) newlineCount (← int (brace + 1))
    else if ch = '\x7d'.toUInt8 then do
      let brace ← int (brace - 1)
      if brace = 0 then some ⟨input, json ++ [ch], newlineCount⟩
      else scanObjectLoop input (json ++ [ch]) newlineCount brace
    else if ch = '"'.toUInt8 then
      match _done : scanDoubleQuotes input (json ++ [ch]) newlineCount with
      | none => none
      | some scan => scanObjectLoop scan.input scan.json scan.newlineCount brace
    else if ch = '\n'.toUInt8 then do
      scanObjectLoop input (json ++ [ch]) (← int (newlineCount + 1)) brace
    else scanObjectLoop input (json ++ [ch]) newlineCount brace
termination_by input.length
decreasing_by
  all_goals first
    | exact Nat.lt_succ_of_le (scanDoubleQuotes_length _done)
    | exact Nat.lt_succ_self _

/-- `scanObject`: the rest of an object, whose first brace was read. -/
def scanObject (input json : Bytes) (newlineCount : Int) : Option Scan :=
  scanObjectLoop input json newlineCount 1

/-- What a call gives back: its result, `json` and `lineNum`. -/
structure Result where
  found : Bool
  json : Bytes
  lineNum : Int
  deriving DecidableEq

/-- `getjson`, with what is left of the stream and the count of newlines behind it. -/
def getjson : Bytes → Int → Option (Result × Bytes × Int)
  | [], newlineCount => some (⟨false, [], -1⟩, [], newlineCount)
  | ch :: input, newlineCount =>
    if ch = '\x7b'.toUInt8 then do
      let lineNum ← int (newlineCount + 1)
      let scan ← scanObject input [ch] newlineCount
      return (⟨true, scan.json, lineNum⟩, scan.input, scan.newlineCount)
    else if ch = '\n'.toUInt8 then do getjson input (← int (newlineCount + 1))
    else getjson input newlineCount

def calls : Nat → Bytes → Int → Option (List Result)
  | 0, _, _ => some []
  | k + 1, input, newlineCount => do
    let (result, input, newlineCount) ← getjson input newlineCount
    return result :: (← calls k input newlineCount)

/-- The greatest `int`. -/
abbrev intMax : Nat := 2147483647

def newlines (s : Bytes) : Nat := s.count '\n'.toUInt8

@[simp]
theorem newlines_append (s t : Bytes) : newlines (s ++ t) = newlines s + newlines t :=
  List.count_append

theorem newlines_cons_ne {c : UInt8} (other : c ≠ '\n'.toUInt8) (s : Bytes) :
    newlines (c :: s) = newlines s :=
  List.count_cons_of_ne other

theorem int_succ (n : Nat) :
    int ((n : Int) + 1) = if n + 1 ≤ intMax then some ((n + 1 : Nat) : Int) else none := by
  unfold int intMax
  split <;> split <;> first | rfl | omega

private theorem int_pred {b : Nat} (small : b ≤ intMax) :
    int (((b + 1 : Nat) : Int) - 1) = some (b : Int) := by
  unfold int
  rw [if_pos (by unfold intMax at small; omega)]
  congr 1
  omega

/-- The scanner copies the text and stands behind it with the same count of braces, unless a counter
overflows on the way. -/
def Scans (depth : Nat) (s : Bytes) : Prop :=
  ∀ (rest json : Bytes) (n b : Nat), 1 ≤ b → b ≤ intMax → n ≤ intMax →
    scanObjectLoop (s ++ rest) json n b =
      if b + depth ≤ intMax ∧ n + newlines s ≤ intMax then
        scanObjectLoop rest (json ++ s) (n + newlines s : Nat) b
      else none

theorem Scans.nil : Scans 0 [] := by
  intro rest json n b _ small few
  simp [newlines, small, few]

theorem Scans.append {d e : Nat} {s t : Bytes} (first : Scans d s) (second : Scans e t) :
    Scans (max d e) (s ++ t) := by
  intro rest json n b positive small few
  rw [List.append_assoc, first _ _ _ _ positive small few]
  by_cases fits : b + d ≤ intMax ∧ n + newlines s ≤ intMax
  · rw [if_pos fits, second _ _ _ _ positive small fits.2, List.append_assoc, newlines_append,
      Nat.add_assoc]
    congr 1
    simp only [eq_iff_iff]
    omega
  · rw [if_neg fits, if_neg (by rw [newlines_append]; omega)]

def Ordinary (c : UInt8) : Prop :=
  c ≠ '\x7b'.toUInt8 ∧ c ≠ '\x7d'.toUInt8 ∧ c ≠ '"'.toUInt8 ∧ c ≠ '\n'.toUInt8

instance : DecidablePred Ordinary := fun _ => by unfold Ordinary; infer_instance

theorem scans_ordinary {c : UInt8} (ordinary : Ordinary c) : Scans 0 [c] := by
  intro rest json n b _ small few
  obtain ⟨opening, closing, quote, newline⟩ := ordinary
  have none : newlines [c] = 0 := newlines_cons_ne newline []
  rw [List.singleton_append, scanObjectLoop, if_neg opening, if_neg closing, if_neg quote,
    if_neg newline, none, if_pos ⟨small, few⟩]
  rfl

private theorem scans_newline : Scans 0 ['\n'.toUInt8] := by
  intro rest json n b _ small few
  have one : newlines ['\n'.toUInt8] = 1 := by decide
  rw [List.singleton_append, scanObjectLoop, if_neg (by decide), if_neg (by decide),
    if_neg (by decide), if_pos rfl, one, int_succ]
  by_cases fits : n + 1 ≤ intMax
  · rw [if_pos fits, if_pos ⟨small, fits⟩]
    rfl
  · rw [if_neg fits, if_neg fun both => fits both.2]
    rfl

theorem scans_all {s : Bytes} (all : ∀ c ∈ s, Ordinary c ∨ c = '\n'.toUInt8) : Scans 0 s := by
  induction s with
  | nil => exact .nil
  | cons c s ih =>
    have later := ih fun d member => all d (List.mem_cons_of_mem _ member)
    rcases all c List.mem_cons_self with ordinary | rfl
    · exact (scans_ordinary ordinary).append later
    · exact scans_newline.append later

theorem scanDoubleQuotes_plain {c : UInt8} (quote : c ≠ '"'.toUInt8) (slash : c ≠ '\\'.toUInt8)
    (newline : c ≠ '\n'.toUInt8) (input json : Bytes) (n : Int) :
    scanDoubleQuotes (c :: input) json n = scanDoubleQuotes input (json ++ [c]) n := by
  rw [scanDoubleQuotes.eq_def]
  simp [quote, slash, newline]

theorem scanDoubleQuotes_escape (c : UInt8) (input json : Bytes) (n : Int) :
    scanDoubleQuotes ('\\'.toUInt8 :: c :: input) json n =
      scanDoubleQuotes input (json ++ ['\\'.toUInt8, c]) n := by
  rw [scanDoubleQuotes.eq_def]
  simp [slash_ne_quote]

private theorem scanDoubleQuotes_glyph {g : Glyph} (legal : g.Legal) (input json : Bytes)
    (n : Int) :
    scanDoubleQuotes (g.text ++ input) json n = scanDoubleQuotes input (json ++ g.text) n := by
  cases g with
  | plain c =>
    have visible : ∀ c : UInt8, isUnescaped c = true →
        c ≠ '"'.toUInt8 ∧ c ≠ '\\'.toUInt8 ∧ c ≠ '\n'.toUInt8 := by decide +kernel
    obtain ⟨quote, slash, newline⟩ := visible c legal
    exact scanDoubleQuotes_plain quote slash newline input json n
  | escaped c => exact scanDoubleQuotes_escape c input json n
  | unicode a b c d =>
    have visible : ∀ c : UInt8, IsDigit 16 c →
        c ≠ '"'.toUInt8 ∧ c ≠ '\\'.toUInt8 ∧ c ≠ '\n'.toUInt8 := by decide +kernel
    have digit {c : UInt8} (legal : IsDigit 16 c) (input json : Bytes) :
        scanDoubleQuotes (c :: input) json n = scanDoubleQuotes input (json ++ [c]) n :=
      scanDoubleQuotes_plain (visible c legal).1 (visible c legal).2.1 (visible c legal).2.2 ..
    obtain ⟨first, second, third, fourth⟩ := legal
    simp only [Glyph.text, List.cons_append, List.nil_append, scanDoubleQuotes_escape,
      digit first, digit second, digit third, digit fourth, List.append_assoc]

private theorem scanDoubleQuotes_glyphs (glyphs : List Glyph) (legal : ∀ g ∈ glyphs, g.Legal)
    (rest json : Bytes) (n : Int) :
    scanDoubleQuotes (glyphs.flatMap Glyph.text ++ '"'.toUInt8 :: rest) json n =
      some ⟨rest, json ++ (glyphs.flatMap Glyph.text ++ ['"'.toUInt8]), n⟩ := by
  induction glyphs generalizing json with
  | nil =>
    rw [List.flatMap_nil, List.nil_append, scanDoubleQuotes.eq_def]
    simp
  | cons g glyphs ih =>
    rw [List.flatMap_cons, List.append_assoc, scanDoubleQuotes_glyph (legal g List.mem_cons_self),
      ih fun g member => legal g (List.mem_cons_of_mem _ member)]
    simp

private theorem newline_notMem_text {g : Glyph} (legal : g.Legal) : '\n'.toUInt8 ∉ g.text := by
  cases g with
  | plain c =>
    have visible : ∀ c : UInt8, isUnescaped c = true → '\n'.toUInt8 ∉ [c] := by decide +kernel
    exact visible c legal
  | escaped c =>
    have visible : ∀ c : UInt8, (Glyph.escaped c).Legal → '\n'.toUInt8 ∉ ['\\'.toUInt8, c] := by
      decide +kernel
    exact visible c legal
  | unicode a b c d =>
    have visible : ∀ c : UInt8, IsDigit 16 c → '\n'.toUInt8 ≠ c := by decide +kernel
    obtain ⟨first, second, third, fourth⟩ := legal
    have named : '\n'.toUInt8 ∉ ['\\'.toUInt8, 'u'.toUInt8] := by decide
    simp only [Glyph.text, List.mem_cons, List.not_mem_nil, or_false, not_or] at named ⊢
    exact ⟨named.1, named.2, visible a first, visible b second, visible c third,
      visible d fourth⟩

private theorem newlines_quoted (glyphs : List Glyph) (legal : ∀ g ∈ glyphs, g.Legal) :
    newlines (quoted glyphs) = 0 := by
  have body : newlines (glyphs.flatMap Glyph.text) = 0 := by
    refine List.count_eq_zero_of_not_mem fun member => ?_
    obtain ⟨g, known, inside⟩ := List.mem_flatMap.mp member
    exact newline_notMem_text (legal g known) inside
  rw [quoted, newlines_cons_ne (by decide), newlines_append, body]
  decide

theorem scans_quoted {glyphs : List Glyph} (legal : ∀ g ∈ glyphs, g.Legal) :
    Scans 0 (quoted glyphs) := by
  intro rest json n b _ small few
  have text := scanDoubleQuotes_glyphs glyphs legal rest (json ++ ['"'.toUInt8]) n
  rw [newlines_quoted glyphs legal, if_pos ⟨small, few⟩, quoted, List.cons_append,
    scanObjectLoop, if_neg (by decide), if_neg (by decide), if_pos rfl, List.append_assoc,
    List.singleton_append]
  split
  · next failed => cases text.symm.trans failed
  · next scan done =>
    cases text.symm.trans done
    simp

theorem scanObjectLoop_close (rest json : Bytes) (n : Int) {b : Nat} (small : b ≤ intMax) :
    scanObjectLoop ('\x7d'.toUInt8 :: rest) json n (b + 1 : Nat) =
      if b = 0 then some ⟨rest, json ++ ['\x7d'.toUInt8], n⟩
      else scanObjectLoop rest (json ++ ['\x7d'.toUInt8]) n b := by
  rw [scanObjectLoop, if_neg (by decide), if_pos rfl, int_pred small, Option.bind_eq_bind,
    Option.bind_some]
  simp

theorem scans_object {d : Nat} {s : Bytes} (inner : Scans d s) :
    Scans (d + 1) ('\x7b'.toUInt8 :: (s ++ ['\x7d'.toUInt8])) := by
  intro rest json n b positive small few
  have count : newlines ('\x7b'.toUInt8 :: (s ++ ['\x7d'.toUInt8])) = newlines s := by
    rw [newlines_cons_ne (by decide), newlines_append]
    rfl
  rw [count, List.cons_append, scanObjectLoop, if_pos rfl, int_succ]
  by_cases room : b + 1 ≤ intMax
  · rw [if_pos room, Option.bind_eq_bind, Option.bind_some, List.append_assoc,
      inner _ _ _ _ (by omega) room few, List.singleton_append, scanObjectLoop_close _ _ _ small,
      if_neg (show ¬b = 0 by omega)]
    simp only [List.append_assoc, List.nil_append, List.cons_append, Nat.add_assoc,
      Nat.add_comm d 1]
  · rw [if_neg room, if_neg (by omega)]
    rfl

private theorem scans_of_derives {node : Node} {s : Bytes} (derives : Derives node s) :
    Scans node.depth s := by
  have space {w : Bytes} (space : Ws w) : Scans 0 w := by
    have known : ∀ c : UInt8, isWs c = true → Ordinary c ∨ c = '\n'.toUInt8 := by decide +kernel
    exact scans_all fun c member => known c (space c member)
  have comma : Scans 0 [','.toUInt8] := scans_ordinary (by decide)
  have colon : Scans 0 [':'.toUInt8] := scans_ordinary (by decide)
  have square {d : Nat} {s : Bytes} (inner : Scans d s) :
      Scans d ('['.toUInt8 :: (s ++ [']'.toUInt8])) := by
    have left : Scans 0 ['['.toUInt8] := scans_ordinary (by decide)
    have right : Scans 0 [']'.toUInt8] := scans_ordinary (by decide)
    simpa using left.append (inner.append right)
  induction derives with
  | null => exact scans_all (by decide +kernel)
  | true => exact scans_all (by decide +kernel)
  | false => exact scans_all (by decide +kernel)
  | number number =>
    have known : ∀ c : UInt8, isNumberChar c = true → Ordinary c ∨ c = '\n'.toUInt8 := by
      decide +kernel
    exact scans_all fun c member => known c (isNumber_chars number c member)
  | string legal => exact scans_quoted legal
  | emptyArray blank => exact square (space blank)
  | array _ ih => exact square ih
  | emptyObject blank => exact scans_object (space blank)
  | object _ ih => exact scans_object ih
  | item before _ behind ih =>
    simpa [Node.depth] using (space before).append (ih.append (space behind))
  | element _ ih => simpa [Node.depth, elementsDepth] using ih
  | elements _ _ ih later =>
    simpa [Node.depth, elementsDepth] using ih.append (comma.append later)
  | pair before legal behind _ ih =>
    simpa [Node.depth] using (space before).append
      ((scans_quoted legal).append ((space behind).append (colon.append ih)))
  | member _ ih => simpa [Node.depth, membersDepth, memberDepth] using ih
  | members _ _ ih later =>
    simpa [Node.depth, membersDepth, memberDepth] using ih.append (comma.append later)

structure ObjectText where
  members : List (List UInt8 × Json)
  text : Bytes
  derives : Derives (.value (.object members)) text

/-- The greatest number of objects that are nested in each other, the object itself counted. -/
def ObjectText.depth (o : ObjectText) : Nat := (Json.object o.members).depth

abbrev Separator := { t : Bytes // '\x7b'.toUInt8 ∉ t }

def stream (parts : List (ObjectText × Separator)) : Bytes :=
  parts.flatMap fun p => p.1.text ++ p.2.1

/-- The objects in order and then the end of the stream. The line of an object is one more than the
newlines before its brace, where `before` is the text in front of the parts. -/
def objectsThenEnd (before : Bytes) : List (ObjectText × Separator) → List Result
  | [] => [⟨false, [], -1⟩]
  | p :: parts =>
    ⟨true, p.1.text, 1 + newlines before⟩ :: objectsThenEnd (before ++ (p.1.text ++ p.2.1)) parts

/-- The counters stay within `int`: the lines of all objects, the newlines of the whole stream, and
the nesting of every object. -/
def CountersFit (before : Bytes) : List (ObjectText × Separator) → Prop
  | [] => newlines before ≤ intMax
  | p :: parts =>
    1 + newlines before ≤ intMax ∧ p.1.depth ≤ intMax ∧
      CountersFit (before ++ (p.1.text ++ p.2.1)) parts

instance decidableCountersFit (before : Bytes) (parts : List (ObjectText × Separator)) :
    Decidable (CountersFit before parts) := by
  induction parts generalizing before with
  | nil => exact inferInstanceAs (Decidable (_ ≤ _))
  | cons p parts ih =>
    have := ih (before ++ (p.1.text ++ p.2.1))
    exact inferInstanceAs (Decidable (_ ∧ _ ∧ _))

theorem CountersFit.newlines_le {before : Bytes} {parts : List (ObjectText × Separator)}
    (fit : CountersFit before parts) : newlines before ≤ intMax := by
  cases parts with
  | nil => exact fit
  | cons p parts => exact (Nat.le_add_left _ _).trans fit.1

private theorem object_body {ms : List (List UInt8 × Json)} {o : Bytes}
    (derives : Derives (.value (.object ms)) o) :
    ∃ s, o = '\x7b'.toUInt8 :: (s ++ ['\x7d'.toUInt8]) ∧ Scans (membersDepth ms) s := by
  cases derives with
  | @emptyObject w space =>
    have known : ∀ c : UInt8, isWs c = true → Ordinary c ∨ c = '\n'.toUInt8 := by decide +kernel
    exact ⟨w, rfl, scans_all fun c member => known c (space c member)⟩
  | @object _ s members => exact ⟨s, rfl, scans_of_derives members⟩

private theorem scanObject_body {d : Nat} {s : Bytes} (scans : Scans d s) (rest : Bytes) {n : Nat}
    (few : n ≤ intMax) :
    scanObject (s ++ '\x7d'.toUInt8 :: rest) ['\x7b'.toUInt8] n =
      if 1 + d ≤ intMax ∧ n + newlines s ≤ intMax then
        some ⟨rest, '\x7b'.toUInt8 :: (s ++ ['\x7d'.toUInt8]), (n + newlines s : Nat)⟩
      else none := by
  have last := scanObjectLoop_close rest ('\x7b'.toUInt8 :: s) (n + newlines s : Nat)
    (Nat.zero_le intMax)
  have whole := scans ('\x7d'.toUInt8 :: rest) ['\x7b'.toUInt8] n 1 le_rfl (by decide) few
  rwa [List.singleton_append, last, if_pos rfl] at whole

private theorem getjson_object (o : ObjectText) (rest : Bytes) {n : Nat} (few : n ≤ intMax) :
    getjson (o.text ++ rest) n =
      if 1 + n ≤ intMax ∧ o.depth ≤ intMax ∧ n + newlines o.text ≤ intMax then
        some (Result.mk true o.text (1 + n), rest, ((n + newlines o.text : Nat) : Int))
      else none := by
  obtain ⟨ms, text, derives⟩ := o
  obtain ⟨s, rfl, scans⟩ := object_body derives
  have count : newlines ('\x7b'.toUInt8 :: (s ++ ['\x7d'.toUInt8])) = newlines s := by
    rw [newlines_cons_ne (by decide), newlines_append]
    rfl
  have depth : ObjectText.depth ⟨ms, _, derives⟩ = 1 + membersDepth ms := Nat.add_comm _ _
  have text : '\x7b'.toUInt8 :: (s ++ ['\x7d'.toUInt8]) ++ rest =
      '\x7b'.toUInt8 :: (s ++ '\x7d'.toUInt8 :: rest) := by simp
  rw [text, getjson, if_pos rfl, int_succ, scanObject_body scans rest few, count, depth,
    Nat.add_comm 1 n]
  by_cases line : n + 1 ≤ intMax
  · rw [if_pos line, Option.bind_eq_bind, Option.bind_some]
    by_cases fits : 1 + membersDepth ms ≤ intMax ∧ n + newlines s ≤ intMax
    · rw [if_pos fits, if_pos ⟨line, fits⟩]
      simp [Int.add_comm]
    · rw [if_neg fits, if_neg fun all => fits all.2]
      rfl
  · rw [if_neg line, Option.bind_eq_bind, Option.bind_none, if_neg fun all => line all.1]

private theorem getjson_separator {t : Bytes} (free : '\x7b'.toUInt8 ∉ t) (rest : Bytes) {n : Nat}
    (few : n ≤ intMax) :
    getjson (t ++ rest) n =
      if n + newlines t ≤ intMax then getjson rest (n + newlines t : Nat) else none := by
  induction t generalizing n with
  | nil => simp [newlines, few]
  | cons c t ih =>
    have later := List.not_mem_of_not_mem_cons free
    rw [List.cons_append, getjson, if_neg (List.ne_of_not_mem_cons free).symm]
    by_cases newline : c = '\n'.toUInt8
    · have count : n + newlines (c :: t) = n + 1 + newlines t := by
        rw [newlines, newline, List.count_cons_self, newlines]
        omega
      rw [if_pos newline, int_succ, count]
      by_cases fits : n + 1 ≤ intMax
      · rw [if_pos fits, Option.bind_eq_bind, Option.bind_some, ih later fits]
      · rw [if_neg fits, if_neg (by omega)]
        rfl
    · rw [if_neg newline, ih later few, newlines_cons_ne newline]

theorem calls_separator (k : Nat) {before : Bytes} (t : Separator) (rest : Bytes)
    (few : newlines before ≤ intMax) :
    calls (k + 1) (t.1 ++ rest) (newlines before) =
      if newlines (before ++ t.1) ≤ intMax then calls (k + 1) rest (newlines (before ++ t.1))
      else none := by
  rw [calls, getjson_separator t.2 rest few, ← newlines_append]
  by_cases fits : newlines (before ++ t.1) ≤ intMax
  · rw [if_pos fits, if_pos fits, calls]
  · rw [if_neg fits, if_neg fits]
    rfl

theorem countersFit_cons {before : Bytes} {p : ObjectText × Separator}
    {parts : List (ObjectText × Separator)} :
    CountersFit before (p :: parts) ↔
      (1 + newlines before ≤ intMax ∧ p.1.depth ≤ intMax ∧
        newlines (before ++ p.1.text) ≤ intMax) ∧
      newlines (before ++ (p.1.text ++ p.2.1)) ≤ intMax ∧
      CountersFit (before ++ (p.1.text ++ p.2.1)) parts := by
  constructor
  · rintro ⟨line, depth, later⟩
    have whole := later.newlines_le
    refine ⟨⟨line, depth, ?_⟩, whole, later⟩
    simp only [newlines_append] at whole ⊢
    omega
  · rintro ⟨⟨line, depth, _⟩, _, later⟩
    exact ⟨line, depth, later⟩

private theorem calls_stream (parts : List (ObjectText × Separator)) (before : Bytes)
    (few : newlines before ≤ intMax) :
    calls (parts.length + 1) (stream parts) (newlines before) =
      if CountersFit before parts then some (objectsThenEnd before parts) else none := by
  induction parts generalizing before with
  | nil => exact (if_pos (show CountersFit before [] from few)).symm
  | cons p parts ih =>
    have front : stream (p :: parts) = p.1.text ++ (p.2.1 ++ stream parts) := by simp [stream]
    rw [front, List.length_cons, calls, getjson_object p.1 _ few, ← newlines_append]
    by_cases object : 1 + newlines before ≤ intMax ∧ p.1.depth ≤ intMax ∧
        newlines (before ++ p.1.text) ≤ intMax
    · rw [if_pos object, Option.bind_eq_bind, Option.bind_some]
      simp only [calls_separator _ p.2 _ object.2.2, List.append_assoc]
      by_cases separator : newlines (before ++ (p.1.text ++ p.2.1)) ≤ intMax
      · rw [if_pos separator, ih _ separator]
        by_cases later : CountersFit (before ++ (p.1.text ++ p.2.1)) parts
        · rw [if_pos later, if_pos (countersFit_cons.mpr ⟨object, separator, later⟩)]
          rfl
        · rw [if_neg later, if_neg fun fit => later (countersFit_cons.mp fit).2.2]
          rfl
      · rw [if_neg separator, if_neg fun fit => separator (countersFit_cons.mp fit).2.1]
        rfl
    · rw [if_neg object, if_neg fun fit => object (countersFit_cons.mp fit).1]
      rfl

theorem calls_separated (t : Separator) (parts : List (ObjectText × Separator)) :
    calls (parts.length + 1) (t.1 ++ stream parts) 0 =
      if CountersFit t.1 parts then some (objectsThenEnd t.1 parts) else none := by
  have first := calls_separator parts.length t (stream parts) (show newlines [] ≤ intMax by decide)
  refine first.trans ?_
  rw [List.nil_append]
  by_cases few : newlines t.1 ≤ intMax
  · rw [if_pos few, calls_stream parts t.1 few]
  · rw [if_neg few, if_neg fun fit => few fit.newlines_le]

/-- The calls on separators and objects in turn give the texts and the lines of the objects and then
the end of the stream, exactly when the counters stay within their type. -/
theorem getjson_splits_iff (t : Separator) (parts : List (ObjectText × Separator)) :
    calls (parts.length + 1) (t.1 ++ stream parts) 0 = some (objectsThenEnd t.1 parts) ↔
      CountersFit t.1 parts := by
  rw [calls_separated]
  by_cases fit : CountersFit t.1 parts
  · simp [fit]
  · simp [fit]

/-- As many newlines as `int` can count. -/
def manyLines : Separator :=
  ⟨List.replicate 2147483647 '\n'.toUInt8, fun member =>
    absurd (List.eq_of_mem_replicate member) (by decide)⟩

def emptyObjectText : ObjectText :=
  ⟨[], literal "\x7b\x7d", Derives.emptyObject (w := []) (by simp [Ws])⟩

/-- Behind so many newlines the line of an object is beyond the type. -/
theorem getjson_line_overflows :
    calls 2 (manyLines.1 ++ stream [(emptyObjectText, ⟨[], List.not_mem_nil⟩)]) 0 ≠
      some (objectsThenEnd manyLines.1 [(emptyObjectText, ⟨[], List.not_mem_nil⟩)]) := by
  have count : newlines manyLines.1 = 2147483647 := List.count_replicate_self
  have exceeds : ¬CountersFit manyLines.1 [(emptyObjectText, ⟨[], List.not_mem_nil⟩)] := by
    rintro ⟨line, _⟩
    rw [count] at line
    exact absurd line (by decide)
  have undefined := calls_separated manyLines [(emptyObjectText, ⟨[], List.not_mem_nil⟩)]
  rw [if_neg exceeds] at undefined
  intro same
  cases undefined.symm.trans same

end Libofp.Text.GetJson
