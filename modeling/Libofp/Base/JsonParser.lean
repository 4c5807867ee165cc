/- GID: Libofp/Base/JsonParser
   generality: G
   digest: A parser of JSON texts that reads every text of the grammar as its value. -/

import Libofp.Base.Json

set_option autoImplicit false

namespace Libofp.Base.JsonParser

open Base.Json

def skipWs (s : List UInt8) : List UInt8 := s.dropWhile isWs

def readGlyphs : List UInt8 → Option (List Glyph × List UInt8)
  | [] => none
  | c :: s =>
    if c = '"'.toUInt8 then some ([], s)
    else if c = '\\'.toUInt8 then
      match s with
      | [] => none
      | e :: s =>
        if e = 'u'.toUInt8 then
          match s with
          | d₁ :: d₂ :: d₃ :: d₄ :: s =>
            if (Glyph.unicode d₁ d₂ d₃ d₄).Legal then
              (readGlyphs s).map fun (glyphs, rest) => (.unicode d₁ d₂ d₃ d₄ :: glyphs, rest)
            else none
          | _ => none
        else if (Glyph.escaped e).Legal then
          (readGlyphs s).map fun (glyphs, rest) => (.escaped e :: glyphs, rest)
        else none
    else if (Glyph.plain c).Legal then
      (readGlyphs s).map fun (glyphs, rest) => (.plain c :: glyphs, rest)
    else none

def parseItem (value : List UInt8 → Option (Json × List UInt8)) (s : List UInt8) :
    Option (Json × List UInt8) :=
  (value (skipWs s)).map fun (v, rest) => (v, skipWs rest)

def parsePair (value : List UInt8 → Option (Json × List UInt8)) (s : List UInt8) :
    Option ((List UInt8 × Json) × List UInt8) :=
  match skipWs s with
  | [] => none
  | c :: s =>
    if c = '"'.toUInt8 then
      match readGlyphs s with
      | none => none
      | some (glyphs, s) =>
        match skipWs s with
        | [] => none
        | c :: s =>
          if c = ':'.toUInt8 then
            (parseItem value s).map fun (v, rest) => ((decode glyphs, v), rest)
          else none
    else none

def parseSequence {α : Type} (item : List UInt8 → Option (α × List UInt8)) (close : UInt8) :
    Nat → List UInt8 → Option (List α × List UInt8)
  | 0, _ => none
  | fuel + 1, s =>
    match item s with
    | none => none
    | some (_, []) => none
    | some (a, c :: rest) =>
      if c = close then some ([a], rest)
      else if c = ','.toUInt8 then
        (parseSequence item close fuel rest).map fun (as, rest) => (a :: as, rest)
      else none

/-- What stands between brackets: nothing but white space, or a sequence. -/
def parseBrackets {α : Type} (item : List UInt8 → Option (α × List UInt8)) (close : UInt8)
    (s : List UInt8) : Option (List α × List UInt8) :=
  if (skipWs s).head? = some close then some ([], (skipWs s).tail)
  else parseSequence item close (s.length + 1) s

def parseValue : Nat → List UInt8 → Option (Json × List UInt8)
  | 0, _ => none
  | depth + 1, s =>
    if (word "null").isPrefixOf s then some (.null, s.drop 4)
    else if (word "true").isPrefixOf s then some (.bool true, s.drop 4)
    else if (word "false").isPrefixOf s then some (.bool false, s.drop 5)
    else if s.head? = some '"'.toUInt8 then
      (readGlyphs s.tail).map fun (glyphs, rest) => (.string (decode glyphs), rest)
    else if s.head? = some '['.toUInt8 then
      (parseBrackets (parseItem (parseValue depth)) ']'.toUInt8 s.tail).map fun (vs, rest) =>
        (.array vs, rest)
    else if s.head? = some '\x7b'.toUInt8 then
      (parseBrackets (parsePair (parseValue depth)) '\x7d'.toUInt8 s.tail).map fun (ms, rest) =>
        (.object ms, rest)
    else
      let text := s.takeWhile isNumberChar
      if isNumber text then some (.number text, s.drop text.length) else none

/-- `JSON-text`. -/
def parse (s : List UInt8) : Option Json :=
  match parseItem (parseValue s.length) s with
  | some (v, []) => some v
  | _ => none

section

variable {s rest : List UInt8}

def Ends (rest : List UInt8) : Prop := ∀ c ∈ rest.head?, isNumberChar c = false

theorem skipWs_append {w : List UInt8} (space : Ws w) (s : List UInt8) :
    skipWs (w ++ s) = skipWs s :=
  List.dropWhile_append_of_pos space

theorem skipWs_cons {c : UInt8} (visible : isWs c = false) (s : List UInt8) :
    skipWs (c :: s) = c :: s := by
  simp [skipWs, visible]

theorem ends_space {w : List UInt8} (space : Ws w) (ends : Ends rest) : Ends (w ++ rest) := by
  cases w with
  | nil => exact ends
  | cons c w =>
    have number : ∀ c : UInt8, isWs c = true → isNumberChar c = false := by decide +kernel
    intro d same
    obtain rfl : c = d := by simpa using same
    exact number c (space c (by simp))

theorem slash_ne_quote : '\\'.toUInt8 ≠ '"'.toUInt8 := by decide

theorem readGlyphs_text (glyphs : List Glyph) (legal : ∀ g ∈ glyphs, g.Legal) (rest : List UInt8) :
    readGlyphs (glyphs.flatMap Glyph.text ++ '"'.toUInt8 :: rest) = some (glyphs, rest) := by
  induction glyphs with
  | nil =>
    rw [List.flatMap_nil, List.nil_append, readGlyphs.eq_def]
    simp
  | cons g glyphs ih =>
    have later := ih fun g member => legal g (List.mem_cons_of_mem _ member)
    have here := legal g List.mem_cons_self
    rw [List.flatMap_cons, List.append_assoc]
    cases g with
    | plain c =>
      have visible : ∀ c : UInt8, isUnescaped c = true → c ≠ '"'.toUInt8 ∧ c ≠ '\\'.toUInt8 := by
        decide +kernel
      obtain ⟨quote, slash⟩ := visible c here
      rw [Glyph.text, List.singleton_append, readGlyphs.eq_def]
      simp [quote, slash, here, later]
    | escaped c =>
      have other : c ≠ 'u'.toUInt8 := by
        rintro rfl
        exact absurd here (by decide)
      rw [Glyph.text, List.cons_append, List.singleton_append, readGlyphs.eq_def]
      simp [slash_ne_quote, other, here, later]
    | unicode a b c d =>
      rw [Glyph.text, readGlyphs.eq_def]
      simp [slash_ne_quote, here, later]

theorem foldl_step_error (s : List UInt8) :
    s.foldl NumberState.step .error = .error := by
  induction s with
  | nil => rfl
  | cons c s ih => exact ih

theorem isNumberChar_of_foldl (s : List UInt8) (state : NumberState)
    (good : s.foldl NumberState.step state ≠ .error) : ∀ c ∈ s, isNumberChar c = true := by
  induction s generalizing state with
  | nil => simp
  | cons c s ih =>
    have here : state.step c ≠ .error := by
      intro stuck
      exact good (by rw [List.foldl_cons, stuck, foldl_step_error])
    have known : isNumberChar c = true := by
      clear good ih
      cases state <;> revert c <;> decide +kernel
    intro d member
    rcases List.mem_cons.mp member with rfl | member
    · exact known
    · exact ih _ good d member

theorem isNumber_chars (number : isNumber s = true) : ∀ c ∈ s, isNumberChar c = true := by
  refine isNumberChar_of_foldl s .start fun stuck => ?_
  rw [isNumber, stuck] at number
  exact absurd number (by decide)

theorem isNumber_ne_nil (number : isNumber s = true) : s ≠ [] := by
  rintro rfl
  exact absurd number (by decide)

theorem takeWhile_number (number : isNumber s = true) (ends : Ends rest) :
    (s ++ rest).takeWhile isNumberChar = s := by
  have stop : rest.takeWhile isNumberChar = [] := by
    cases rest with
    | nil => rfl
    | cons c rest => simp [ends c (by simp)]
  rw [List.takeWhile_append_of_pos (isNumber_chars number), stop, List.append_nil]

end

section

variable {α : Type} {item : List UInt8 → Option (α × List UInt8)} {close : UInt8}
  {s rest : List UInt8}

theorem parseSequence_last {a : α} {fuel : Nat} (enough : 0 < fuel)
    (here : item s = some (a, close :: rest)) :
    parseSequence item close fuel s = some ([a], rest) := by
  obtain ⟨fuel, rfl⟩ := Nat.exists_eq_add_of_lt enough
  rw [parseSequence, here]
  exact if_pos rfl

theorem parseSequence_more {a : α} {as : List α} {later : List UInt8}
    {need fuel : Nat} (other : ','.toUInt8 ≠ close) (enough : need + 1 < fuel)
    (here : item s = some (a, ','.toUInt8 :: later))
    (behind : ∀ fuel, need < fuel → parseSequence item close fuel later = some (as, rest)) :
    parseSequence item close fuel s = some (a :: as, rest) := by
  obtain ⟨fuel, rfl⟩ := Nat.exists_eq_add_of_lt enough
  rw [parseSequence, here]
  refine ((if_neg other).trans (if_pos rfl)).trans ?_
  rw [behind _ (by omega), Option.map_some]

def Opens (s : List UInt8) : Prop :=
  ∃ w c t, s = w ++ c :: t ∧ Ws w ∧ isWs c = false ∧ c ≠ ']'.toUInt8 ∧ c ≠ '\x7d'.toUInt8

theorem Opens.append (opens : Opens s) (rest : List UInt8) : Opens (s ++ rest) := by
  obtain ⟨w, c, t, rfl, facts⟩ := opens
  exact ⟨w, c, t ++ rest, by simp, facts⟩

theorem Opens.head_ne (opens : Opens s) (closing : close = ']'.toUInt8 ∨ close = '\x7d'.toUInt8) :
    (skipWs s).head? ≠ some close := by
  obtain ⟨w, c, t, rfl, space, visible, square, curly⟩ := opens
  rw [skipWs_append space, skipWs_cons visible, List.head?_cons, ne_eq, Option.some_inj]
  rcases closing with rfl | rfl
  · exact square
  · exact curly

theorem parseBrackets_empty {w : List UInt8} (space : Ws w) (visible : isWs close = false) :
    parseBrackets item close (w ++ close :: rest) = some ([], rest) := by
  rw [parseBrackets, skipWs_append space, skipWs_cons visible]
  exact if_pos rfl

theorem parseBrackets_sequence (opens : Opens s)
    (closing : close = ']'.toUInt8 ∨ close = '\x7d'.toUInt8) :
    parseBrackets item close s = parseSequence item close (s.length + 1) s :=
  if_neg (opens.head_ne closing)

end

section

variable {v : Json} {s rest : List UInt8}

theorem value_head (derives : Derives (.value v) s) :
    ∃ c t, s = c :: t ∧ isWs c = false ∧ c ≠ ']'.toUInt8 ∧ c ≠ '\x7d'.toUInt8 := by
  cases derives with
  | null => exact ⟨_, _, rfl, by decide, by decide, by decide⟩
  | true => exact ⟨_, _, rfl, by decide, by decide, by decide⟩
  | false => exact ⟨_, _, rfl, by decide, by decide, by decide⟩
  | number number =>
    obtain ⟨c, t, rfl⟩ := List.exists_cons_of_ne_nil (isNumber_ne_nil number)
    have visible : ∀ c : UInt8, isNumberChar c = true →
        isWs c = false ∧ c ≠ ']'.toUInt8 ∧ c ≠ '\x7d'.toUInt8 := by decide +kernel
    exact ⟨c, t, rfl, visible c (isNumber_chars number c List.mem_cons_self)⟩
  | string => exact ⟨_, _, rfl, by decide, by decide, by decide⟩
  | emptyArray => exact ⟨_, _, rfl, by decide, by decide, by decide⟩
  | array => exact ⟨_, _, rfl, by decide, by decide, by decide⟩
  | emptyObject => exact ⟨_, _, rfl, by decide, by decide, by decide⟩
  | object => exact ⟨_, _, rfl, by decide, by decide, by decide⟩

theorem item_opens (derives : Derives (.item v) s) : Opens s := by
  cases derives with
  | @item _ w s w' before value behind =>
    obtain ⟨c, t, rfl, facts⟩ := value_head value
    exact ⟨w, c, t ++ w', by simp, before, facts⟩

theorem elements_opens {vs : List Json} (derives : Derives (.elements vs) s) : Opens s := by
  cases derives with
  | element item => exact item_opens item
  | elements item _ => exact (item_opens item).append _

theorem pair_opens {k : List UInt8} (derives : Derives (.pair k v) s) : Opens s := by
  cases derives with
  | pair before => exact ⟨_, _, _, rfl, before, by decide, by decide, by decide⟩

theorem members_opens {ms : List (List UInt8 × Json)} (derives : Derives (.members ms) s) :
    Opens s := by
  cases derives with
  | member pair => exact pair_opens pair
  | members pair _ => exact (pair_opens pair).append _

/-- A text behind an item: neither the value nor the white space goes on in it. -/
def Stops (rest : List UInt8) : Prop := Ends rest ∧ skipWs rest = rest

theorem stops_nil : Stops [] := ⟨by simp [Ends], rfl⟩

theorem stops_cons {c : UInt8} (number : isNumberChar c = false) (visible : isWs c = false) :
    Stops (c :: rest) :=
  ⟨by simp [Ends, number], skipWs_cons visible rest⟩

def Reads : Node → List UInt8 → Prop
  | .value v, s => ∀ depth rest, s.length ≤ depth → Ends rest →
    parseValue depth (s ++ rest) = some (v, rest)
  | .item v, s => ∀ depth rest, s.length ≤ depth → Stops rest →
    parseItem (parseValue depth) (s ++ rest) = some (v, rest)
  | .elements vs, s => ∀ depth fuel rest, s.length ≤ depth → s.length < fuel →
    parseSequence (parseItem (parseValue depth)) ']'.toUInt8 fuel (s ++ ']'.toUInt8 :: rest) =
      some (vs, rest)
  | .pair k v, s => ∀ depth rest, s.length ≤ depth → Stops rest →
    parsePair (parseValue depth) (s ++ rest) = some ((k, v), rest)
  | .members ms, s => ∀ depth fuel rest, s.length ≤ depth → s.length < fuel →
    parseSequence (parsePair (parseValue depth)) '\x7d'.toUInt8 fuel (s ++ '\x7d'.toUInt8 :: rest) =
      some (ms, rest)

theorem parseValue_cons {c : UInt8}
    (other : c ≠ 'n'.toUInt8 ∧ c ≠ 't'.toUInt8 ∧ c ≠ 'f'.toUInt8) (depth : Nat) (s : List UInt8) :
    parseValue (depth + 1) (c :: s) =
      if c = '"'.toUInt8 then
        (readGlyphs s).map fun (glyphs, rest) => (.string (decode glyphs), rest)
      else if c = '['.toUInt8 then
        (parseBrackets (parseItem (parseValue depth)) ']'.toUInt8 s).map fun (vs, rest) =>
          (.array vs, rest)
      else if c = '\x7b'.toUInt8 then
        (parseBrackets (parsePair (parseValue depth)) '\x7d'.toUInt8 s).map fun (ms, rest) =>
          (.object ms, rest)
      else
        let text := (c :: s).takeWhile isNumberChar
        if isNumber text then some (.number text, (c :: s).drop text.length) else none := by
  obtain ⟨n, t, f⟩ := other
  rw [parseValue]
  simp [word, List.isPrefixOf, n.symm, t.symm, f.symm]

theorem parseValue_string (depth : Nat) (s : List UInt8) :
    parseValue (depth + 1) ('"'.toUInt8 :: s) =
      (readGlyphs s).map fun (glyphs, rest) => (.string (decode glyphs), rest) :=
  (parseValue_cons (by decide) depth s).trans (if_pos rfl)

theorem parseValue_array (depth : Nat) (s : List UInt8) :
    parseValue (depth + 1) ('['.toUInt8 :: s) =
      (parseBrackets (parseItem (parseValue depth)) ']'.toUInt8 s).map fun (vs, rest) =>
        (.array vs, rest) :=
  ((parseValue_cons (by decide) depth s).trans (if_neg (by decide))).trans (if_pos rfl)

theorem parseValue_object (depth : Nat) (s : List UInt8) :
    parseValue (depth + 1) ('\x7b'.toUInt8 :: s) =
      (parseBrackets (parsePair (parseValue depth)) '\x7d'.toUInt8 s).map fun (ms, rest) =>
        (.object ms, rest) :=
  (((parseValue_cons (by decide) depth s).trans (if_neg (by decide))).trans
    (if_neg (by decide))).trans (if_pos rfl)

theorem reads_value (full : s ≠ [])
    (step : ∀ depth rest, s.length ≤ depth + 1 → Ends rest →
      parseValue (depth + 1) (s ++ rest) = some (v, rest)) : Reads (.value v) s := by
  intro depth rest deep ends
  cases depth with
  | zero => exact absurd (List.length_eq_zero_iff.mp (Nat.le_zero.mp deep)) full
  | succ depth => exact step depth rest deep ends

theorem reads_number (number : isNumber s = true) : Reads (.value (.number s)) s := by
  refine reads_value (isNumber_ne_nil number) fun depth rest _ ends => ?_
  have text := takeWhile_number number ends
  obtain ⟨c, t, rfl⟩ := List.exists_cons_of_ne_nil (isNumber_ne_nil number)
  have other : ∀ c : UInt8, isNumberChar c = true →
      (c ≠ 'n'.toUInt8 ∧ c ≠ 't'.toUInt8 ∧ c ≠ 'f'.toUInt8) ∧ c ≠ '"'.toUInt8 ∧
        c ≠ '['.toUInt8 ∧ c ≠ '\x7b'.toUInt8 := by decide +kernel
  obtain ⟨name, quote, square, curly⟩ := other c (isNumber_chars number c List.mem_cons_self)
  rw [List.cons_append] at text ⊢
  rw [parseValue_cons name, if_neg quote, if_neg square, if_neg curly, text]
  simp [number]

theorem reads_string {glyphs : List Glyph} (legal : ∀ g ∈ glyphs, g.Legal) :
    Reads (.value (.string (decode glyphs))) (quoted glyphs) := by
  refine reads_value (List.cons_ne_nil _ _) fun depth rest _ _ => ?_
  rw [quoted, List.cons_append, parseValue_string, List.append_assoc, List.singleton_append,
    readGlyphs_text glyphs legal, Option.map_some]

theorem reads_array {vs : List Json}
    (brackets : ∀ depth rest, s.length ≤ depth →
      parseBrackets (parseItem (parseValue depth)) ']'.toUInt8 (s ++ ']'.toUInt8 :: rest) =
        some (vs, rest)) : Reads (.value (.array vs)) ('['.toUInt8 :: (s ++ [']'.toUInt8])) := by
  refine reads_value (List.cons_ne_nil _ _) fun depth rest deep _ => ?_
  have inner : s.length ≤ depth := by
    simp only [List.length_cons, List.length_append] at deep
    omega
  rw [List.cons_append, parseValue_array, List.append_assoc, List.singleton_append,
    brackets depth rest inner, Option.map_some]

theorem reads_object {ms : List (List UInt8 × Json)}
    (brackets : ∀ depth rest, s.length ≤ depth →
      parseBrackets (parsePair (parseValue depth)) '\x7d'.toUInt8 (s ++ '\x7d'.toUInt8 :: rest) =
        some (ms, rest)) :
    Reads (.value (.object ms)) ('\x7b'.toUInt8 :: (s ++ ['\x7d'.toUInt8])) := by
  refine reads_value (List.cons_ne_nil _ _) fun depth rest deep _ => ?_
  have inner : s.length ≤ depth := by
    simp only [List.length_cons, List.length_append] at deep
    omega
  rw [List.cons_append, parseValue_object, List.append_assoc, List.singleton_append,
    brackets depth rest inner, Option.map_some]

theorem reads_item {w w' : List UInt8} (before : Ws w) (derives : Derives (.value v) s)
    (behind : Ws w') (value : Reads (.value v) s) : Reads (.item v) (w ++ (s ++ w')) := by
  intro depth rest deep stops
  obtain ⟨c, t, rfl, visible, _⟩ := value_head derives
  have inner : (c :: t).length ≤ depth := by
    simp only [List.length_append] at deep
    omega
  have skipped : skipWs ((w ++ (c :: t ++ w')) ++ rest) = c :: t ++ (w' ++ rest) := by
    rw [List.append_assoc, skipWs_append before, List.append_assoc]
    exact skipWs_cons visible _
  rw [parseItem, skipped, value depth _ inner (ends_space behind stops.1)]
  simp [skipWs_append behind, stops.2]

theorem reads_pair {glyphs : List Glyph} {w w' : List UInt8} (before : Ws w)
    (legal : ∀ g ∈ glyphs, g.Legal) (behind : Ws w') (item : Reads (.item v) s) :
    Reads (.pair (decode glyphs) v) (w ++ (quoted glyphs ++ (w' ++ ':'.toUInt8 :: s))) := by
  intro depth rest deep stops
  have inner : s.length ≤ depth := by
    simp only [List.length_append, List.length_cons] at deep
    omega
  have key : skipWs ((w ++ (quoted glyphs ++ (w' ++ ':'.toUInt8 :: s))) ++ rest) =
      '"'.toUInt8 :: (glyphs.flatMap Glyph.text ++
        '"'.toUInt8 :: (w' ++ ':'.toUInt8 :: (s ++ rest))) := by
    rw [List.append_assoc, skipWs_append before, quoted, List.cons_append, List.cons_append,
      skipWs_cons (by decide)]
    simp
  have colon : skipWs (w' ++ ':'.toUInt8 :: (s ++ rest)) = ':'.toUInt8 :: (s ++ rest) := by
    rw [skipWs_append behind, skipWs_cons (by decide)]
  simp only [parsePair, key, if_true, readGlyphs_text glyphs legal, colon,
    item depth rest inner stops, Option.map_some]

theorem reads_of_derives {node : Node} (derives : Derives node s) : Reads node s := by
  induction derives with
  | null => exact reads_value (by decide) fun _ _ _ _ => rfl
  | true => exact reads_value (by decide) fun _ _ _ _ => rfl
  | false => exact reads_value (by decide) fun _ _ _ _ => rfl
  | number number => exact reads_number number
  | string legal => exact reads_string legal
  | emptyArray space => exact reads_array fun _ _ _ => parseBrackets_empty space (by decide)
  | @array vs s elements ih =>
    refine reads_array fun depth rest deep => ?_
    rw [parseBrackets_sequence ((elements_opens elements).append _) (.inl rfl)]
    exact ih depth _ rest deep (by simp)
  | emptyObject space => exact reads_object fun _ _ _ => parseBrackets_empty space (by decide)
  | @object ms s members ih =>
    refine reads_object fun depth rest deep => ?_
    rw [parseBrackets_sequence ((members_opens members).append _) (.inr rfl)]
    exact ih depth _ rest deep (by simp)
  | item before value behind ih => exact reads_item before value behind ih
  | element _ ih =>
    intro depth fuel rest deep enough
    exact parseSequence_last (Nat.zero_lt_of_lt enough)
      (ih depth _ deep (stops_cons (by decide) (by decide)))
  | elements _ _ ih ihLater =>
    intro depth fuel rest deep enough
    rw [List.length_append, List.length_cons] at deep enough
    rw [List.append_assoc, List.cons_append]
    exact parseSequence_more (by decide) (by omega)
      (ih depth _ (by omega) (stops_cons (by decide) (by decide)))
      fun fuel => ihLater depth fuel rest (by omega)
  | pair before legal behind _ ih => exact reads_pair before legal behind ih
  | member _ ih =>
    intro depth fuel rest deep enough
    exact parseSequence_last (Nat.zero_lt_of_lt enough)
      (ih depth _ deep (stops_cons (by decide) (by decide)))
  | members _ _ ih ihLater =>
    intro depth fuel rest deep enough
    rw [List.length_append, List.length_cons] at deep enough
    rw [List.append_assoc, List.cons_append]
    exact parseSequence_more (by decide) (by omega)
      (ih depth _ (by omega) (stops_cons (by decide) (by decide)))
      fun fuel => ihLater depth fuel rest (by omega)

theorem parse_of_derives (derives : Derives (.item v) s) : parse s = some v := by
  have whole := reads_of_derives derives s.length [] le_rfl stops_nil
  rw [List.append_nil] at whole
  rw [parse, whole]

end

end Libofp.Base.JsonParser
