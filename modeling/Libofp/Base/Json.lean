/- GID: Libofp/Base/Json
   generality: G
   digest: JSON texts over bytes: the grammar of RFC 8259, with the value that every text has. -/

import Libofp.Base.Digits

set_option autoImplicit false

namespace Libofp.Base

open Digits

inductive Json where
  | null
  | bool (b : Bool)
  | number (text : List UInt8)
  | string (value : List UInt8)
  | array (elements : List Json)
  | object (members : List (List UInt8 × Json))

namespace Json

mutual

def depth : Json → Nat
  | .null | .bool _ | .number _ | .string _ => 0
  | .array vs => elementsDepth vs
  | .object ms => membersDepth ms + 1

def elementsDepth : List Json → Nat
  | [] => 0
  | v :: vs => max v.depth (elementsDepth vs)

def memberDepth : List UInt8 × Json → Nat
  | (_, v) => v.depth

def membersDepth : List (List UInt8 × Json) → Nat
  | [] => 0
  | m :: ms => max (memberDepth m) (membersDepth ms)

end

def word (s : String) : List UInt8 := s.toList.map Char.toUInt8

/-- White space: space, tab, line feed and carriage return. -/
def isWs (c : UInt8) : Bool := c == 0x20 || c == 0x09 || c == 0x0A || c == 0x0D

def Ws (s : List UInt8) : Prop := ∀ c ∈ s, isWs c = true

/-- `char`: a byte that stands for itself, a character behind a backslash, or four hexadecimal
digits behind `\u`. -/
inductive Glyph where
  | plain (c : UInt8)
  | escaped (c : UInt8)
  | unicode (a b c d : UInt8)
  deriving DecidableEq

/-- The characters that may follow a backslash, other than `u`, and what they stand for. -/
def escapes : List (UInt8 × UInt8) :=
  [('"'.toUInt8, '"'.toUInt8), ('\\'.toUInt8, '\\'.toUInt8), ('/'.toUInt8, '/'.toUInt8),
    ('b'.toUInt8, 0x08), ('f'.toUInt8, 0x0C), ('n'.toUInt8, 0x0A), ('r'.toUInt8, 0x0D),
    ('t'.toUInt8, 0x09)]

def isUnescaped (c : UInt8) : Bool := 0x20 ≤ c && c != '"'.toUInt8 && c != '\\'.toUInt8

def Glyph.Legal : Glyph → Prop
  | plain c => isUnescaped c = true
  | escaped c => c ∈ escapes.map Prod.fst
  | unicode a b c d => IsDigit 16 a ∧ IsDigit 16 b ∧ IsDigit 16 c ∧ IsDigit 16 d

instance : DecidablePred Glyph.Legal := fun g => by
  cases g <;> unfold Glyph.Legal <;> infer_instance

def Glyph.text : Glyph → List UInt8
  | plain c => [c]
  | escaped c => ['\\'.toUInt8, c]
  | unicode a b c d => ['\\'.toUInt8, 'u'.toUInt8, a, b, c, d]

def quoted (glyphs : List Glyph) : List UInt8 :=
  '"'.toUInt8 :: (glyphs.flatMap Glyph.text ++ ['"'.toUInt8])

def utf8 (n : Nat) : List UInt8 :=
  if n < 0x80 then [UInt8.ofNat n]
  else if n < 0x800 then [UInt8.ofNat (0xC0 + n / 64), UInt8.ofNat (0x80 + n % 64)]
  else if n < 0x10000 then
    [UInt8.ofNat (0xE0 + n / 4096), UInt8.ofNat (0x80 + n / 64 % 64), UInt8.ofNat (0x80 + n % 64)]
  else
    [UInt8.ofNat (0xF0 + n / 262144), UInt8.ofNat (0x80 + n / 4096 % 64),
      UInt8.ofNat (0x80 + n / 64 % 64), UInt8.ofNat (0x80 + n % 64)]

/-- The value of a string. Two escapes that are a surrogate pair stand for one code point. -/
def decode : List Glyph → List UInt8
  | [] => []
  | .plain c :: glyphs => c :: decode glyphs
  | .escaped c :: glyphs => (escapes.lookup c).getD 0 :: decode glyphs
  | .unicode a b c d :: glyphs =>
    let first := numeral 16 [a, b, c, d]
    match glyphs with
    | .unicode e f g h :: rest =>
      let second := numeral 16 [e, f, g, h]
      if 0xD800 ≤ first ∧ first < 0xDC00 ∧ 0xDC00 ≤ second ∧ second < 0xE000 then
        utf8 (0x10000 + (first - 0xD800) * 1024 + (second - 0xDC00)) ++ decode rest
      else utf8 first ++ decode (.unicode e f g h :: rest)
    | glyphs => utf8 first ++ decode glyphs

inductive NumberState where
  | start
  | minus
  | zero
  | int
  | point
  | frac
  | e
  | sign
  | exp
  | error
  deriving DecidableEq

def NumberState.step (state : NumberState) (c : UInt8) : NumberState :=
  match state with
  | start => if c = '-'.toUInt8 then minus else if c = '0'.toUInt8 then zero
    else if IsDigit 10 c then int else error
  | minus => if c = '0'.toUInt8 then zero else if IsDigit 10 c then int else error
  | zero => if c = '.'.toUInt8 then point
    else if c = 'e'.toUInt8 ∨ c = 'E'.toUInt8 then e else error
  | int => if IsDigit 10 c then int else if c = '.'.toUInt8 then point
    else if c = 'e'.toUInt8 ∨ c = 'E'.toUInt8 then e else error
  | point => if IsDigit 10 c then frac else error
  | frac => if IsDigit 10 c then frac
    else if c = 'e'.toUInt8 ∨ c = 'E'.toUInt8 then e else error
  | e => if c = '+'.toUInt8 ∨ c = '-'.toUInt8 then sign
    else if IsDigit 10 c then exp else error
  | sign => if IsDigit 10 c then exp else error
  | exp => if IsDigit 10 c then exp else error
  | error => error

/-- `number`: an optional minus sign, an integer, and optional fraction and exponent. -/
def isNumber (s : List UInt8) : Bool :=
  s.foldl NumberState.step .start ∈ [NumberState.zero, .int, .frac, .exp]

def isNumberChar (c : UInt8) : Bool :=
  decide (IsDigit 10 c) || c == '-'.toUInt8 || c == '+'.toUInt8 || c == '.'.toUInt8 ||
    c == 'e'.toUInt8 || c == 'E'.toUInt8

/-- What a text may be a text of. An item is a value, and a pair a member of an object, with white
space around it. -/
inductive Node where
  | value (v : Json)
  | item (v : Json)
  | elements (vs : List Json)
  | pair (key : List UInt8) (v : Json)
  | members (ms : List (List UInt8 × Json))

def Node.depth : Node → Nat
  | .value v | .item v | .pair _ v => v.depth
  | .elements vs => elementsDepth vs
  | .members ms => membersDepth ms

inductive Derives : Node → List UInt8 → Prop where
  | null : Derives (.value .null) (word "null")
  | true : Derives (.value (.bool true)) (word "true")
  | false : Derives (.value (.bool false)) (word "false")
  | number {s : List UInt8} (number : isNumber s = true) : Derives (.value (.number s)) s
  | string {glyphs : List Glyph} (legal : ∀ g ∈ glyphs, g.Legal) :
    Derives (.value (.string (decode glyphs))) (quoted glyphs)
  | emptyArray {w : List UInt8} (space : Ws w) :
    Derives (.value (.array [])) ('['.toUInt8 :: (w ++ [']'.toUInt8]))
  | array {vs : List Json} {s : List UInt8} (elements : Derives (.elements vs) s) :
    Derives (.value (.array vs)) ('['.toUInt8 :: (s ++ [']'.toUInt8]))
  | emptyObject {w : List UInt8} (space : Ws w) :
    Derives (.value (.object [])) ('\x7b'.toUInt8 :: (w ++ ['\x7d'.toUInt8]))
  | object {ms : List (List UInt8 × Json)} {s : List UInt8} (members : Derives (.members ms) s) :
    Derives (.value (.object ms)) ('\x7b'.toUInt8 :: (s ++ ['\x7d'.toUInt8]))
  | item {v : Json} {w s w' : List UInt8} (before : Ws w) (value : Derives (.value v) s)
    (behind : Ws w') : Derives (.item v) (w ++ (s ++ w'))
  | element {v : Json} {s : List UInt8} (item : Derives (.item v) s) : Derives (.elements [v]) s
  | elements {v : Json} {vs : List Json} {s rest : List UInt8} (item : Derives (.item v) s)
    (later : Derives (.elements vs) rest) :
    Derives (.elements (v :: vs)) (s ++ ','.toUInt8 :: rest)
  | pair {glyphs : List Glyph} {v : Json} {w w' s : List UInt8} (before : Ws w)
    (legal : ∀ g ∈ glyphs, g.Legal) (behind : Ws w') (item : Derives (.item v) s) :
    Derives (.pair (decode glyphs) v) (w ++ (quoted glyphs ++ (w' ++ ':'.toUInt8 :: s)))
  | member {k : List UInt8} {v : Json} {s : List UInt8} (pair : Derives (.pair k v) s) :
    Derives (.members [(k, v)]) s
  | members {k : List UInt8} {v : Json} {ms : List (List UInt8 × Json)} {s rest : List UInt8}
    (pair : Derives (.pair k v) s) (later : Derives (.members ms) rest) :
    Derives (.members ((k, v) :: ms)) (s ++ ','.toUInt8 :: rest)

end Json

end Libofp.Base
