/- GID: Libofp/Base/Utf8
   generality: G
   digest: The grammar of UTF-8: the byte sequences of single characters, and the strings that
     are made of them. -/

import Mathlib.Data.List.Basic
import Mathlib.Tactic.Common

set_option autoImplicit false

namespace Libofp.Base.Utf8

def Tail (b : UInt8) : Prop := 0x80 ≤ b ∧ b ≤ 0xBF

instance (b : UInt8) : Decidable (Tail b) := inferInstanceAs (Decidable (_ ∧ _))

/-- The second byte that a character of three or four bytes may have, by its first one: shorter
forms, surrogates and numbers beyond U+10FFFF are left out. -/
def Second (a b : UInt8) : Prop :=
  Tail b ∧ (a = 0xE0 → 0xA0 ≤ b) ∧ (a = 0xED → b ≤ 0x9F) ∧ (a = 0xF0 → 0x90 ≤ b) ∧
    (a = 0xF4 → b ≤ 0x8F)

/-- `UTF8-char`. -/
inductive Character : List UInt8 → Prop where
  | one {a : UInt8} (first : a ≤ 0x7F) : Character [a]
  | two {a b : UInt8} (first : 0xC2 ≤ a ∧ a ≤ 0xDF) (second : Second a b) : Character [a, b]
  | three {a b c : UInt8} (first : 0xE0 ≤ a ∧ a ≤ 0xEF) (second : Second a b) (third : Tail c) :
    Character [a, b, c]
  | four {a b c d : UInt8} (first : 0xF0 ≤ a ∧ a ≤ 0xF4) (second : Second a b) (third : Tail c)
    (fourth : Tail d) : Character [a, b, c, d]

/-- `UTF8-octets`: a string of characters. -/
inductive Legal : List UInt8 → Prop where
  | nil : Legal []
  | cons {x rest : List UInt8} (head : Character x) (tail : Legal rest) : Legal (x ++ rest)

section

variable {a b c d : UInt8}

theorem character_one : Character [a] ↔ a ≤ 0x7F :=
  ⟨fun | .one first => first, .one⟩

theorem character_two : Character [a, b] ↔ (0xC2 ≤ a ∧ a ≤ 0xDF) ∧ Second a b :=
  ⟨fun | .two first second => ⟨first, second⟩, fun ⟨first, second⟩ => .two first second⟩

theorem character_three :
    Character [a, b, c] ↔ (0xE0 ≤ a ∧ a ≤ 0xEF) ∧ Second a b ∧ Tail c :=
  ⟨fun | .three first second third => ⟨first, second, third⟩,
    fun ⟨first, second, third⟩ => .three first second third⟩

theorem character_four :
    Character [a, b, c, d] ↔ (0xF0 ≤ a ∧ a ≤ 0xF4) ∧ Second a b ∧ Tail c ∧ Tail d :=
  ⟨fun | .four first second third fourth => ⟨first, second, third, fourth⟩,
    fun ⟨first, second, third, fourth⟩ => .four first second third fourth⟩

end

theorem Character.ne_nil {x : List UInt8} (character : Character x) : x ≠ [] := by
  cases character <;> simp

theorem Character.length_le {x : List UInt8} (character : Character x) : x.length ≤ 4 := by
  cases character <;> simp

theorem Legal.of_ascii {s : List UInt8} (ascii : ∀ b ∈ s, b ≤ 0x7F) : Legal s := by
  induction s with
  | nil => exact .nil
  | cons b s ih =>
    obtain ⟨here, later⟩ := List.forall_mem_cons.mp ascii
    exact .cons (.one here) (ih later)

end Libofp.Base.Utf8
