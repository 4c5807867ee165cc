/- GID: Libofp/Wire/PropertySearch
   digest: The search for a property of a type: it finds the first one. -/

import Libofp.Queues.QueueRange

set_option autoImplicit false

namespace Libofp.Wire.PropertySearch

open Octets.ByteRange Octets.BigEndian ProtocolRange PaddedElements Queues.QueueRange

/-- `for (auto iter = begin(); iter < end(); ++iter)`. A turn consumes bytes, so as many turns as
bytes are enough. -/
def findLoop (type : Nat) : Nat → Bytes → Option Bytes
  | 0, _ => none
  | turns + 1, data =>
    if data.isEmpty then none
    else if big16 data 0 = type then some data
    else findLoop type turns
      (data.drop (propertyLayout.jumpSize (propertyLayout.itemSize data)))

/-- `PropertyRange::findProperty`: the range from the property on, or nothing for `end()`. -/
def findProperty (type : Nat) (properties : Bytes) : Option Bytes :=
  findLoop type properties.length properties

variable {type : Nat} {before : List Bytes} {e : Bytes}

theorem findLoop_append (rest : Bytes) (found : big16 e 0 = type) (whole : Spans 2 e)
    (others : ∀ p ∈ before, Spans 2 p ∧ big16 p 0 ≠ type) {turns : Nat}
    (enough : (before.flatten ++ (e ++ rest)).length ≤ turns) :
    findLoop type turns (before.flatten ++ (e ++ rest)) = some (e ++ rest) := by
  induction before generalizing turns with
  | nil =>
    have header := whole.header
    rw [List.flatten_nil, List.nil_append] at enough ⊢
    rw [List.length_append] at enough
    obtain ⟨turns, rfl⟩ := Nat.exists_eq_add_of_le' (show 1 ≤ turns by omega)
    have read : big16 (e ++ rest) 0 = type := by
      rw [big16_append rest (by omega), found]
    rw [findLoop, if_neg (by simp [whole.ne_nil]), if_pos read]
  | cons p before ih =>
    rw [List.forall_mem_cons] at others
    obtain ⟨⟨spans, other⟩, later⟩ := others
    have header := spans.header
    rw [List.flatten_cons, List.append_assoc] at enough ⊢
    generalize tail : before.flatten ++ (e ++ rest) = behind at enough ih ⊢
    rw [List.length_append] at enough
    obtain ⟨turns, rfl⟩ := Nat.exists_eq_add_of_le' (show 1 ≤ turns by omega)
    have read : big16 (p ++ behind) 0 ≠ type := by
      rwa [big16_append behind (by omega)]
    have jump : propertyLayout.jumpSize (propertyLayout.itemSize (p ++ behind)) = p.length := by
      rw [spans]
      simp [propertyLayout, ElementLayout.jumpSize, ElementLayout.itemSize, padded,
        big16_append behind header]
    rw [findLoop, if_neg (by simp [spans.ne_nil]), if_neg read, jump, List.drop_left]
    exact ih later (by omega)

private theorem findProperty_append (rest : Bytes) (found : big16 e 0 = type) (whole : Spans 2 e)
    (others : ∀ p ∈ before, Spans 2 p ∧ big16 p 0 ≠ type) :
    findProperty type (before.flatten ++ (e ++ rest)) = some (e ++ rest) :=
  findLoop_append rest found whole others (Nat.le_refl _)

theorem findProperty_single (found : big16 e 0 = type) (whole : Spans 2 e) :
    findProperty type e = some e := by
  have first := @findProperty_append type [] e [] found whole (by simp)
  rwa [List.flatten_nil, List.nil_append, List.append_nil] at first

end Libofp.Wire.PropertySearch
