/- GID: Libofp/Wire/PaddedElements
   generality: G
   digest: Sequences of elements with a 16-bit size that are padded to multiples of 8 bytes. -/

import Libofp.Wire.ProtocolRange

set_option autoImplicit false

namespace Libofp.Wire.PaddedElements

open Octets.ByteRange Octets.BigEndian ProtocolRange

/-- Elements of at least `size` bytes with their size at an offset. -/
def padded (size offset : Nat) : ElementLayout := ⟨size, .at offset, 8⟩

/-- The bytes reach as far as an iterator goes that stands at them. -/
def Spans (offset : Nat) (e : Bytes) : Prop :=
  e.length = padLength (max (2 + offset) (big16 e offset))

structure IsElement (size offset : Nat) (e : Bytes) : Prop where
  least : size ≤ big16 e offset
  whole : e.length = padLength (big16 e offset)

variable {size offset : Nat} {e rest data : Bytes} {es : List Bytes}

theorem Spans.header (spans : Spans offset e) : offset + 2 ≤ e.length := by
  have bound := le_padLength (max (2 + offset) (big16 e offset))
  rw [Spans] at spans
  omega

theorem Spans.ne_nil (spans : Spans offset e) : e ≠ [] := by
  have header := spans.header
  rintro rfl
  rw [List.length_nil] at header
  omega

theorem jump_pos (data : Bytes) :
    0 < (padded size offset).jumpSize ((padded size offset).itemSize data) := by
  have bound := le_padLength (max (2 + offset) (big16 data offset))
  simp only [ElementLayout.jumpSize, ElementLayout.itemSize, padded, if_true]
  omega

theorem items_append (spans : Spans offset e) (rest : Bytes) :
    (padded size offset).items (e ++ rest) = e :: (padded size offset).items rest := by
  have jump : (padded size offset).jumpSize ((padded size offset).itemSize (e ++ rest)) =
      e.length := by
    simp only [ElementLayout.jumpSize, ElementLayout.itemSize, padded, if_true,
      big16_append rest spans.header]
    exact spans.symm
  rw [ElementLayout.items_cons jump_pos (by simp [spans.ne_nil]), jump, List.take_left,
    List.drop_left]

theorem items_flatten (all : ∀ e ∈ es, Spans offset e) :
    (padded size offset).items es.flatten = es := by
  induction es with
  | nil => rfl
  | cons e es ih =>
    rw [List.forall_mem_cons] at all
    rw [List.flatten_cons, items_append all.1, ih all.2]

theorem IsElement.spans (element : IsElement size offset e) (head : offset + 2 ≤ size) :
    Spans offset e := by
  have least := element.least
  rw [Spans, Nat.max_eq_right (by omega)]
  exact element.whole

private theorem checkElement_append (element : IsElement size offset e) (head : offset + 2 ≤ size)
    (four : 4 ≤ size) (rest : Bytes) :
    (padded size offset).checkElement (e ++ rest) = some e.length := by
  have least := element.least
  have header := (element.spans head).header
  have readable : ¬ offset + 2 > (e ++ rest).length := by
    rw [List.length_append]
    omega
  have jump : (padded size offset).jumpSize (big16 e offset) = e.length := element.whole.symm
  refine ElementLayout.checkElement_eq_some_iff.mpr ⟨big16 e offset, ⟨?_, ?_, ?_, ?_, ?_⟩, jump⟩
  · simp only [ElementLayout.readSize, padded, if_neg readable, big16_append rest header]
  · omega
  · exact fun _ => least
  · exact fun other => absurd rfl other
  · rw [jump, List.length_append]
    omega

private theorem accepts_append (element : IsElement size offset e) (head : offset + 2 ≤ size)
    (four : 4 ≤ size) :
    (padded size offset).Accepts (e ++ rest) ↔ (padded size offset).Accepts rest := by
  have check := checkElement_append element head four rest
  have nonempty : e ++ rest ≠ [] := by simp [(element.spans head).ne_nil]
  obtain ⟨byte, more, split⟩ := List.exists_cons_of_ne_nil nonempty
  have drop : (byte :: more).drop e.length = rest := by rw [← split, List.drop_left]
  rw [split] at check ⊢
  simp only [ElementLayout.Accepts, List.length_cons, ElementLayout.checkLoop, List.isEmpty_cons,
    Bool.false_eq_true, if_false, check, drop]
  have shorter : rest.length ≤ more.length := by
    have positive := (element.spans head).header
    have total := congrArg List.length split
    simp only [List.length_append, List.length_cons] at total
    omega
  rw [ElementLayout.checkLoop_fuel shorter (Nat.le_refl _)]

theorem accepts_flatten (head : offset + 2 ≤ size) (four : 4 ≤ size)
    (all : ∀ e ∈ es, IsElement size offset e) : (padded size offset).Accepts es.flatten := by
  induction es with
  | nil => exact ElementLayout.accepts_nil
  | cons e es ih =>
    rw [List.forall_mem_cons] at all
    rw [List.flatten_cons, accepts_append all.1 head four]
    exact ih all.2

private theorem exists_element (head : offset + 2 ≤ size)
    (accepts : (padded size offset).Accepts data) (nonempty : data ≠ []) :
    ∃ e rest, data = e ++ rest ∧ IsElement size offset e ∧
      (padded size offset).Accepts rest := by
  obtain ⟨jump, check, later⟩ := accepts.cons nonempty
  obtain ⟨elemSize, accepted, rfl⟩ := ElementLayout.checkElement_eq_some_iff.mp check
  have read : big16 data offset = elemSize := by
    have found := accepted.read
    simp only [ElementLayout.readSize, padded] at found
    split at found
    · cases found
    · exact Option.some.inj found
  have least : size ≤ elemSize := accepted.least rfl
  have inside : padLength elemSize ≤ data.length := accepted.inside
  have bound := le_padLength elemSize
  refine ⟨data.take (padLength elemSize), data.drop (padLength elemSize),
    (List.take_append_drop ..).symm, ?_, later⟩
  have same : big16 (data.take (padLength elemSize)) offset = elemSize := by
    rw [big16_take (by omega), read]
  refine ⟨by rw [same]; exact least, ?_⟩
  rw [same, List.length_take]
  omega

theorem elements_of_accepts (head : offset + 2 ≤ size)
    (accepts : (padded size offset).Accepts data) :
    (∀ e ∈ (padded size offset).items data, IsElement size offset e) ∧
      ((padded size offset).items data).flatten = data := by
  induction length : data.length using Nat.strongRecOn generalizing data with
  | ind n ih =>
    subst length
    by_cases empty : data = []
    · subst empty
      simp [ElementLayout.items_nil]
    · obtain ⟨e, rest, rfl, element, later⟩ := exists_element head accepts empty
      have spans := element.spans head
      have shorter : rest.length < (e ++ rest).length := by
        have header := spans.header
        rw [List.length_append]
        omega
      obtain ⟨elements, whole⟩ := ih rest.length shorter later rfl
      rw [items_append spans, List.forall_mem_cons, List.flatten_cons, whole]
      exact ⟨⟨element, elements⟩, rfl⟩

end Libofp.Wire.PaddedElements
