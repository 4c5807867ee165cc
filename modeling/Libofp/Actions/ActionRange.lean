/- GID: Libofp/Actions/ActionRange
   digest: Action lists in message bytes and the validation of them. -/

import Libofp.Wire.ProtocolRange

set_option autoImplicit false

namespace Libofp.Actions.ActionRange

open Octets.ByteRange Octets.BigEndian Wire.ProtocolRange

namespace OFPAT

def output : Nat := 0
def setField : Nat := 25
def stripVlanV1 : Nat := 0x7FF1
def enqueueV1 : Nat := 0x7FF2
def experimenter : Nat := 0xFFFF

end OFPAT

/-- `ActionIteratorItem`: type and length, padded to a multiple of 8. -/
def actionLayout : ElementLayout := ⟨4, .at 2, 8⟩

/-- `ActionType::enumType` of the action that starts the bytes. -/
def enumType (action : Bytes) : Nat := big16 action 0

/-- `ActionIteratorItem::size`: the length that the action states. -/
def actionLength (action : Bytes) : Nat := big16 action 2

theorem enumType_header (type length : Nat) (rest : Bytes) :
    enumType (bigBytes 2 type ++ bigBytes 2 length ++ rest) = type % 65536 := by
  simp [enumType, big16, big8, bigBytes]
  omega

theorem actionLength_header (type length : Nat) (rest : Bytes) :
    actionLength (bigBytes 2 type ++ bigBytes 2 length ++ rest) = length % 65536 := by
  simp [actionLength, big16, big8, bigBytes]
  omega

/-- `ActionIteratorItem::value`, which is also its OXM range. -/
def actionValue (action : Bytes) : Bytes := (action.drop 4).take (actionLength action - 4)

/-- `OXMRange::validateInput_paddedField`: one OXM field and at most 7 zero bytes. -/
def validateInputPaddedField (range : Bytes) : Bool :=
  if range.length < 4 then false
  else
    let len := 4 + big8 range 3
    if range.length < len then false
    else decide ((range.drop len).length ≤ 7) && (range.drop len).all (· == 0)

def validateInputSetField (action : Bytes) : Bool :=
  if actionLength action < 16 then false else validateInputPaddedField (actionValue action)

def nicira : Nat := 0x00002320

/-- `ActionRange::validateInput_NICIRA`: `NXAST_REG_MOVE` and `NXAST_REG_LOAD` have one
size. -/
def validateInputNicira (action : Bytes) : Bool :=
  if actionLength action < 10 then false
  else if big16 action 8 = 6 ∨ big16 action 8 = 7 then actionLength action == 24
  else true

def validateInputExperimenter (action : Bytes) : Bool :=
  if actionLength action < 8 then false
  else if big32 action 4 = nicira then validateInputNicira action
  else true

/-- The check of `ActionRange::validateInput` that depends on the type of an action. -/
def validateAction (action : Bytes) : Bool :=
  if enumType action = OFPAT.setField then validateInputSetField action
  else if enumType action = OFPAT.experimenter then validateInputExperimenter action
  else true

/-- `ActionRange::validateInput` of the bytes that lie at an address. -/
def validateInput (address : Nat) (range : Bytes) : Bool :=
  actionLayout.isProtocolRangeValid address range &&
    (actionLayout.items range).all validateAction

theorem accepts_of_validateInput {address : Nat} {range : Bytes}
    (h : validateInput address range = true) : actionLayout.Accepts range := by
  simp only [validateInput, ElementLayout.isProtocolRangeValid, actionLayout,
    Bool.and_eq_true] at h
  exact h.1.2

theorem accepts_first {acts : Bytes} (h : actionLayout.Accepts acts) (nonempty : acts ≠ []) :
    4 ≤ actionLength acts ∧ padLength (actionLength acts) ≤ acts.length ∧
      actionLayout.Accepts (acts.drop (padLength (actionLength acts))) := by
  obtain ⟨jump, found, rest⟩ := h.cons nonempty
  have bounds := ElementLayout.checkElement_bounds found
  simp only [ElementLayout.checkElement, ElementLayout.readSize, ElementLayout.jumpSize,
    actionLayout] at found
  rw [if_neg (by omega)] at found
  simp only [if_true, ne_eq, not_true, false_and, if_false, and_true] at found
  split_ifs at found with small
  obtain rfl := Option.some.inj found
  exact ⟨Nat.le_of_not_lt small, bounds.2, rest⟩

@[elab_as_elim]
theorem accepts_induction {motive : Bytes → Prop} (nil : motive [])
    (cons : ∀ acts, acts ≠ [] → 4 ≤ actionLength acts →
      padLength (actionLength acts) ≤ acts.length →
      motive (acts.drop (padLength (actionLength acts))) → motive acts)
    {acts : Bytes} (h : actionLayout.Accepts acts) : motive acts := by
  induction size : acts.length using Nat.strongRecOn generalizing acts with
  | ind n ih =>
    by_cases empty : acts = []
    · rwa [empty]
    · obtain ⟨stated, inside, rest⟩ := accepts_first h empty
      have long := le_padLength (actionLength acts)
      refine cons acts empty stated inside (ih _ ?_ rest rfl)
      rw [List.length_drop]
      omega

theorem items_first {acts : Bytes} (nonempty : acts ≠ []) (stated : 4 ≤ actionLength acts) :
    actionLayout.items acts = acts.take (padLength (actionLength acts)) ::
      actionLayout.items (acts.drop (padLength (actionLength acts))) := by
  have jump (data : Bytes) : actionLayout.jumpSize (actionLayout.itemSize data) =
      padLength (max 4 (actionLength data)) := rfl
  have progress (data : Bytes) : 0 < actionLayout.jumpSize (actionLayout.itemSize data) := by
    rw [jump]
    have := le_padLength (max 4 (actionLength data))
    omega
  rw [ElementLayout.items_cons progress nonempty, jump, Nat.max_eq_right stated]

structure Padded (action : Bytes) : Prop where
  stated : 4 ≤ actionLength action
  size : action.length = padLength (actionLength action)

theorem padded_items {acts : Bytes} (h : actionLayout.Accepts acts) :
    ∀ action ∈ actionLayout.items acts, Padded action := by
  refine accepts_induction ?_ ?_ h
  · simp [ElementLayout.items_nil]
  · intro acts nonempty stated inside ih
    have long := le_padLength (actionLength acts)
    have header : actionLength (acts.take (padLength (actionLength acts))) = actionLength acts :=
      big16_take (by omega)
    rw [items_first nonempty stated, List.forall_mem_cons]
    refine ⟨⟨?_, ?_⟩, ih⟩
    · rwa [header]
    · rw [header, List.length_take]
      omega

theorem length_eq_sum {acts : Bytes} (h : actionLayout.Accepts acts) :
    acts.length = ((actionLayout.items acts).map List.length).sum := by
  refine accepts_induction ?_ ?_ h
  · rfl
  · intro acts nonempty stated inside ih
    rw [items_first nonempty stated, List.map_cons, List.sum_cons, ← ih, List.length_take,
      List.length_drop]
    omega

end Libofp.Actions.ActionRange
