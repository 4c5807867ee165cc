/- GID: Libofp/Oxm/PrerequisiteCheck
   digest: What the check of a list against the prerequisites of its fields accepts, and when
     that is all that the prerequisites ask. -/

import Libofp.Oxm.FieldList
import Libofp.Oxm.Prerequisites
import Mathlib.Data.List.TakeWhile

set_option autoImplicit false

namespace Libofp.Oxm.PrerequisiteCheck

open Octets.ByteRange Octets.BigEndian Oxm.Range FieldTable FieldList Prerequisites

def Sized (item : Item) : Prop := item.payload.length = OXMType.length item.type

/-- An item satisfies an alternative: it has the same value, or the same value under an
all-ones mask; for a masked alternative, the bits in the mask are the value's. -/
def Meets (item alternative : Item) : Prop :=
  if OXMType.hasMask alternative.type then
    let width := OXMType.length (OXMType.withoutMask alternative.type)
    let value := alternative.payload.take width
    let mask := alternative.payload.drop width
    item.type = OXMType.withoutMask alternative.type ∧
        List.zipWith (· &&& ·) item.payload mask = value ∨
      item.type = alternative.type ∧
        List.zipWith (· &&& ·)
          (List.zipWith (· &&& ·) (item.payload.take width) (item.payload.drop width)) mask = value
  else
    item.type = alternative.type ∧ item.payload = alternative.payload ∨
      item.type = OXMType.withMask alternative.type ∧
        item.payload = alternative.payload ++ List.replicate alternative.payload.length 0xFF

instance (item alternative : Item) : Decidable (Meets item alternative) := by
  unfold Meets
  infer_instance

def Known (item : Item) (id : InternalId) : Prop :=
  ¬ OXMType.isExperimenter item.type ∧ lookupInfo item.type = some id

def Legal (list : List Item) : Prop := ∀ item ∈ list, ¬ OXMType.isIllegal item.type

def TypeMet (preqs before : List Item) (type : Nat) : Prop :=
  ∃ alternative ∈ preqs, alternative.type = type ∧ ∃ item ∈ before, Meets item alternative

def AllMet (preqs before : List Item) : Prop := ∀ preq ∈ preqs, TypeMet preqs before preq.type

def AnyMet (preqs before : List Item) : Prop := ∃ preq ∈ preqs, TypeMet preqs before preq.type

def Complete (list : List Item) : Prop :=
  Legal list ∧ ∀ before item, before ++ [item] <+: list → ∀ id, Known item id →
    AllMet id.prerequisites before

def PartlyMet (list : List Item) : Prop :=
  ∃ before item, before ++ [item] <+: list ∧ ∃ id, Known item id ∧
    AnyMet id.prerequisites before ∧ ¬ AllMet id.prerequisites before

def Unmet (list : List Item) : Prop :=
  ∃ before item, before ++ [item] <+: list ∧ ∃ id, Known item id ∧
    id.prerequisites ≠ [] ∧ ¬ AnyMet id.prerequisites before

theorem sized_prerequisites (id : InternalId) :
    ∀ preq ∈ id.prerequisites, Sized preq := by
  unfold Sized
  cases id <;> decide +kernel

private theorem masked_once (id : InternalId) :
    id.prerequisites.Pairwise fun p q => p.type = q.type → OXMType.hasMask p.type = false := by
  cases id <;> decide +kernel

private theorem not_experimenter_prerequisites (id : InternalId) :
    ∀ preq ∈ id.prerequisites, OXMType.isExperimenter preq.type = false := by
  cases id <;> decide +kernel

private theorem lengths_prerequisites (id : InternalId) :
    ∀ preq ∈ id.prerequisites, OXMType.length preq.type < 128 ∧
      (OXMType.hasMask preq.type → OXMType.length preq.type % 2 = 0) := by
  cases id <;> decide +kernel

section

variable {item preq : Item}

theorem unknownValue_of_not_experimenter (foreign : OXMType.isExperimenter preq.type = false) :
    preq.unknownValue = preq.payload := by
  simp [Item.unknownValue, Item.isExperimenter, foreign]

variable {type : Nat}

section

variable (plain : OXMType.hasMask type = false)

include plain

theorem withMask_eq (small : OXMType.length type < 128) :
    OXMType.withMask type = type / 512 * 512 + (256 + OXMType.length type * 2) := by
  have bits : 256 ||| OXMType.length type * 2 = 256 + OXMType.length type * 2 :=
    (Nat.two_pow_add_eq_or_of_lt (i := 8) (by omega) 1).symm
  rw [OXMType.withMask, plain, if_neg (by decide), bits]

private theorem length_withMask (small : OXMType.length type < 128) :
    OXMType.length (OXMType.withMask type) = 2 * OXMType.length type := by
  rw [withMask_eq plain small]
  simp only [OXMType.length] at small ⊢
  omega

private theorem withMask_ne (small : OXMType.length type < 128) : OXMType.withMask type ≠ type := by
  rw [withMask_eq plain small]
  simp only [OXMType.hasMask, OXMType.length, beq_eq_false_iff_ne] at plain small ⊢
  omega

end

private theorem length_withoutMask (masked : OXMType.hasMask type)
    (even : OXMType.length type % 2 = 0) :
    2 * OXMType.length (OXMType.withoutMask type) = OXMType.length type := by
  rw [OXMType.withoutMask, if_pos masked]
  simp only [OXMType.length] at even ⊢
  omega

private theorem withoutMask_ne (masked : OXMType.hasMask type) :
    OXMType.withoutMask type ≠ type := by
  rw [OXMType.withoutMask, if_pos masked]
  simp only [OXMType.hasMask, OXMType.length, beq_iff_eq] at masked ⊢
  omega

theorem matchPreqValue_iff (sized : Sized item) (sizedPreq : Sized preq)
    (plain : OXMType.hasMask preq.type = false) (small : OXMType.length preq.type < 128)
    (foreign : OXMType.isExperimenter preq.type = false) :
    matchPreqValue preq.type item preq = true ↔ Meets item preq := by
  rw [Meets, if_neg (by simp [plain])]
  simp only [matchPreqValue]
  by_cases same : item.type = preq.type
  · have bare : ¬ item.type = OXMType.withMask preq.type :=
      fun masked => withMask_ne plain small (masked.symm.trans same)
    have full : item.payload.take (OXMType.length preq.type) = item.payload :=
      List.take_of_length_le (by rw [sized, same])
    have whole : preq.payload.take item.payload.length = preq.payload :=
      List.take_of_length_le (by rw [sized, same, sizedPreq])
    rw [if_pos same, full, matchValueWithValue, unknownValue_of_not_experimenter foreign, whole,
      beq_iff_eq]
    constructor
    · intro value
      exact .inl ⟨same, value⟩
    · rintro (⟨-, value⟩ | ⟨masked, -⟩)
      · exact value
      · exact absurd masked bare
  · rw [if_neg same]
    by_cases masked : item.type = OXMType.withMask preq.type
    · have double : item.payload.length = 2 * preq.payload.length := by
        rw [sized, masked, length_withMask plain small, sizedPreq]
      have mask : (item.payload.drop preq.payload.length).take preq.payload.length =
          item.payload.drop preq.payload.length :=
        List.take_of_length_le (by rw [List.length_drop]; omega)
      rw [if_pos masked, matchMaskWithValue, ← sizedPreq, mask, List.take_length,
        Bool.and_eq_true, beq_iff_eq, beq_iff_eq]
      constructor
      · rintro ⟨ones, value⟩
        refine .inr ⟨masked, ?_⟩
        calc item.payload = item.payload.take preq.payload.length ++
              item.payload.drop preq.payload.length := (List.take_append_drop ..).symm
          _ = _ := by rw [value, ones]
      · rintro (⟨type, -⟩ | ⟨-, payload⟩)
        · exact absurd type same
        · rw [payload]
          exact ⟨List.drop_left, List.take_left⟩
    · rw [if_neg masked]
      constructor
      · intro found
        cases found
      · rintro (⟨type, -⟩ | ⟨type, -⟩)
        · exact absurd type same
        · exact absurd type masked

theorem checkPreqMasked_iff {range : List Item} (sized : ∀ item ∈ range, Sized item)
    (sizedPreq : Sized preq) (masked : OXMType.hasMask preq.type)
    (even : OXMType.length preq.type % 2 = 0) :
    checkPreqMasked preq range = true ↔ ∃ item ∈ range, Meets item preq := by
  rw [checkPreqMasked, List.any_eq_true]
  refine exists_congr fun item => and_congr_right fun member => ?_
  have half := length_withoutMask masked even
  have payload := sized item member
  rw [← sizedPreq] at half
  rw [Meets, if_pos masked]
  generalize widthEq : OXMType.length (OXMType.withoutMask preq.type) = width at half
  have mask : (preq.payload.drop width).take width = preq.payload.drop width :=
    List.take_of_length_le (by rw [List.length_drop]; omega)
  by_cases bare : item.type = OXMType.withoutMask preq.type
  · have length : item.payload.length = width := by rw [payload, bare, widthEq]
    have full : item.payload.take width = item.payload := List.take_of_length_le length.le
    rw [if_pos bare, full, matchValueWithMask, length, mask, beq_iff_eq]
    constructor
    · intro bits
      exact .inl ⟨bare, bits⟩
    · rintro (⟨-, bits⟩ | ⟨same, -⟩)
      · exact bits
      · exact absurd (bare.symm.trans same) (withoutMask_ne masked)
  · rw [if_neg bare]
    by_cases same : item.type = preq.type
    · have length : item.payload.length = 2 * width := by rw [payload, same, ← sizedPreq, half]
      have own : (item.payload.drop width).take width = item.payload.drop width :=
        List.take_of_length_le (by rw [List.length_drop]; omega)
      have bits : (List.zipWith (· &&& ·) (item.payload.take width)
          (item.payload.drop width)).length = width := by
        rw [List.length_zipWith, List.length_take, List.length_drop]
        omega
      simp only [if_pos same, matchMaskWithMask, own, matchValueWithMask, bits, mask, beq_iff_eq]
      constructor
      · intro both
        exact .inr ⟨same, both⟩
      · rintro (⟨type, -⟩ | ⟨-, both⟩)
        · exact absurd type bare
        · exact both
    · rw [if_neg same]
      constructor
      · intro found
        cases found
      · rintro (⟨type, -⟩ | ⟨type, -⟩)
        · exact absurd type bare
        · exact absurd type same

end

private theorem sized_itemsLoop {turns : Nat} {data : Bytes} (valid : validateLoop turns data) :
    ∀ item ∈ itemsLoop turns data, Sized item := by
  induction turns generalizing data with
  | zero => simp [itemsLoop]
  | succ turns ih =>
    rw [validateLoop] at valid
    rw [itemsLoop]
    split at valid
    · next done => simp [done]
    · next more =>
      have header : 4 ≤ data.length ∧ fieldSize data ≤ data.length ∧
          validateLoop turns (data.drop (fieldSize data)) := by
        grind
      obtain ⟨-, complete, rest⟩ := header
      rw [if_neg more]
      intro item member
      rcases List.mem_cons.mp member with rfl | later
      · have low := big8_lt data 3
        simp only [Sized, OXMType.length, List.length_take, List.length_drop, big32, big16,
          fieldSize, Nat.zero_add, Nat.reduceAdd] at complete ⊢
        omega
      · exact ih rest item later

private theorem sized_items {range : Bytes} (valid : validateInput range) :
    ∀ item ∈ items range, Sized item :=
  sized_itemsLoop valid

variable {preqs before : List Item}

private theorem checkLoop_iff {range : List Item} (sized : ∀ item ∈ range, Sized item) {turns : Nat}
    (enough : preqs.length ≤ turns)
    (sizedPreqs : ∀ preq ∈ preqs, Sized preq)
    (once : preqs.Pairwise fun p q => p.type = q.type → OXMType.hasMask p.type = false)
    (foreign : ∀ preq ∈ preqs, OXMType.isExperimenter preq.type = false)
    (lengths : ∀ preq ∈ preqs, OXMType.length preq.type < 128 ∧
      (OXMType.hasMask preq.type → OXMType.length preq.type % 2 = 0)) :
    checkLoop range turns preqs = true ↔ ∃ preq ∈ preqs, ∃ item ∈ range, Meets item preq := by
  induction turns generalizing preqs with
  | zero =>
    obtain rfl := List.length_eq_zero_iff.mp (Nat.le_zero.mp enough)
    simp [checkLoop]
  | succ turns ih =>
    cases preqs with
    | nil => simp [checkLoop]
    | cons preq preqs =>
      rw [List.forall_mem_cons] at sizedPreqs foreign lengths
      rw [List.pairwise_cons] at once
      have rest := ih (Nat.le_of_succ_le_succ enough) sizedPreqs.2 once.2 foreign.2 lengths.2
      rw [checkLoop, List.exists_mem_cons_iff, ← rest]
      split
      · next masked =>
        -- No later item has the type, so only this one is passed.
        have single : advancePreq preq.type (preq :: preqs) = preqs := by
          cases preqs with
          | nil => rfl
          | cons next preqs =>
            have other : next.type ≠ preq.type := fun same =>
              absurd (once.1 next List.mem_cons_self same.symm) (by simp [masked])
            simp [advancePreq, other]
        rw [single, ← checkPreqMasked_iff sized sizedPreqs.1 masked (lengths.1.2 masked)]
        cases checkPreqMasked preq range <;> simp
      · next plain =>
        have bare : OXMType.hasMask preq.type = false := by simpa using plain
        have own (item : Item) (member : item ∈ range) :
            matchPreqValue preq.type item preq = true ↔ Meets item preq :=
          matchPreqValue_iff (sized item member) sizedPreqs.1 bare lengths.1.1 foreign.1
        constructor
        · intro accepted
          split at accepted
          · next found =>
            -- The met prerequisite is this one or one of its type behind it.
            obtain ⟨item, member, alternative⟩ := List.any_eq_true.mp found
            obtain ⟨q, listed, matched⟩ := List.any_eq_true.mp alternative
            have type : q.type = preq.type := by
              simpa using List.mem_takeWhile_imp listed
            rcases List.mem_cons.mp (List.takeWhile_subset _ listed) with rfl | later
            · exact .inl ⟨item, member, (own item member).mp matched⟩
            · have met : Meets item q := by
                rw [← type] at matched
                exact (matchPreqValue_iff (sized item member) (sizedPreqs.2 q later)
                  (type ▸ bare) (lengths.2 q later).1 (foreign.2 q later)).mp matched
              exact .inr (rest.mpr ⟨q, later, item, member, met⟩)
          · exact .inr accepted
        · rintro (⟨item, member, met⟩ | later)
          · have found : checkPreqValue preq.type (preq :: preqs) range = true := by
              refine List.any_eq_true.mpr ⟨item, member, List.any_eq_true.mpr ⟨preq, ?_, ?_⟩⟩
              · simp [front]
              · exact (own item member).mpr met
            rw [if_pos found]
          · split
            · rfl
            · exact later

private theorem check_iff (id : InternalId) {range : List Item}
    (sized : ∀ item ∈ range, Sized item) :
    check id.prerequisites range = true ↔
      ∃ preq ∈ id.prerequisites, ∃ item ∈ range, Meets item preq :=
  checkLoop_iff sized (Nat.le_refl _) (sized_prerequisites id) (masked_once id)
    (not_experimenter_prerequisites id) (lengths_prerequisites id)

theorem anyMet_iff :
    AnyMet preqs before ↔ ∃ preq ∈ preqs, ∃ item ∈ before, Meets item preq := by
  constructor
  · rintro ⟨-, -, alternative, listed, -, met⟩
    exact ⟨alternative, listed, met⟩
  · rintro ⟨preq, listed, met⟩
    exact ⟨preq, listed, preq, listed, rfl, met⟩

private theorem forall_places_cons {α : Type} {P : List α → α → Prop} {head : α} {list : List α} :
    (∀ front item, front ++ [item] <+: head :: list → P front item) ↔
      P [] head ∧ ∀ front item, front ++ [item] <+: list → P (head :: front) item := by
  constructor
  · intro all
    refine ⟨all [] head ⟨list, rfl⟩, fun front item place => all (head :: front) item ?_⟩
    obtain ⟨behind, rfl⟩ := place
    exact ⟨behind, rfl⟩
  · rintro ⟨first, later⟩ front item place
    cases front with
    | nil =>
      obtain ⟨behind, same⟩ := place
      cases same
      exact first
    | cons other front =>
      obtain ⟨behind, same⟩ := place
      cases same
      exact later front item ⟨behind, rfl⟩

theorem checkItems_iff {list : List Item} (sized : ∀ item ∈ before ++ list, Sized item) :
    checkItems before list = .ok () ↔ Legal list ∧
      ∀ front item, front ++ [item] <+: list → ∀ id, Known item id →
        id.prerequisites ≠ [] → AnyMet id.prerequisites (before ++ front) := by
  induction list generalizing before with
  | nil => simp [checkItems, Legal]
  | cons head list ih =>
    have next := @ih (before ++ [head]) (by simpa using sized)
    have early : ∀ item ∈ before, Sized item := fun item member =>
      sized item (List.mem_append_left _ member)
    rw [checkItems, Legal, List.forall_mem_cons, forall_places_cons, List.append_nil]
    simp only [List.append_assoc, List.singleton_append] at next
    by_cases illegal : OXMType.isIllegal head.type
    · simp [illegal]
    · by_cases foreign : OXMType.isExperimenter head.type
      · have unknown (id : InternalId) : ¬ Known head id := fun known => known.1 foreign
        simp [illegal, foreign, next, Legal, unknown]
      · rcases lookup : lookupInfo head.type with _ | id
        · have unknown (id : InternalId) : ¬ Known head id := by simp [Known, lookup]
          simp [illegal, foreign, next, Legal, unknown]
        · have known (other : InternalId) : Known head other ↔ id = other := by
            simp [Known, lookup, foreign]
          have met := (check_iff id early).trans anyMet_iff.symm
          simp only [illegal, foreign, known, forall_eq', ← met, Bool.false_eq_true, if_false,
            not_false_eq_true, true_and]
          by_cases accepted : id.prerequisites = [] ∨ check id.prerequisites before = true
          · rw [if_pos accepted, next]
            have fulfilled : id.prerequisites ≠ [] → check id.prerequisites before = true :=
              accepted.resolve_left
            exact ⟨fun ⟨legal, later⟩ => ⟨legal, fulfilled, later⟩,
              fun ⟨legal, _, later⟩ => ⟨legal, later⟩⟩
          · rw [if_neg accepted]
            simp only [reduceCtorEq, false_iff]
            rintro ⟨-, fulfilled, -⟩
            exact accepted ((em _).imp_right fulfilled)

theorem allMet_iff :
    AllMet preqs before ↔
      (preqs ≠ [] → AnyMet preqs before) ∧ ¬ (AnyMet preqs before ∧ ¬ AllMet preqs before) := by
  constructor
  · intro all
    refine ⟨fun some => ?_, fun ⟨_, missing⟩ => missing all⟩
    obtain ⟨preq, listed⟩ := List.exists_mem_of_ne_nil preqs some
    exact ⟨preq, listed, all preq listed⟩
  · rintro ⟨touched, whole⟩
    by_cases none : preqs = []
    · subst none
      exact fun preq listed => absurd listed List.not_mem_nil
    · by_contra missing
      exact whole ⟨touched none, missing⟩

private theorem complete_iff (list : List Item) :
    Complete list ↔ (Legal list ∧ ¬ Unmet list) ∧ ¬ PartlyMet list := by
  constructor
  · rintro ⟨legal, all⟩
    refine ⟨⟨legal, ?_⟩, ?_⟩
    · rintro ⟨before, item, place, id, known, some, none⟩
      exact none ((allMet_iff.mp (all before item place id known)).1 some)
    · rintro ⟨before, item, place, id, known, -, missing⟩
      exact missing (all before item place id known)
  · rintro ⟨⟨legal, touched⟩, whole⟩
    refine ⟨legal, fun before item place id known => allMet_iff.mpr ⟨fun some => ?_, ?_⟩⟩
    · by_contra none
      exact touched ⟨before, item, place, id, known, some, none⟩
    · rintro ⟨any, missing⟩
      exact whole ⟨before, item, place, id, known, any, missing⟩

private theorem checkAll_iff {range : Bytes} (valid : validateInput range) :
    checkAll range = .ok () ↔ Legal (items range) ∧ ¬ Unmet (items range) := by
  have sized : ∀ item ∈ [] ++ items range, Sized item := sized_items valid
  rw [checkAll, checkItems_iff sized]
  refine and_congr_right fun _ => ?_
  constructor
  · rintro touched ⟨before, item, place, id, known, some, none⟩
    exact none (touched before item place id known some)
  · intro met before item place id known some
    by_contra none
    exact met ⟨before, item, place, id, known, some, none⟩

/-- The check is exact when no field has only a part of its prerequisites before it, or the
list fails for another reason. -/
theorem checkAll_exact_iff (range : Bytes) (valid : validateInput range) :
    (checkAll range = .ok () ↔ Complete (items range)) ↔
      (PartlyMet (items range) → ¬ Legal (items range) ∨ Unmet (items range)) := by
  rw [checkAll_iff valid, complete_iff]
  tauto

/-- IPv4, protocol 6 and a TCP port. -/
theorem checkAll_exact_tcpSrc :
    let range : Bytes :=
      [0x80, 0, 0x0a, 2, 0x08, 0x00, 0x80, 0, 0x14, 1, 6, 0x80, 0, 0x1a, 2, 0, 80]
    validateInput range ∧
      ((checkAll range = .ok () ↔ Complete (items range)) ↔
        (PartlyMet (items range) → ¬ Legal (items range) ∨ Unmet (items range))) := by
  intro range
  have valid : validateInput range := by decide
  exact ⟨valid, checkAll_exact_iff range valid⟩

def tcpSrcWithoutIpProto : Bytes :=
  [0x80, 0, 0x0a, 2, 0x08, 0x00, 0x80, 0, 0x1a, 2, 0, 80]

theorem tcpSrc_without_ipProto : validateInput tcpSrcWithoutIpProto ∧
    checkAll tcpSrcWithoutIpProto = .ok () ∧ ¬ Complete (items tcpSrcWithoutIpProto) := by
  refine ⟨by decide, by decide +kernel, fun complete => ?_⟩
  have tcpSrc := complete.2 [⟨0x80000a02, [0x08, 0x00]⟩] ⟨0x80001a02, [0, 80]⟩
    ⟨[], by decide⟩ .tcpSrc ⟨by decide, by decide +kernel⟩
  have ipProto := tcpSrc ⟨0x80001401, [6]⟩ (by decide +kernel)
  revert ipProto
  unfold TypeMet
  decide +kernel

end Libofp.Oxm.PrerequisiteCheck
