/- GID: Libofp/Match/BlockSteps
   digest: The steps of a match builder and the validation of its list, on blocks. -/

import Libofp.Match.Blocks

set_option autoImplicit false

namespace Libofp.Match.BlockSteps

open Octets.ByteRange Oxm.Range Oxm.FieldTable
open Oxm.FieldList Oxm.Prerequisites Oxm.PrerequisiteCheck Builder Needs Blocks

section

variable {bs bs' : List Block} {f : Field}

theorem poisonDuplicates_append {type : Nat} {xs : List Item} (ys : List Item)
    (other : ∀ item ∈ xs, item.type ≠ type) :
    poisonDuplicates type (xs ++ ys) = xs ++ poisonDuplicates type ys := by
  induction xs with
  | nil => rfl
  | cons x xs ih =>
    rw [List.forall_mem_cons] at other
    rw [List.cons_append, poisonDuplicates, if_neg other.1, ih other.2, List.cons_append]

variable {id : InternalId}

section

variable (regular : id.isExperimenter = false)

include regular

theorem items_ne_type {b : Block}
    (other : b.id? ≠ some id) : ∀ item ∈ b.items, item.type ≠ id.type := by
  intro item member same
  exact other ((type_items_iff regular b).mp ⟨item, member, .inl same⟩)

private theorem poisonDuplicates_flatten (done : poisonLater id bs = some bs') :
    poisonDuplicates id.type (flatten bs) = flatten bs' := by
  induction bs generalizing bs' with
  | nil =>
    cases done
    rfl
  | cons b bs ih =>
    have pass (other : ∀ item ∈ b.items, item.type ≠ id.type)
        (later : (poisonLater id bs).map (b :: ·) = some bs') :
        poisonDuplicates id.type (flatten (b :: bs)) = flatten bs' := by
      obtain ⟨rest, found, rfl⟩ := Option.map_eq_some_iff.mp later
      rw [flatten, List.flatMap_cons, poisonDuplicates_append _ other]
      exact congrArg (b.items ++ ·) (ih found)
    cases b with
    | real g =>
      rw [poisonLater] at done
      split at done
      · next same =>
        cases done
        have own : g.item.type = id.type := (type_inj regular).mpr same
        rw [flatten, List.flatMap_cons, Block.items, List.singleton_append, poisonDuplicates,
          if_pos own]
        rfl
      · next other => exact pass (items_ne_type regular (by simpa [Block.id?] using other)) done
    | pending n =>
      cases n with
      | oneOf c =>
        rw [poisonLater] at done
        split at done
        · cases done
        · next other =>
          exact pass (items_ne_type regular (by simpa [Block.id?, Need.id] using other)) done
      | under m =>
        have bare := signal_ne_type id
        have masked : ¬ m.id.typeWithMask = id.type :=
          fun same => type_ne_typeWithMask _ _ same.symm
        exact pass (by simp [Block.items, Need.items, signal, bare, masked]) done
    | poison => exact pass (items_ne_type regular (by simp [Block.id?])) done

private theorem items_ne_of_not_mem
    (absent : id ∉ fields bs) : ∀ item ∈ flatten bs, item.type ≠ id.type := by
  intro item member same
  obtain ⟨b, listed, inside⟩ := List.mem_flatMap.mp member
  have about := (type_items_iff regular b).mp ⟨item, inside, .inl same⟩
  exact absent (List.mem_filterMap.mpr ⟨b, listed, about⟩)

theorem matchValueWithValue_iff
    {value other : Bytes} (sized : value.length = id.size) (sized' : other.length = id.size) :
    matchValueWithValue value ⟨id.type, other⟩ = true ↔ value = other := by
  rw [matchValueWithValue, unknownValue_of_not_experimenter (by rw [isExperimenter_type, regular]),
    List.take_of_length_le (by rw [sized, sized']), beq_iff_eq]

theorem experimenter_type (value : Bytes) : (⟨id.type, value⟩ : Item).experimenter = 0 := by
  simp [Item.experimenter, Item.isExperimenter, isExperimenter_type, regular]

end

private theorem substituteValue_values (f : Field) {values : List Bytes} {rest : List Item}
    (sized : ∀ value ∈ values, value.length = f.id.size) (offered : f.value ∈ values)
    (apart : ∀ item ∈ rest, item.type ≠ f.id.type) :
    substituteValue f.id.type f.value (values.map (fun value => ⟨f.id.type, value⟩) ++ rest) =
      some (some (f.item :: rest)) := by
  induction values with
  | nil => cases offered
  | cons value values ih =>
    rw [List.forall_mem_cons] at sized
    have length : ¬ (f.value.length ≠ OXMType.length f.id.type ∧
        (⟨f.id.type, value⟩ : Item).experimenter = 0) := by
      rw [f.sized, length_type]
      exact fun wrong => wrong.1 rfl
    rw [List.map_cons, List.cons_append, substituteValue, if_neg length]
    by_cases same : f.value = value
    · have own : ∀ item ∈ values.map (fun value => (⟨f.id.type, value⟩ : Item)),
          item.type = f.id.type := by
        simp
      have behind : advancePreq f.id.type
          (⟨f.id.type, value⟩ :: (values.map (fun value => ⟨f.id.type, value⟩) ++ rest)) = rest :=
        dropWhile_append own fun item first => apart item (List.mem_of_mem_head? first)
      have untouched := poisonDuplicates_append [] apart
      rw [List.append_nil, poisonDuplicates, List.append_nil] at untouched
      rw [if_pos ((matchValueWithValue_iff f.regular f.sized sized.1).mpr same), behind,
        replaceWith, untouched]
      rfl
    · have later : f.value ∈ values := (List.mem_cons.mp offered).resolve_left same
      rw [if_neg (fun matched => same
        ((matchValueWithValue_iff f.regular f.sized sized.1).mp matched))]
      exact ih sized.2 later

def behindAll (items : List Item) : Substitution → Substitution
  | .done list => .done (items ++ list)
  | .absent => .absent

theorem substituteLoop_skip {type : Nat} {value : Bytes} {xs : List Item} (ys : List Item)
    (other : ∀ item ∈ xs, item.type ≠ type ∧ item.type ≠ kMaskedPrereqSignal ∧
      item.type ≠ kValuePrereqSignal) :
    substituteLoop type value (xs ++ ys) =
      (substituteLoop type value ys).map (behindAll xs) := by
  induction xs with
  | nil =>
    have same : behindAll [] = id := by
      funext s
      cases s <;> rfl
    rw [same, Option.map_id]
    rfl
  | cons x xs ih =>
    rw [List.forall_mem_cons] at other
    have step : substituteLoop type value (x :: (xs ++ ys)) =
        (substituteLoop type value (xs ++ ys)).map (·.behind x) := by
      rw [substituteLoop.eq_def]
      simp only [if_neg other.1.1, if_neg other.1.2.1, if_neg other.1.2.2]
    rw [List.cons_append, step, ih other.2, Option.map_map]
    congr 1
    funext s
    cases s <;> rfl

def outcome : Option (List Block) → Substitution
  | some bs => .done (flatten bs)
  | none => .absent

private theorem behindAll_outcome (b : Block) (r : Option (List Block)) :
    behindAll b.items (outcome r) = outcome (r.map (b :: ·)) := by
  cases r <;> rfl

theorem substituteLoop_choice {c : Choice} (other : c.id ≠ f.id) (rest : List Item) :
    substituteLoop f.id.type f.value ((Block.pending (.oneOf c)).items ++ rest) =
      (substituteLoop f.id.type f.value rest).map
        (behindAll (Block.pending (.oneOf c)).items) := by
  have signals := signal_ne_type f.id
  have foreign := signal_ne_type c.id
  have type : c.id.type ≠ f.id.type := fun same => other ((type_inj f.regular).mp same)
  have values : ∀ item ∈ (Need.oneOf c).items, item.type ≠ f.id.type ∧
      item.type ≠ kMaskedPrereqSignal ∧ item.type ≠ kValuePrereqSignal := by
    intro item member
    rw [type_of_mem_items member]
    exact ⟨type, foreign.1.symm, foreign.2.1.symm⟩
  have first : substituteLoop f.id.type f.value
      (signal kValuePrereqSignal :: ((Need.oneOf c).items ++ rest)) =
        (substituteLoop f.id.type f.value ((Need.oneOf c).items ++ rest)).map
          (·.behind (signal kValuePrereqSignal)) := by
    have distinct : kValuePrereqSignal ≠ kMaskedPrereqSignal := by decide
    rw [substituteLoop.eq_def]
    simp only [signal, if_neg signals.2.1, if_neg distinct, if_true, Need.items, Choice.values,
      List.map_cons, List.cons_append, hasMask_type, Bool.false_eq_true, if_false, if_neg type]
  rw [Block.items, List.cons_append, first, substituteLoop_skip rest values, Option.map_map]
  congr 1
  funext s
  cases s <;> rfl

private theorem substituteLoop_offered {c : Choice} (own : c.id = f.id)
    (offered : f.value ∈ c.values) {rest : List Item}
    (apart : ∀ item ∈ rest, item.type ≠ f.id.type) :
    substituteLoop f.id.type f.value ((Block.pending (.oneOf c)).items ++ rest) =
      some (.done (f.item :: rest)) := by
  have signals := signal_ne_type f.id
  have distinct : kValuePrereqSignal ≠ kMaskedPrereqSignal := by decide
  have walk := substituteValue_values f (fun value listed => own ▸ c.sized value listed)
    offered apart
  rw [Block.items, List.cons_append, substituteLoop.eq_def]
  simp only [Need.items, own, Choice.values, List.map_cons, List.cons_append] at walk ⊢
  simp only [signal, if_neg signals.2.1, if_neg distinct, if_true, hasMask_type,
    Bool.false_eq_true, if_false, walk, Option.map_some]

private theorem matchValueWithMask_iff {m : Masking} {value : Bytes}
    (sized : value.length = m.id.size) :
    matchValueWithMask value ⟨m.id.typeWithMask, m.value ++ m.mask⟩ =
      Need.accepts (.under m) value := by
  simp only [matchValueWithMask, Need.accepts, sized, ← m.sizedValue, List.take_left,
    List.drop_left]
  rw [List.take_of_length_le (by rw [m.sizedMask, m.sizedValue])]

theorem substituteLoop_masking {m : Masking} (rest : List Item) :
    substituteLoop f.id.type f.value ((Block.pending (.under m)).items ++ rest) =
      if m.id = f.id ∧ Need.accepts (.under m) f.value then
        some (.done (f.item :: poisonDuplicates f.id.type rest))
      else (substituteLoop f.id.type f.value rest).map
        (behindAll (Block.pending (.under m)).items) := by
  have signals := signal_ne_type f.id
  have behind : (fun s : Substitution => (s.behind ⟨m.id.typeWithMask, m.value ++ m.mask⟩).behind
      (signal kMaskedPrereqSignal)) = behindAll (Block.pending (.under m)).items := by
    funext s
    cases s <;> rfl
  rw [← behind, Block.items, List.cons_append, substituteLoop.eq_def]
  simp only [signal, if_neg signals.1, if_true, Need.items, List.singleton_append,
    hasMask_typeWithMask, not_true, if_false, withoutMask_typeWithMask, length_typeWithMask]
  by_cases same : m.id = f.id
  · have length : ¬ 2 * f.value.length ≠ 2 * m.id.size := by
      rw [f.sized, same]
      exact fun wrong => wrong rfl
    rw [if_pos ((type_inj f.regular).mpr same), if_neg length,
      matchValueWithMask_iff (by rw [f.sized, same])]
    simp only [same, true_and]
    rfl
  · rw [if_neg (fun type => same ((type_inj f.regular).mp type)), if_neg (fun both => same both.1)]

private theorem substituteLoop_flatten {r : Option (List Block)} (placed : place f bs = some r) :
    substituteLoop f.id.type f.value (flatten bs) = some (outcome r) := by
  induction bs generalizing r with
  | nil =>
    cases placed
    rfl
  | cons b bs ih =>
    have signals := signal_ne_type f.id
    -- A block that the loop passes stays in front.
    have pass (skipped : substituteLoop f.id.type f.value (b.items ++ flatten bs) =
          (substituteLoop f.id.type f.value (flatten bs)).map (behindAll b.items))
        (later : (place f bs).map (Option.map (b :: ·)) = some r) :
        substituteLoop f.id.type f.value (flatten (b :: bs)) = some (outcome r) := by
      obtain ⟨r', found, rfl⟩ := Option.map_eq_some_iff.mp later
      rw [flatten, List.flatMap_cons]
      rw [flatten] at skipped ih
      rw [skipped, ih found, Option.map_some, behindAll_outcome]
    cases b with
    | real g =>
      rw [place] at placed
      split at placed
      · next same =>
        obtain rfl := Option.some.inj placed
        have type : g.item.type = f.id.type := (type_inj f.regular).mpr same
        have equal : matchValueWithValue f.value g.item = true ↔ f.value = g.value := by
          rw [Field.item, same]
          exact matchValueWithValue_iff f.regular f.sized (by rw [g.sized, same])
        rw [flatten, List.flatMap_cons, Block.items, List.singleton_append,
          substituteLoop.eq_def]
        simp only [if_pos type, equal]
        by_cases value : f.value = g.value
        · rw [if_pos value, if_pos value.symm]
          rfl
        · rw [if_neg value, if_neg (fun same => value same.symm)]
          rfl
      · next other =>
        have type : g.item.type ≠ f.id.type := fun same => other ((type_inj f.regular).mp same)
        have foreign := signal_ne_type g.id
        refine pass (substituteLoop_skip _ ?_) placed
        simpa [Block.items] using ⟨type, foreign.1.symm, foreign.2.1.symm⟩
    | pending n =>
      cases n with
      | oneOf c =>
        rw [place] at placed
        split at placed
        · next own =>
          split at placed
          · next offered =>
            obtain rfl := Option.some.inj placed
            exact substituteLoop_offered own (by simpa [Need.accepts] using offered.1)
              (items_ne_of_not_mem f.regular offered.2)
          · cases placed
        · next other => exact pass (substituteLoop_choice other _) placed
      | under m =>
        rw [place] at placed
        split at placed
        · next accepted =>
          obtain ⟨rest, found, rfl⟩ := Option.map_eq_some_iff.mp placed
          rw [flatten, List.flatMap_cons, substituteLoop_masking, if_pos accepted]
          exact congrArg (fun list => some (Substitution.done (f.item :: list)))
            (poisonDuplicates_flatten f.regular found)
        · next refused =>
          exact pass (by rw [substituteLoop_masking, if_neg refused]) placed
    | poison =>
      refine pass (substituteLoop_skip _ ?_) placed
      simp only [Block.items, List.mem_singleton, forall_eq, signal]
      exact ⟨signals.2.2, by decide, by decide⟩

end

theorem add_flatten {bs bs' : List Block} {f : Field} (added : addField bs f = some bs') :
    add (flatten bs) f = some (flatten bs') := by
  obtain ⟨r, placed, rfl⟩ := Option.map_eq_some_iff.mp added
  rw [add, insertAll_prerequisites, substitute, isExperimenter_type, f.regular,
    if_neg (by decide), substituteLoop_flatten placed, Option.map_some]
  cases r with
  | none => simp [outcome, flatten, Block.items]
  | some bs' => rfl

section

variable {bs : List Block}

theorem type_lt (id : InternalId) : id.type < 2 ^ 32 ∧ id.typeWithMask < 2 ^ 32 := by
  cases id <;> decide

private theorem type_flatten_lt (bs : List Block) : ∀ item ∈ flatten bs, item.type < 2 ^ 32 := by
  intro item member
  obtain ⟨b, -, inside⟩ := List.mem_flatMap.mp member
  cases b with
  | real f =>
    obtain rfl := List.mem_singleton.mp inside
    exact (type_lt f.id).1
  | pending n =>
    cases n with
    | oneOf c =>
      rcases List.mem_cons.mp inside with rfl | later
      · decide
      · rw [type_of_mem_items later]
        exact (type_lt c.id).1
    | under m =>
      rcases List.mem_cons.mp inside with rfl | later
      · decide
      · rw [type_of_mem_items later]
        exact (type_lt m.id).2
  | poison =>
    obtain rfl := List.mem_singleton.mp inside
    decide

theorem items_toRange {list : List Item} (bound : ∀ item ∈ list, item.type < 2 ^ 32)
    (sized : ∀ item ∈ list, Sized item) : items (toRange list) = list := by
  induction list with
  | nil => rfl
  | cons item list ih =>
    rw [List.forall_mem_cons] at bound sized
    rw [toRange, List.flatMap_cons, items_append bound.1 sized.1, ← toRange, ih bound.2 sized.2]

theorem validate_list_iff {list : List Item} (bound : ∀ item ∈ list, item.type < 2 ^ 32)
    (sized : ∀ item ∈ list, Sized item) : validate list = true ↔ checkItems [] list = .ok () := by
  rw [validate, checkAll, items_toRange bound sized]
  cases checkItems [] list <;> simp [Except.isOk, Except.toBool]

private theorem validate_iff (bs : List Block) :
    validate (flatten bs) = true ↔ checkItems [] (flatten bs) = .ok () :=
  validate_list_iff (type_flatten_lt bs) (sized_flatten bs)

theorem exists_map_real (all : ∀ b ∈ bs, ∃ f, b = Block.real f) :
    ∃ fs : List Field, bs = fs.map .real := by
  induction bs with
  | nil => exact ⟨[], rfl⟩
  | cons b bs ih =>
    rw [List.forall_mem_cons] at all
    obtain ⟨f, rfl⟩ := all.1
    obtain ⟨fs, rfl⟩ := ih all.2
    exact ⟨f :: fs, rfl⟩

theorem flatten_map_real (fs : List Field) : flatten (fs.map .real) = fs.map Field.item := by
  induction fs with
  | nil => rfl
  | cons f fs ih =>
    rw [flatten] at ih
    rw [List.map_cons, flatten, List.flatMap_cons, ih]
    rfl

private theorem legal_flatten_iff : Legal (flatten bs) ↔ ∃ fs : List Field, bs = fs.map .real := by
  constructor
  · intro legal
    apply exists_map_real
    intro b member
    have inside : ∀ item ∈ b.items, ¬ OXMType.isIllegal item.type := fun item listed =>
      legal item (List.mem_flatMap.mpr ⟨b, member, listed⟩)
    cases b with
    | real f => exact ⟨f, rfl⟩
    | pending n =>
      cases n with
      | oneOf c => exact absurd (by decide) (inside _ List.mem_cons_self)
      | under m => exact absurd (by decide) (inside _ List.mem_cons_self)
    | poison => exact absurd (by decide) (inside _ List.mem_cons_self)
  · rintro ⟨fs, rfl⟩ item member
    obtain ⟨b, listed, inside⟩ := List.mem_flatMap.mp member
    obtain ⟨f, -, rfl⟩ := List.mem_map.mp listed
    obtain rfl := List.mem_singleton.mp inside
    simp [OXMType.isIllegal, Field.item, hasMask_type]

theorem prerequisites_eq_nil_iff (id : InternalId) : id.prerequisites = [] ↔ needs id = [] := by
  rw [prerequisites_eq, List.flatMap_eq_nil_iff]
  constructor
  · intro empty
    by_contra some
    obtain ⟨n, listed⟩ := List.exists_mem_of_ne_nil _ some
    have none := empty n listed
    cases n <;> simp [Need.items, Choice.values] at none
  · intro none
    simp [none]

theorem known_item_iff {f : Field} {id : InternalId} : Known f.item id ↔ id = f.id := by
  have foreign : OXMType.isExperimenter f.item.type = false := by
    rw [Field.item, isExperimenter_type, f.regular]
  rw [Known, foreign, Field.item, lookupInfo_type f.regular]
  simp [eq_comm]

theorem anyMet_fields_iff {id : InternalId} {fs : List Field} :
    AnyMet id.prerequisites (fs.map Field.item) ↔
      ∃ n ∈ needs id, ∃ f ∈ fs, f.id = n.id ∧ n.accepts f.value = true := by
  simp only [anyMet_iff, prerequisites_eq, List.mem_flatMap, List.mem_map]
  constructor
  · rintro ⟨preq, ⟨n, listed, inside⟩, item, ⟨f, member, rfl⟩, met⟩
    exact ⟨n, listed, f, member, metBy_value_iff.mp ⟨preq, inside, met⟩⟩
  · rintro ⟨n, listed, f, member, accepted⟩
    obtain ⟨preq, inside, met⟩ := metBy_value_iff.mpr accepted
    exact ⟨preq, ⟨n, listed, inside⟩, f.item, ⟨f, member, rfl⟩, met⟩

theorem validate_flatten_iff : validate (flatten bs) = true ↔ ∃ fs : List Field,
    bs = fs.map .real ∧ ∀ before f, before ++ [f] <+: fs → needs f.id ≠ [] →
      ∃ n ∈ needs f.id, ∃ g ∈ before, g.id = n.id ∧ n.accepts g.value = true := by
  rw [validate_iff, checkItems_iff (sized_flatten bs), legal_flatten_iff, ← exists_and_right]
  refine exists_congr fun fs => and_congr_right fun same => ?_
  rw [same, flatten_map_real]
  constructor
  · intro met before f place some
    have listed : before.map Field.item ++ [f.item] <+: fs.map Field.item := by
      simpa using place.map Field.item
    rw [← anyMet_fields_iff]
    exact met _ _ listed f.id (known_item_iff.mpr rfl) (mt (prerequisites_eq_nil_iff _).mp some)
  · intro met front item place id known some
    obtain ⟨behind, split⟩ := place
    obtain ⟨upTo, later, rfl, start, -⟩ := List.map_eq_append_iff.mp split.symm
    obtain ⟨before, last, rfl, rfl, own⟩ := List.map_eq_append_iff.mp start
    obtain ⟨f, rfl, rfl⟩ := List.map_eq_singleton_iff.mp own
    obtain rfl := known_item_iff.mp known
    exact anyMet_fields_iff.mpr
      (met before f ⟨later, rfl⟩ (mt (prerequisites_eq_nil_iff _).mpr some))

end

end Libofp.Match.BlockSteps
