/- GID: Libofp/Match/Blocks
   digest: The list of a match builder as a sequence of fields, open needs and poison. -/

import Libofp.Match.Needs

set_option autoImplicit false

namespace Libofp.Match.Blocks

open Octets.ByteRange Oxm.Range Oxm.FieldTable
open Oxm.Prerequisites Oxm.PrerequisiteCheck Builder Needs

inductive Block where
  | real (field : Field)
  | pending (need : Need)
  | poison
  deriving DecidableEq, Repr

def overlaps : Need → Need → Bool
  | .oneOf c, n => c.values.any n.accepts
  | .under m, .oneOf c =>
    m.mask == List.replicate m.id.size 0xFF && c.values.contains m.value
  | .under m, .under n =>
    Need.accepts (.under n) (List.zipWith (· &&& ·) m.value m.mask)

namespace Block

def id? : Block → Option InternalId
  | real f => some f.id
  | pending n => some n.id
  | poison => none

def items : Block → List Item
  | real f => [f.item]
  | pending (.oneOf c) => signal kValuePrereqSignal :: (Need.oneOf c).items
  | pending (.under m) => signal kMaskedPrereqSignal :: (Need.under m).items
  | poison => [signal kPoisonPrereqSignal]

def meets (n : Need) : Block → Bool
  | real f => f.id == n.id && n.accepts f.value
  | pending p => p.id == n.id && overlaps p n
  | poison => false

end Block

def flatten (bs : List Block) : List Item := bs.flatMap Block.items

def fields (bs : List Block) : List InternalId := bs.filterMap Block.id?

/-- A need that nothing meets becomes a field when one value is possible, else a
placeholder; a second value for a field is poison. -/
def insertNeed (bs : List Block) (n : Need) : List Block :=
  if bs.any (·.meets n) then bs
  else
    match n with
    | .oneOf c =>
      if c.others ≠ [] then bs ++ [.pending n]
      else if n.id ∈ fields bs then bs ++ [.poison]
      else bs ++ [.real c.field]
    | .under _ => bs ++ [.pending n]

/-- Poison goes before a later value of the field. The blocks are left alone when the field
has placeholders there. -/
def poisonLater (id : InternalId) : List Block → Option (List Block)
  | [] => some []
  | .real f :: bs =>
    if f.id = id then some (.poison :: .real f :: bs)
    else (poisonLater id bs).map (.real f :: ·)
  | .pending (.oneOf c) :: bs =>
    if c.id = id then none else (poisonLater id bs).map (.pending (.oneOf c) :: ·)
  | b :: bs => (poisonLater id bs).map (b :: ·)

/-- The field takes the place of placeholders that accept it. `some none` means that the list
says nothing about the field; `none` that the placeholders of the field refuse the value or
that more of the field is behind them. -/
def place (f : Field) : List Block → Option (Option (List Block))
  | [] => some none
  | .real g :: bs =>
    if g.id = f.id then
      some (some (if g.value = f.value then .real g :: bs else .poison :: .real g :: bs))
    else (place f bs).map (Option.map (.real g :: ·))
  | .pending (.oneOf c) :: bs =>
    if c.id = f.id then
      if Need.accepts (.oneOf c) f.value ∧ f.id ∉ fields bs then some (some (.real f :: bs))
      else none
    else (place f bs).map (Option.map (.pending (.oneOf c) :: ·))
  | .pending (.under m) :: bs =>
    if m.id = f.id ∧ Need.accepts (.under m) f.value then
      (poisonLater f.id bs).map fun bs => some (.real f :: bs)
    else (place f bs).map (Option.map (.pending (.under m) :: ·))
  | .poison :: bs => (place f bs).map (Option.map (.poison :: ·))

/-- `add`, as far as the placeholders of the field do not refuse it. -/
def addField (bs : List Block) (f : Field) : Option (List Block) :=
  let bs := (needs f.id).foldl insertNeed bs
  (place f bs).map fun placed => placed.getD (bs ++ [.real f])

section

variable {id : InternalId} {n : Need} {bs : List Block}

theorem signal_ne_type (id : InternalId) : kMaskedPrereqSignal ≠ id.type ∧
    kValuePrereqSignal ≠ id.type ∧ kPoisonPrereqSignal ≠ id.type := by
  cases id <;> decide

theorem signal_ne_typeWithMask (id : InternalId) : kMaskedPrereqSignal ≠ id.typeWithMask ∧
    kValuePrereqSignal ≠ id.typeWithMask ∧ kPoisonPrereqSignal ≠ id.typeWithMask := by
  cases id <;> decide

theorem sized_field (f : Field) : Sized f.item := by
  rw [Sized, Field.item, f.sized, length_type]

theorem sized_need (n : Need) : ∀ item ∈ n.items, Sized item := by
  cases n with
  | oneOf c =>
    intro item member
    obtain ⟨value, listed, rfl⟩ := List.mem_map.mp member
    rw [Sized, c.sized value listed, length_type]
  | under m =>
    intro item member
    obtain rfl := List.mem_singleton.mp member
    rw [Sized, List.length_append, m.sizedValue, m.sizedMask, length_typeWithMask, Nat.two_mul]

theorem sized_flatten (bs : List Block) : ∀ item ∈ flatten bs, Sized item := by
  intro item member
  obtain ⟨b, -, inside⟩ := List.mem_flatMap.mp member
  cases b with
  | real f =>
    obtain rfl := List.mem_singleton.mp inside
    exact sized_field f
  | pending n =>
    cases n with
    | oneOf c =>
      rcases List.mem_cons.mp inside with rfl | later
      · rfl
      · exact sized_need _ item later
    | under m =>
      rcases List.mem_cons.mp inside with rfl | later
      · rfl
      · exact sized_need _ item later
  | poison =>
    obtain rfl := List.mem_singleton.mp inside
    rfl

end

section

variable {id : InternalId} {n : Need} {item : Item}

private theorem meets_value_iff {value : Bytes} : Meets item ⟨id.type, value⟩ ↔
    item.type = id.type ∧ item.payload = value ∨
      item.type = id.typeWithMask ∧ item.payload = value ++ List.replicate value.length 0xFF := by
  simp [Meets, hasMask_type, withMask_type]

private theorem meets_mask_iff (m : Masking) : Meets item ⟨m.id.typeWithMask, m.value ++ m.mask⟩ ↔
    item.type = m.id.type ∧ List.zipWith (· &&& ·) item.payload m.mask = m.value ∨
      item.type = m.id.typeWithMask ∧
        List.zipWith (· &&& ·) (List.zipWith (· &&& ·) (item.payload.take m.id.size)
          (item.payload.drop m.id.size)) m.mask = m.value := by
  simp [Meets, hasMask_typeWithMask, withoutMask_typeWithMask, length_type, ← m.sizedValue]

def MetBy (n : Need) (item : Item) : Prop := ∃ preq ∈ n.items, Meets item preq

theorem metBy_oneOf_iff {c : Choice} : MetBy (.oneOf c) item ↔
    item.type = c.id.type ∧ item.payload ∈ c.values ∨
      item.type = c.id.typeWithMask ∧
        ∃ value ∈ c.values, item.payload = value ++ List.replicate value.length 0xFF := by
  simp only [MetBy, Need.items, List.mem_map, exists_exists_and_eq_and, meets_value_iff]
  constructor
  · rintro ⟨value, listed, ⟨type, rfl⟩ | ⟨type, payload⟩⟩
    · exact .inl ⟨type, listed⟩
    · exact .inr ⟨type, value, listed, payload⟩
  · rintro (⟨type, listed⟩ | ⟨type, value, listed, payload⟩)
    · exact ⟨_, listed, .inl ⟨type, rfl⟩⟩
    · exact ⟨value, listed, .inr ⟨type, payload⟩⟩

theorem metBy_under_iff {m : Masking} : MetBy (.under m) item ↔
    item.type = m.id.type ∧ List.zipWith (· &&& ·) item.payload m.mask = m.value ∨
      item.type = m.id.typeWithMask ∧
        List.zipWith (· &&& ·) (List.zipWith (· &&& ·) (item.payload.take m.id.size)
          (item.payload.drop m.id.size)) m.mask = m.value := by
  simp [MetBy, Need.items, meets_mask_iff]

private theorem type_of_metBy (met : MetBy n item) :
    item.type = n.id.type ∨ item.type = n.id.typeWithMask := by
  cases n with
  | oneOf c => exact (metBy_oneOf_iff.mp met).imp And.left And.left
  | under m => exact (metBy_under_iff.mp met).imp And.left And.left

theorem not_metBy_signal {type : Nat} (reserved : type = kMaskedPrereqSignal ∨
    type = kValuePrereqSignal ∨ type = kPoisonPrereqSignal) : ¬ MetBy n (signal type) := by
  intro met
  have bare := signal_ne_type n.id
  have masked := signal_ne_typeWithMask n.id
  have type := type_of_metBy met
  rw [signal] at type
  grind

theorem metBy_value_iff {value : Bytes} : MetBy n ⟨id.type, value⟩ ↔
    id = n.id ∧ n.accepts value = true := by
  have bare := type_ne_typeWithMask id n.id
  cases n with
  | oneOf c =>
    rw [metBy_oneOf_iff]
    simp only [Need.id] at bare ⊢
    simp [type_inj c.regular, bare, Need.accepts]
  | under m =>
    rw [metBy_under_iff]
    simp only [Need.id] at bare ⊢
    simp [type_inj m.regular, bare, Need.accepts]

private theorem metBy_masking_iff {m : Masking} : MetBy n ⟨m.id.typeWithMask, m.value ++ m.mask⟩ ↔
    m.id = n.id ∧ overlaps (.under m) n = true := by
  have bare : ¬ m.id.typeWithMask = n.id.type := fun same => type_ne_typeWithMask _ _ same.symm
  cases n with
  | oneOf c =>
    rw [metBy_oneOf_iff, typeWithMask_inj c.regular]
    simp only [Need.id] at bare ⊢
    simp only [bare, false_and, false_or]
    refine and_congr_right fun same => ?_
    simp only [overlaps, Bool.and_eq_true, beq_iff_eq, List.contains_iff_mem]
    constructor
    · rintro ⟨value, listed, payload⟩
      have length : m.value.length = value.length := by
        rw [m.sizedValue, c.sized value listed, same]
      obtain ⟨rfl, ones⟩ := List.append_inj payload length
      rw [ones, m.sizedValue]
      exact ⟨rfl, listed⟩
    · rintro ⟨ones, listed⟩
      exact ⟨m.value, listed, by rw [ones, m.sizedValue]⟩
  | under k =>
    rw [metBy_under_iff, typeWithMask_inj k.regular]
    simp only [Need.id] at bare ⊢
    simp only [bare, false_and, false_or]
    refine and_congr_right fun same => ?_
    rw [← same, ← m.sizedValue, List.take_left, List.drop_left]
    simp [overlaps, Need.accepts]

private theorem metBy_items_iff (b : Block) :
    (∃ item ∈ b.items, MetBy n item) ↔ b.meets n = true := by
  cases b with
  | real f =>
    simp [Block.items, Field.item, metBy_value_iff, Block.meets]
  | pending p =>
    cases p with
    | oneOf c =>
      simp only [Block.items, List.mem_cons, exists_eq_or_imp, not_metBy_signal, or_true, true_or,
        false_or, Need.items, List.mem_map, exists_exists_and_eq_and, metBy_value_iff,
        Block.meets, overlaps, Bool.and_eq_true, beq_iff_eq, List.any_eq_true, Need.id]
      constructor
      · rintro ⟨v, listed, same, met⟩
        exact ⟨same, v, listed, met⟩
      · rintro ⟨same, v, listed, met⟩
        exact ⟨v, listed, same, met⟩
    | under m =>
      simp only [Block.items, List.mem_cons, exists_eq_or_imp, not_metBy_signal, true_or,
        false_or, Need.items, List.not_mem_nil, or_false, exists_eq_left, metBy_masking_iff,
        Block.meets, Bool.and_eq_true, beq_iff_eq, Need.id]
  | poison =>
    simp only [Block.items, List.mem_singleton, exists_eq_left, not_metBy_signal, or_true,
      Block.meets, Bool.false_eq_true]

theorem metBy_flatten_iff (bs : List Block) :
    (∃ item ∈ flatten bs, MetBy n item) ↔ bs.any (·.meets n) = true := by
  simp only [List.any_eq_true, ← metBy_items_iff, flatten, List.mem_flatMap]
  exact ⟨fun ⟨item, ⟨b, member, inside⟩, met⟩ => ⟨b, member, item, inside, met⟩,
    fun ⟨b, member, item, inside, met⟩ => ⟨item, ⟨b, member, inside⟩, met⟩⟩

end

section

variable {n : Need} {bs : List Block} {rest : List Item}

def needType : Need → Nat
  | .oneOf c => c.id.type
  | .under m => m.id.typeWithMask

theorem type_of_mem_items {preq : Item} (member : preq ∈ n.items) : preq.type = needType n := by
  cases n with
  | oneOf c =>
    obtain ⟨value, -, rfl⟩ := List.mem_map.mp member
    rfl
  | under m =>
    obtain rfl := List.mem_singleton.mp member
    rfl

theorem needType_ne {n n' : Need} (other : n'.id ≠ n.id) : needType n' ≠ needType n := by
  cases n with
  | oneOf c =>
    cases n' with
    | oneOf c' => exact fun same => other ((type_inj c.regular).mp same)
    | under m' => exact fun same => type_ne_typeWithMask _ _ same.symm
  | under m =>
    cases n' with
    | oneOf c' => exact type_ne_typeWithMask _ _
    | under m' => exact fun same => other ((typeWithMask_inj m.regular).mp same)

def Apart (n : Need) (rest : List Item) : Prop := ∀ preq ∈ rest.head?, preq.type ≠ needType n

theorem front_append {items : List Item} {type : Nat} (own : ∀ preq ∈ items, preq.type = type)
    (apart : ∀ preq ∈ rest.head?, preq.type ≠ type) : front type (items ++ rest) = items := by
  rw [front, List.takeWhile_append_of_pos (by simpa using own)]
  cases rest with
  | nil => simp
  | cons preq rest =>
    have other : preq.type ≠ type := apart preq rfl
    simp [other]

theorem dropWhile_append {items : List Item} {type : Nat} (own : ∀ preq ∈ items, preq.type = type)
    (apart : ∀ preq ∈ rest.head?, preq.type ≠ type) :
    (items ++ rest).dropWhile (fun preq => preq.type == type) = rest := by
  rw [List.dropWhile_append_of_pos (by simpa using own)]
  cases rest with
  | nil => rfl
  | cons preq rest =>
    have other : preq.type ≠ type := apart preq rfl
    simp [other]

theorem size_le (id : InternalId) : id.size ≤ 68 := by
  cases id <;> decide

private theorem checkPreqValue_choice (c : Choice) (apart : Apart (.oneOf c) rest) :
    checkPreqValue c.id.type ((Need.oneOf c).items ++ rest) (flatten bs) =
      bs.any (·.meets (.oneOf c)) := by
  have own : ∀ preq ∈ (Need.oneOf c).items, preq.type = c.id.type :=
    fun preq member => type_of_mem_items member
  rw [Bool.eq_iff_iff, ← metBy_flatten_iff, checkPreqValue, front_append own apart,
    List.any_eq_true]
  refine exists_congr fun item => and_congr_right fun member => ?_
  rw [List.any_eq_true]
  refine exists_congr fun preq => and_congr_right fun listed => ?_
  have small := size_le c.id
  rw [← own preq listed]
  refine matchPreqValue_iff (sized_flatten bs item member) (sized_need _ preq listed) ?_ ?_ ?_
  · rw [own preq listed, hasMask_type]
  · rw [own preq listed, length_type]
    omega
  · rw [own preq listed, isExperimenter_type, c.regular]

private theorem checkPreqMasked_masking (m : Masking) :
    checkPreqMasked ⟨m.id.typeWithMask, m.value ++ m.mask⟩ (flatten bs) =
      bs.any (·.meets (.under m)) := by
  rw [Bool.eq_iff_iff, ← metBy_flatten_iff, checkPreqMasked_iff (sized_flatten bs)
    (sized_need (.under m) _ List.mem_cons_self) (hasMask_typeWithMask _)
    (by rw [length_typeWithMask]; omega)]
  simp [MetBy, Need.items]

theorem type_items_iff {id : InternalId} (regular : id.isExperimenter = false) (b : Block) :
    (∃ item ∈ b.items, item.type = id.type ∨ item.type = id.typeWithMask) ↔
      b.id? = some id := by
  have bare := signal_ne_type id
  have masked := signal_ne_typeWithMask id
  cases b with
  | real f =>
    simp [Block.items, Field.item, Block.id?, type_inj regular, type_ne_typeWithMask]
  | pending n =>
    cases n with
    | oneOf c =>
      simp [Block.items, Need.items, signal, bare, masked, Block.id?, Need.id, type_inj regular,
        type_ne_typeWithMask, Choice.values]
    | under m =>
      have other : ¬ m.id.typeWithMask = id.type := fun same => type_ne_typeWithMask _ _ same.symm
      simp [Block.items, Need.items, signal, bare, masked, Block.id?, Need.id,
        typeWithMask_inj regular, other]
  | poison => simp [Block.items, signal, bare, masked, Block.id?]

private theorem conflict_iff {id : InternalId} (regular : id.isExperimenter = false) :
    conflict id.type (flatten bs) = true ↔ id ∈ fields bs := by
  rw [conflict, List.any_eq_true, fields, List.mem_filterMap]
  simp only [← type_items_iff regular, Bool.or_eq_true, beq_iff_eq, withMask_type, flatten,
    List.mem_flatMap]
  exact ⟨fun ⟨item, ⟨b, member, inside⟩, type⟩ => ⟨b, member, item, inside, type⟩,
    fun ⟨b, member, item, inside, type⟩ => ⟨item, ⟨b, member, inside⟩, type⟩⟩

private theorem insertPreqValue_choice (c : Choice) (apart : Apart (.oneOf c) rest) :
    insertPreqValue ⟨c.id.type, c.first⟩ (c.others.map (fun value => ⟨c.id.type, value⟩) ++ rest)
      (flatten bs) = flatten (insertNeed bs (.oneOf c)) := by
  have own : ∀ preq ∈ c.others.map (fun value => (⟨c.id.type, value⟩ : Item)),
      preq.type = c.id.type := by
    simp
  have whole : (⟨c.id.type, c.first⟩ : Item) ::
      (c.others.map (fun value => ⟨c.id.type, value⟩) ++ rest) = (Need.oneOf c).items ++ rest := rfl
  rw [insertPreqValue, whole, checkPreqValue_choice c apart, front_append own apart, insertNeed]
  split
  · rfl
  · simp only [ne_eq, List.map_eq_nil_iff, Need.id, conflict_iff c.regular]
    split
    · simp [flatten, Block.items, Need.items, Choice.values]
    · split
      · next taken => simp [flatten, Block.items, taken]
      · next free => simp [flatten, Block.items, Field.item, Choice.field, free]

private theorem insertPreqMasked_masking (m : Masking) :
    insertPreqMasked ⟨m.id.typeWithMask, m.value ++ m.mask⟩ (flatten bs) =
      flatten (insertNeed bs (.under m)) := by
  rw [insertPreqMasked, checkPreqMasked_masking, insertNeed]
  split
  · rfl
  · simp [flatten, Block.items, Need.items]

private theorem length_advancePreq (type : Nat) (preqs : List Item) :
    (advancePreq type preqs).length ≤ preqs.length - 1 := by
  rw [← List.length_tail]
  exact (List.dropWhile_suffix _).length_le

private theorem insertLoop_turns {turns turns' : Nat} {preqs list : List Item}
    (enough : preqs.length ≤ turns) (enough' : preqs.length ≤ turns') :
    insertLoop turns preqs list = insertLoop turns' preqs list := by
  induction turns generalizing turns' preqs list with
  | zero =>
    obtain rfl := List.length_eq_zero_iff.mp (Nat.le_zero.mp enough)
    cases turns' <;> rfl
  | succ turns ih =>
    cases preqs with
    | nil => cases turns' <;> rfl
    | cons preq preqs =>
      cases turns' with
      | zero => cases enough'
      | succ turns' =>
        have shorter := length_advancePreq preq.type (preq :: preqs)
        exact ih (by omega) (by omega)

private theorem insertAll_append (n : Need) (apart : Apart n rest) :
    insertAll (flatten bs) (n.items ++ rest) = insertAll (flatten (insertNeed bs n)) rest := by
  cases n with
  | oneOf c =>
    have own : ∀ preq ∈ c.others.map (fun value => (⟨c.id.type, value⟩ : Item)),
        preq.type = c.id.type := by
      simp
    have behind : advancePreq c.id.type ((Need.oneOf c).items ++ rest) = rest :=
      dropWhile_append own apart
    have first : insertAll (flatten bs) ((Need.oneOf c).items ++ rest) =
        insertLoop (c.others.map (fun value => (⟨c.id.type, value⟩ : Item)) ++ rest).length
          (advancePreq c.id.type ((Need.oneOf c).items ++ rest))
          (insertPreqValue ⟨c.id.type, c.first⟩
            (c.others.map (fun value => ⟨c.id.type, value⟩) ++ rest) (flatten bs)) := by
      simp [insertAll, Need.items, Choice.values, insertLoop, hasMask_type]
    rw [first, behind, insertPreqValue_choice c apart, insertAll]
    exact insertLoop_turns (by simp) (Nat.le_refl _)
  | under m =>
    have none : ∀ preq ∈ ([] : List Item), preq.type = m.id.typeWithMask := by
      simp
    have behind : advancePreq m.id.typeWithMask ((Need.under m).items ++ rest) = rest :=
      dropWhile_append none apart
    have first : insertAll (flatten bs) ((Need.under m).items ++ rest) =
        insertLoop rest.length (advancePreq m.id.typeWithMask ((Need.under m).items ++ rest))
          (insertPreqMasked ⟨m.id.typeWithMask, m.value ++ m.mask⟩ (flatten bs)) := by
      simp [insertAll, Need.items, insertLoop, hasMask_typeWithMask]
    rw [first, behind, insertPreqMasked_masking, insertAll]

private theorem insertAll_needs {ns : List Need} (distinct : (ns.map Need.id).Nodup) :
    insertAll (flatten bs) (ns.flatMap Need.items) = flatten (ns.foldl insertNeed bs) := by
  induction ns generalizing bs with
  | nil => rfl
  | cons n ns ih =>
    rw [List.map_cons, List.nodup_cons] at distinct
    have apart : Apart n (ns.flatMap Need.items) := by
      intro preq first
      have member := List.mem_of_mem_head? first
      obtain ⟨n', listed, inside⟩ := List.mem_flatMap.mp member
      rw [type_of_mem_items inside]
      apply needType_ne
      intro same
      exact distinct.1 (List.mem_map.mpr ⟨n', listed, same⟩)
    rw [List.flatMap_cons, insertAll_append n apart, ih distinct.2, List.foldl_cons]

theorem insertAll_prerequisites (id : InternalId) :
    insertAll (flatten bs) id.prerequisites = flatten ((needs id).foldl insertNeed bs) := by
  rw [prerequisites_eq, insertAll_needs (nodup_needs id)]

end

end Libofp.Match.Blocks
