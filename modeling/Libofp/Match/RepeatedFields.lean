/- GID: Libofp/Match/RepeatedFields
   digest: When the fields of a match builder that validates are all different, with values
     added plainly or under a mask. -/

import Libofp.Base.GuardedScan
import Libofp.Match.BlockSteps
import Libofp.Oxm.DuplicateFields
import Mathlib.Data.List.Chain

set_option autoImplicit false

namespace Libofp.Match.RepeatedFields

open Octets.ByteRange Oxm.Range Oxm.FieldTable Oxm.Prerequisites
open Oxm.PrerequisiteCheck Oxm.DuplicateFields Base.GuardedScan
open Builder Needs Blocks BlockSteps

/-- What `list_.add(value, mask)` appends: the value under the mask, and the mask. -/
def maskedItem (m : Masking) : Item :=
  ⟨m.id.typeWithMask, List.zipWith (· &&& ·) m.value m.mask ++ m.mask⟩

/-- `MatchBuilder::add(value, mask)`. The `substitute` for a value with a mask does nothing
and returns false. -/
def addMasked (list : List Item) (m : Masking) : List Item :=
  insertAll list m.id.prerequisites ++ [maskedItem m]

/-- A call of one of the two `add` functions. -/
inductive Addition where
  | plain (field : Field)
  | masked (field : Masking)
  deriving DecidableEq, Repr

namespace Addition

def id : Addition → InternalId
  | plain f => f.id
  | masked m => m.id

def run (list : List Item) : Addition → Option (List Item)
  | plain f => add list f
  | masked m => some (addMasked list m)

def Concerns (a : Addition) (id : InternalId) : Prop := a.id = id ∨ ∃ n ∈ needs a.id, n.id = id

end Addition

def buildAll (adds : List Addition) : Option (List Item) := adds.foldlM Addition.run []

def Distinct (list : List Item) : Prop := list.Pairwise fun a b => ¬ SameNumber a b

/-- A field that is added under a mask is added once, and before it no field is added that
has it as a prerequisite. -/
def MasksApart (adds : List Addition) : Prop :=
  ∀ before m behind, adds = before ++ .masked m :: behind →
    (∀ a ∈ behind, a.id ≠ m.id) ∧ ∀ a ∈ before, ¬ a.Concerns m.id

def signals : Marks Item where
  opens x := x.type == kValuePrereqSignal || x.type == kMaskedPrereqSignal
  closes x := x.type == kPoisonPrereqSignal

variable {x : Item}

theorem isMark_iff : signals.isMark x = true ↔ x.type = kValuePrereqSignal ∨
    x.type = kMaskedPrereqSignal ∨ x.type = kPoisonPrereqSignal := by
  simp [Marks.isMark, signals, or_assoc]

theorem isMark_type (id : InternalId)
    (own : x.type = id.type ∨ x.type = id.typeWithMask) : signals.isMark x = false := by
  have bare := signal_ne_type id
  have masked := signal_ne_typeWithMask id
  rw [Bool.eq_false_iff, ne_eq, isMark_iff]
  grind

theorem closes_of_opens {mark : Item} (opens : signals.opens mark = true) :
    signals.closes mark = false := by
  rcases Bool.or_eq_true_iff.mp opens with type | type <;>
    · simp only [signals, eq_of_beq type]
      decide

theorem isMark_of_value {value : Bytes} (some : value ≠ [])
    (sized : ¬ (value.length ≠ OXMType.length x.type ∧ x.experimenter = 0)) :
    signals.isMark x = false := by
  rw [Bool.eq_false_iff, ne_eq, isMark_iff]
  intro signal
  have length : OXMType.length x.type = 0 := by
    rcases signal with type | type | type <;> rw [type] <;> decide
  have foreign : OXMType.isExperimenter x.type = false := by
    rcases signal with type | type | type <;> rw [type] <;> decide
  refine sized ⟨?_, ?_⟩
  · rw [length]
    exact fun empty => some (List.length_eq_zero_iff.mp empty)
  · simp [Item.experimenter, Item.isExperimenter, foreign]

private theorem illegal_of_isMark (mark : signals.isMark x = true) :
    OXMType.isIllegal x.type = true := by
  rcases isMark_iff.mp mark with type | type | type <;> rw [type] <;> decide

section

variable {type : Nat} {value : Bytes}

inductive Substituted (type : Nat) (value : Bytes) : List Item → Substitution → Prop
  | absent {list : List Item} (fresh : ∀ x ∈ list, x.type ≠ type) :
      Substituted type value list .absent
  | refused {front behind : List Item} {mark p : Item} (fresh : ∀ x ∈ front, x.type ≠ type)
      (opens : signals.opens mark = true) (own : p.type = type) :
      Substituted type value (front ++ mark :: p :: behind) .absent
  | same (list : List Item) : Substituted type value list (.done list)
  | poisoned {item : Item} (front behind : List Item) (own : item.type = type) :
      Substituted type value (front ++ item :: behind)
        (.done (front ++ signal kPoisonPrereqSignal :: item :: behind))
  | replaced {front more behind : List Item} {mark p : Item} (fresh : ∀ x ∈ front, x.type ≠ type)
      (opens : signals.opens mark = true) (own : OXMType.withoutMask p.type = type)
      (unmarked : ∀ x ∈ p :: more, signals.isMark x = false) :
      Substituted type value (front ++ mark :: (p :: more ++ behind))
        (.done (front ++ ⟨type, value⟩ :: poisonDuplicates type behind))

theorem Substituted.behind {item : Item} {list : List Item} {r : Substitution}
    (done : Substituted type value list r) (other : item.type ≠ type) :
    Substituted type value (item :: list) (r.behind item) := by
  cases done with
  | absent fresh => exact .absent (List.forall_mem_cons.mpr ⟨other, fresh⟩)
  | @refused front behind mark p fresh opens own =>
    exact @refused type value (item :: front) behind mark p
      (List.forall_mem_cons.mpr ⟨other, fresh⟩) opens own
  | same list => exact .same _
  | poisoned front behind own => exact .poisoned (item :: front) behind own
  | @replaced front more behind mark p fresh opens own unmarked =>
    exact @replaced type value (item :: front) more behind mark p
      (List.forall_mem_cons.mpr ⟨other, fresh⟩) opens own unmarked

private theorem substituteValue_cases (filled : value ≠ [])
    (bare : ∀ x : Item, x.type = type → signals.isMark x = false) {p : Item} {rest : List Item}
    {r : Option (List Item)} (done : substituteValue type value (p :: rest) = some r) :
    r = none ∨ ∃ more behind, rest = more ++ behind ∧
      (∀ x ∈ p :: more, signals.isMark x = false) ∧
      r = some (⟨type, value⟩ :: poisonDuplicates type behind) := by
  induction rest generalizing p with
  | nil =>
    rw [substituteValue] at done
    split at done
    · cases done
    · next sized =>
      split at done
      · cases done
        exact .inr ⟨[], [], rfl, by simpa using isMark_of_value filled sized, rfl⟩
      · cases done
        exact .inl rfl
  | cons q rest ih =>
    rw [substituteValue] at done
    split at done
    · cases done
    · next sized =>
      have first := isMark_of_value filled sized
      split at done
      · cases done
        refine .inr ⟨(q :: rest).takeWhile (·.type == type), _,
          List.takeWhile_append_dropWhile.symm, ?_, rfl⟩
        rw [List.forall_mem_cons]
        refine ⟨first, fun x passed => bare x ?_⟩
        simpa using List.mem_takeWhile_imp passed
      · rcases ih done with none | ⟨more, behind, rfl, unmarked, replaced⟩
        · exact .inl none
        · exact .inr ⟨q :: more, behind, rfl, List.forall_mem_cons.mpr ⟨first, unmarked⟩, replaced⟩

theorem opens_of_value {item : Item} (type : item.type = kValuePrereqSignal) :
    signals.opens item = true := by
  simp [signals, type]

private theorem opens_of_masked {item : Item} (type : item.type = kMaskedPrereqSignal) :
    signals.opens item = true := by
  simp [signals, type]

private theorem substituteLoop_cases (filled : value ≠ [])
    (bare : ∀ x : Item, x.type = type ∨ OXMType.withoutMask x.type = type →
      signals.isMark x = false) (plain : OXMType.hasMask type = false) {list : List Item}
    {r : Substitution} (done : substituteLoop type value list = some r) :
    Substituted type value list r := by
  have masked {x : Item} (mask : ¬¬ OXMType.hasMask x.type = true) : x.type ≠ type := by
    rintro rfl
    rw [plain] at mask
    exact mask Bool.false_ne_true
  fun_induction substituteLoop type value list generalizing r with
  | case1 =>
    cases done
    exact .absent (by simp)
  | case2 item rest own matched =>
    cases done
    exact .same _
  | case3 item rest own unmatched =>
    cases done
    exact .poisoned [] rest own
  | case4 item other mark =>
    cases done
    exact .absent (by simpa using other)
  | case5 item other mark p rest unmasked => cases done
  | case6 item other mark p rest mask own size => cases done
  | case7 item other mark p rest mask own size matched =>
    cases done
    refine @Substituted.replaced type value [] [] rest item p (by simp) (opens_of_masked mark)
      own ?_
    simpa using bare p (.inr own)
  | case8 item other mark p rest mask own size unmatched ih =>
    obtain ⟨r', found, rfl⟩ := Option.map_eq_some_iff.mp done
    exact ((ih found).behind (masked mask)).behind other
  | case9 item other mark p rest mask foreign ih =>
    obtain ⟨r', found, rfl⟩ := Option.map_eq_some_iff.mp done
    exact ((ih found).behind (masked mask)).behind other
  | case10 item other mark unmasked =>
    cases done
    exact .absent (by simpa using other)
  | case11 item other mark value p rest mask => cases done
  | case12 item other mask mark p rest unmasked own =>
    obtain ⟨r', found, rfl⟩ := Option.map_eq_some_iff.mp done
    have field : OXMType.withoutMask p.type = type := by
      rw [OXMType.withoutMask, if_neg unmasked, own]
    rcases substituteValue_cases filled (fun x same => bare x (.inl same)) found with
      rfl | ⟨more, behind, rfl, unmarked, rfl⟩
    · exact @Substituted.refused type value [] rest item p (by simp) (opens_of_value mark) own
    · exact @Substituted.replaced type value [] more behind item p (by simp) (opens_of_value mark)
        field unmarked
  | case13 item other mask mark p rest unmasked foreign ih =>
    obtain ⟨r', found, rfl⟩ := Option.map_eq_some_iff.mp done
    exact (ih found).behind other
  | case14 item rest other mask mark ih =>
    obtain ⟨r', found, rfl⟩ := Option.map_eq_some_iff.mp done
    exact (ih found).behind other

end

section

variable {masked : List InternalId} {allowed : InternalId → Prop} {list : List Item}

/-- The items that count as a field; those with a mask do when the field is added under one. -/
def ownOf (masked : List InternalId) (id : InternalId) (x : Item) : Bool :=
  x.type == id.type || (masked.contains id && x.type == id.typeWithMask)

def LedBy (masked : List InternalId) (a b : Item) : Prop :=
  ∀ id : InternalId, id ∉ masked → b.type = id.typeWithMask → a.type = kMaskedPrereqSignal

def FieldItem (allowed : InternalId → Prop) (x : Item) : Prop :=
  Sized x ∧ ∃ id : InternalId, id.isExperimenter = false ∧ allowed id ∧
    (x.type = id.type ∨ x.type = id.typeWithMask)

theorem FieldItem.unmarked {x : Item} (field : FieldItem allowed x) :
    signals.isMark x = false := by
  obtain ⟨-, id, -, -, type⟩ := field
  exact isMark_type id type

/-- The list of a builder: items of allowed fields and signals, each field found once before
its first signal. -/
structure Tidy (masked : List InternalId) (allowed : InternalId → Prop) (list : List Item) :
    Prop where
  sourced : ∀ x ∈ list, (Sized x ∧ signals.isMark x = true) ∨ FieldItem allowed x
  led : List.IsChain (LedBy masked) (signal kPoisonPrereqSignal :: list)
  safe : ∀ id : InternalId, id.isExperimenter = false →
    signals.Safe (ownOf masked id) (.scanning false false) list

variable {id : InternalId}

theorem ownOf_iff {x : Item} : ownOf masked id x = true ↔
    x.type = id.type ∨ id ∈ masked ∧ x.type = id.typeWithMask := by
  simp [ownOf]

theorem id_of_ownOf {id' : InternalId} (regular : id.isExperimenter = false) {x : Item}
    (own : ownOf masked id x = true) (type : x.type = id'.type ∨ x.type = id'.typeWithMask) :
    id' = id := by
  rcases ownOf_iff.mp own with bare | ⟨-, mask⟩
  · rcases type with bare' | mask'
    · exact (type_inj regular).mp (bare'.symm.trans bare)
    · exact absurd (bare.symm.trans mask') (type_ne_typeWithMask _ _)
  · rcases type with bare' | mask'
    · exact absurd (bare'.symm.trans mask) (type_ne_typeWithMask _ _)
    · exact (typeWithMask_inj regular).mp (mask'.symm.trans mask)

theorem ledBy_value (a : Item) {b : Item} (type : b.type = id.type) :
    LedBy masked a b := by
  intro other _ mask
  exact absurd (type.symm.trans mask) (type_ne_typeWithMask _ _)

theorem ledBy_mark (a : Item) {b : Item} (mark : signals.isMark b = true) : LedBy masked a b := by
  intro other _ mask
  rw [isMark_type other (.inr mask)] at mark
  cases mark

private theorem isChain_values (a : Item) {xs : List Item}
    (bare : ∀ x ∈ xs, ∃ id : InternalId, x.type = id.type) :
    List.IsChain (LedBy masked) (a :: xs) := by
  induction xs generalizing a with
  | nil => exact .singleton a
  | cons x xs ih =>
    rw [List.forall_mem_cons] at bare
    obtain ⟨⟨id, type⟩, rest⟩ := bare
    exact List.isChain_cons_cons.mpr ⟨ledBy_value a type, ih x rest⟩

theorem isMark_signal : signals.isMark (signal kPoisonPrereqSignal) = true ∧
    signals.isMark (signal kValuePrereqSignal) = true ∧
    signals.isMark (signal kMaskedPrereqSignal) = true := by decide

theorem Tidy.weaken {allowed' : InternalId → Prop} (tidy : Tidy masked allowed list)
    (more : ∀ id, allowed id → allowed' id) : Tidy masked allowed' list := by
  refine ⟨fun x member => ?_, tidy.led, tidy.safe⟩
  rcases tidy.sourced x member with mark | ⟨sized, id, regular, fine, type⟩
  · exact .inl mark
  · exact .inr ⟨sized, id, regular, more id fine, type⟩

private theorem tidy_nil : Tidy masked allowed [] where
  sourced := nofun
  led := .singleton _
  safe := by simp [Marks.Safe]

section

variable (tidy : Tidy masked allowed list)

include tidy

theorem Tidy.append {block : List Item}
    (sourced : ∀ x ∈ block, (Sized x ∧ signals.isMark x = true) ∨ FieldItem allowed x)
    (led : ∀ a, List.IsChain (LedBy masked) (a :: block))
    (safe : ∀ id : InternalId, id.isExperimenter = false →
      signals.Safe (ownOf masked id) (signals.scan (ownOf masked id) (.scanning false false) list)
        block) : Tidy masked allowed (list ++ block) where
  sourced x member := (List.mem_append.mp member).elim (tidy.sourced x) (sourced x)
  led := by
    rw [← List.cons_append, List.isChain_append]
    refine ⟨tidy.led, (led (signal kPoisonPrereqSignal)).tail, fun a _ b first => ?_⟩
    have next := led a
    cases block with
    | nil => cases first
    | cons c block =>
      cases first
      exact (List.isChain_cons_cons.mp next).1
  safe id regular := safe_append.mpr (safe id regular)

theorem Tidy.poison : Tidy masked allowed (list ++ [signal kPoisonPrereqSignal]) := by
  refine tidy.append ?_ ?_ ?_
  · simpa using Or.inl ⟨rfl, isMark_signal.1⟩
  · intro a
    exact List.isChain_pair.mpr (ledBy_mark a isMark_signal.1)
  · intro id regular
    exact safe_append.mp (safe_close rfl (tidy.safe id regular) [])

theorem Tidy.group {mark p : Item} {others : List Item}
    (sizedMark : Sized mark) (opens : signals.opens mark = true)
    (fields : ∀ x ∈ p :: others, FieldItem allowed x ∧ x.type = p.type)
    (led : mark.type = kMaskedPrereqSignal ∧ others = [] ∨ ∃ id : InternalId, p.type = id.type) :
    Tidy masked allowed (list ++ mark :: p :: others) := by
  have isMark : signals.isMark mark = true := by simp [Marks.isMark, opens]
  refine tidy.append ?_ ?_ ?_
  · rw [List.forall_mem_cons]
    exact ⟨.inl ⟨sizedMark, isMark⟩, fun x member => .inr (fields x member).1⟩
  · intro a
    rcases led with ⟨type, rfl⟩ | ⟨id, type⟩
    · exact List.isChain_cons_cons.mpr ⟨ledBy_mark a isMark,
        List.isChain_pair.mpr fun _ _ _ => type⟩
    · refine List.isChain_cons_cons.mpr ⟨ledBy_mark a isMark, isChain_values mark ?_⟩
      exact fun x member => ⟨id, (fields x member).2.trans type⟩
  · intro id regular
    have before := tidy.safe id regular
    have same : ∀ x ∈ p :: others, ownOf masked id x = ownOf masked id p := by
      intro x member
      simp only [ownOf, (fields x member).2]
    have unmarked := (fields p List.mem_cons_self).1.unmarked
    rw [Marks.isMark, Bool.or_eq_false_iff] at unmarked
    have notClosing := closes_of_opens opens
    rw [Marks.Safe, scan_cons]
    cases state : signals.scan (ownOf masked id) (.scanning false false) list with
    | covered => simp [Marks.step]
    | repeated => exact absurd state before
    | scanning found led =>
      have opened : signals.step (ownOf masked id) (.scanning found led) mark =
          .scanning found true := by
        simp [Marks.step, opens, notClosing]
      rw [opened]
      cases own : ownOf masked id p with
      | true => simp [Marks.step, unmarked, own]
      | false =>
        have foreign : ∀ x ∈ p :: others, ownOf masked id x = false := fun x member =>
          (same x member).trans own
        exact safe_foreign foreign

theorem Tidy.single {x : Item} (field : FieldItem allowed x) (led : ∀ a, LedBy masked a x)
    (fresh : ∀ id : InternalId, id.isExperimenter = false → ownOf masked id x = true →
      signals.scan (ownOf masked id) (.scanning false false) list = .covered ∨
        ∃ led', signals.scan (ownOf masked id) (.scanning false false) list =
          .scanning false led') : Tidy masked allowed (list ++ [x]) := by
  have unmarked := field.unmarked
  rw [Marks.isMark, Bool.or_eq_false_iff] at unmarked
  refine tidy.append ?_ (fun a => List.isChain_pair.mpr (led a)) ?_
  · simpa using Or.inr field
  · intro id regular
    cases own : ownOf masked id x with
    | true =>
      rcases fresh id regular own with covered | ⟨led', scanning⟩
      · simp [Marks.Safe, covered]
      · rw [scanning]
        cases led' <;> simp [Marks.Safe, Marks.step, unmarked, own]
    | false =>
      have before := tidy.safe id regular
      cases state : signals.scan (ownOf masked id) (.scanning false false) list with
      | covered => simp [Marks.Safe]
      | repeated => exact absurd state before
      | scanning found led => simp [Marks.Safe, Marks.step, unmarked, own]

end

end

section

variable {masked : List InternalId} {allowed : InternalId → Prop} {list : List Item} {p : Item}

variable {id : InternalId}

theorem scan_of_absent (absent : ∀ x ∈ list, ownOf masked id x = false) :
    signals.scan (ownOf masked id) (.scanning false false) list = .covered ∨
      ∃ led, signals.scan (ownOf masked id) (.scanning false false) list = .scanning false led :=
  scan_foreign absent

theorem Tidy.insertPreqMasked (tidy : Tidy masked allowed list) (field : FieldItem allowed p) :
    Tidy masked allowed (insertPreqMasked p list) := by
  rw [Oxm.Prerequisites.insertPreqMasked]
  split
  · exact tidy
  · refine tidy.group rfl (by decide) ?_ (.inl ⟨rfl, rfl⟩)
    simpa using field

theorem Tidy.insertPreqValue (tidy : Tidy masked allowed list) {next : List Item}
    (fields : ∀ x ∈ p :: next, FieldItem allowed x) (plain : OXMType.hasMask p.type = false) :
    Tidy masked allowed (insertPreqValue p next list) := by
  obtain ⟨-, id, regular, -, type⟩ := fields p List.mem_cons_self
  have bare : p.type = id.type := by
    rcases type with bare | mask
    · exact bare
    · rw [mask, hasMask_typeWithMask] at plain
      cases plain
  rw [Oxm.Prerequisites.insertPreqValue]
  split_ifs with met several taken
  · exact tidy
  · refine tidy.group rfl (by decide) ?_ (.inr ⟨id, bare⟩)
    rw [List.forall_mem_cons]
    refine ⟨⟨fields p List.mem_cons_self, rfl⟩, fun x member => ⟨?_, ?_⟩⟩
    · exact fields x (List.mem_cons_of_mem _ (List.takeWhile_subset _ member))
    · simpa using List.mem_takeWhile_imp member
  · exact tidy.poison
  · refine tidy.single (fields p List.mem_cons_self) (fun a => ledBy_value a bare) ?_
    intro other regular' own
    obtain rfl := id_of_ownOf regular' own (.inl bare)
    refine scan_of_absent fun x member => Bool.eq_false_iff.mpr fun found => taken ?_
    refine List.any_eq_true.mpr ⟨x, member, ?_⟩
    rw [bare, withMask_type]
    rcases ownOf_iff.mp found with same | ⟨-, same⟩ <;> simp [same]

theorem Tidy.insertLoop {turns : Nat} {preqs : List Item} (tidy : Tidy masked allowed list)
    (fields : ∀ x ∈ preqs, FieldItem allowed x) :
    Tidy masked allowed (insertLoop turns preqs list) := by
  induction turns generalizing preqs list with
  | zero => exact tidy
  | succ turns ih =>
    cases preqs with
    | nil => exact tidy
    | cons p preqs =>
      rw [Oxm.Prerequisites.insertLoop]
      refine ih ?_ fun x member => fields x ?_
      · split
        · exact tidy.insertPreqMasked (fields p List.mem_cons_self)
        · next plain => exact tidy.insertPreqValue fields (by simpa using plain)
      · exact List.mem_cons_of_mem _ ((List.dropWhile_suffix _).subset member)

private theorem fieldItem_prerequisite (all : ∀ n ∈ needs id, allowed n.id) :
    ∀ x ∈ id.prerequisites, FieldItem allowed x := by
  intro x member
  refine ⟨sized_prerequisites id x member, ?_⟩
  rw [prerequisites_eq] at member
  obtain ⟨n, listed, inside⟩ := List.mem_flatMap.mp member
  refine ⟨n.id, n.regular, all n listed, ?_⟩
  rw [type_of_mem_items inside]
  cases n with
  | oneOf c => exact .inl rfl
  | under m => exact .inr rfl

theorem Tidy.insertAll (tidy : Tidy masked allowed list) (all : ∀ n ∈ needs id, allowed n.id) :
    Tidy masked allowed (insertAll list id.prerequisites) :=
  tidy.insertLoop (fieldItem_prerequisite all)

end

section

variable {masked : List InternalId} {allowed : InternalId → Prop} {list : List Item} {f : Field}

theorem poisonDuplicates_cases (type : Nat) (rest : List Item) :
    (∀ x ∈ rest, x.type ≠ type) ∧ poisonDuplicates type rest = rest ∨
      ∃ front item behind, rest = front ++ item :: behind ∧ (∀ x ∈ front, x.type ≠ type) ∧
        item.type = type ∧
        poisonDuplicates type rest = front ++ signal kPoisonPrereqSignal :: item :: behind := by
  induction rest with
  | nil => simp [poisonDuplicates]
  | cons x rest ih =>
    rw [poisonDuplicates]
    split
    · next own => exact .inr ⟨[], x, rest, rfl, by simp, own, rfl⟩
    · next other =>
      rcases ih with ⟨fresh, same⟩ | ⟨front, item, behind, rfl, fresh, own, poisoned⟩
      · exact .inl ⟨List.forall_mem_cons.mpr ⟨other, fresh⟩, by rw [same]⟩
      · exact .inr ⟨x :: front, item, behind, rfl, List.forall_mem_cons.mpr ⟨other, fresh⟩, own,
          by rw [poisoned, List.cons_append]⟩

variable {behind front rest : List Item} {id : InternalId}

theorem isChain_poison {a item : Item}
    (led : List.IsChain (LedBy masked) (a :: (front ++ item :: behind)))
    (own : item.type = id.type) :
    List.IsChain (LedBy masked) (a :: (front ++ signal kPoisonPrereqSignal :: item :: behind)) := by
  rw [← List.cons_append, List.isChain_append] at led ⊢
  refine ⟨led.1, List.isChain_cons_cons.mpr ⟨ledBy_value _ own, led.2.1⟩, ?_⟩
  rintro b - c first
  cases first
  exact ledBy_mark b isMark_signal.1

private theorem isChain_poisonDuplicates {a : Item}
    (led : List.IsChain (LedBy masked) (a :: rest)) :
    List.IsChain (LedBy masked) (a :: poisonDuplicates id.type rest) := by
  rcases poisonDuplicates_cases id.type rest with
    ⟨-, same⟩ | ⟨front, item, behind, rfl, -, own, poisoned⟩
  · rwa [same]
  · rw [poisoned]
    exact isChain_poison led own

private theorem isChain_behind {a b : Item}
    (led : List.IsChain (LedBy masked) (b :: rest)) (unmarked : signals.isMark b = false) :
    List.IsChain (LedBy masked) (a :: rest) := by
  cases rest with
  | nil => exact .singleton a
  | cons x rest =>
    obtain ⟨first, later⟩ := List.isChain_cons_cons.mp led
    refine List.isChain_cons_cons.mpr ⟨fun id plain mask => ?_, later⟩
    rw [isMark_iff.mpr (.inr (.inl (first id plain mask)))] at unmarked
    cases unmarked

private theorem mem_poisonDuplicates {type : Nat} {x : Item}
    (member : x ∈ poisonDuplicates type rest) : x = signal kPoisonPrereqSignal ∨ x ∈ rest := by
  rcases poisonDuplicates_cases type rest with
    ⟨-, same⟩ | ⟨front, item, behind, rfl, -, -, poisoned⟩
  · rw [same] at member
    exact .inr member
  · rw [poisoned] at member
    simp only [List.mem_append, List.mem_cons] at member ⊢
    tauto

theorem Tidy.poisoned {item : Item}
    (tidy : Tidy masked allowed (front ++ item :: behind)) (own : item.type = f.id.type) :
    Tidy masked allowed (front ++ signal kPoisonPrereqSignal :: item :: behind) where
  sourced x member := by
    rcases List.mem_append.mp member with early | late
    · exact tidy.sourced x (List.mem_append_left _ early)
    · rcases List.mem_cons.mp late with rfl | later
      · exact .inl ⟨rfl, isMark_signal.1⟩
      · exact tidy.sourced x (List.mem_append_right _ later)
  led := isChain_poison tidy.led own
  safe id regular := safe_close rfl (Safe.left (tidy.safe id regular)) _

theorem ownOf_fresh (unmasked : f.id ∉ masked) {xs : List Item}
    (fresh : ∀ x ∈ xs, x.type ≠ f.id.type) : ∀ x ∈ xs, ownOf masked f.id x = false := by
  intro x member
  simp [ownOf, unmasked, fresh x member]

theorem fieldItem_plain (f : Field) (fine : allowed f.id) : FieldItem allowed f.item :=
  ⟨sized_field f, f.id, f.regular, fine, .inl rfl⟩

private theorem safe_poisonDuplicates (unmasked : f.id ∉ masked) {found led : Bool}
    (behind : List Item) :
    signals.Safe (ownOf masked f.id) (.scanning found led) (poisonDuplicates f.id.type behind) := by
  rcases poisonDuplicates_cases f.id.type behind with
    ⟨fresh, same⟩ | ⟨front, item, rest, -, fresh, -, poisoned⟩
  · rw [same]
    exact safe_foreign (ownOf_fresh unmasked fresh)
  · rw [poisoned]
    exact safe_close rfl (safe_foreign (ownOf_fresh unmasked fresh)) _

private theorem safe_own (unmasked : f.id ∉ masked)
    (fresh : ∀ x ∈ front, x.type ≠ f.id.type) (behind : List Item) :
    signals.Safe (ownOf masked f.id) (.scanning false false)
      (front ++ f.item :: poisonDuplicates f.id.type behind) := by
  have bare : signals.isMark f.item = false := isMark_type f.id (.inl rfl)
  have own : ownOf masked f.id f.item = true := ownOf_iff.mpr (.inl rfl)
  rw [Marks.isMark, Bool.or_eq_false_iff] at bare
  rw [safe_append]
  rcases scan_of_absent (ownOf_fresh unmasked fresh) with covered | ⟨led, scanning⟩
  · simp [Marks.Safe, covered]
  · rw [scanning, Marks.Safe, scan_cons]
    cases led with
    | true => simp [Marks.step, bare, own]
    | false =>
      have next : signals.step (ownOf masked f.id) (.scanning false false) f.item =
          .scanning true false := by
        simp [Marks.step, bare, own]
      rw [next]
      exact safe_poisonDuplicates unmasked behind

private theorem safe_poisonedBehind {type : Nat}
    (safe : signals.Safe (ownOf masked id) (.scanning false false) (front ++ f.item :: behind)) :
    signals.Safe (ownOf masked id) (.scanning false false)
      (front ++ f.item :: poisonDuplicates type behind) := by
  rcases poisonDuplicates_cases type behind with
    ⟨-, same⟩ | ⟨early, item, late, rfl, -, -, poisoned⟩
  · rwa [same]
  · rw [poisoned]
    have split (rest : List Item) :
        front ++ f.item :: (early ++ rest) = (front ++ f.item :: early) ++ rest := by simp
    rw [split] at safe ⊢
    exact safe_close rfl (Safe.left safe) _

theorem Tidy.replaced {more : List Item} {mark p : Item}
    (tidy : Tidy masked allowed (front ++ mark :: (p :: more ++ behind))) (unmasked : f.id ∉ masked)
    (fine : allowed f.id) (fresh : ∀ x ∈ front, x.type ≠ f.id.type)
    (opens : signals.opens mark = true) (own : OXMType.withoutMask p.type = f.id.type)
    (unmarked : ∀ x ∈ p :: more, signals.isMark x = false) :
    Tidy masked allowed (front ++ f.item :: poisonDuplicates f.id.type behind) := by
  have later {x : Item} (member : x ∈ behind) : x ∈ front ++ mark :: (p :: more ++ behind) := by
    simp [member]
  refine ⟨fun x member => ?_, ?_, fun id regular => ?_⟩
  · rcases List.mem_append.mp member with early | late
    · exact tidy.sourced x (List.mem_append_left _ early)
    · rcases List.mem_cons.mp late with rfl | rest
      · exact .inr (fieldItem_plain f fine)
      · rcases mem_poisonDuplicates rest with rfl | old
        · exact .inl ⟨rfl, isMark_signal.1⟩
        · exact tidy.sourced x (later old)
  · -- The last item that is taken out is no signal, so the rest does not depend on it.
    have led := tidy.led
    obtain ⟨last, before, split⟩ : ∃ last before, p :: more = before ++ [last] :=
      ⟨(p :: more).getLast (by simp), _, (List.dropLast_append_getLast _).symm⟩
    have whole : signal kPoisonPrereqSignal :: (front ++ mark :: (p :: more ++ behind)) =
        (signal kPoisonPrereqSignal :: front) ++ ((mark :: before) ++ (last :: behind)) := by
      rw [split]
      simp
    rw [whole, List.isChain_append] at led
    rw [← List.cons_append, List.isChain_append]
    refine ⟨led.1, isChain_poisonDuplicates (isChain_behind (List.isChain_append.mp led.2.1).2.1
      (unmarked last (by rw [split]; simp))), ?_⟩
    rintro a - b first
    cases first
    exact ledBy_value a rfl
  · by_cases same : id = f.id
    · subst same
      exact safe_own unmasked fresh behind
    · have foreign {x : Item} (type : x.type = f.id.type ∨ x.type = f.id.typeWithMask) :
          ownOf masked id x = false :=
        Bool.eq_false_iff.mpr fun counted => same (id_of_ownOf regular counted type).symm
      have field : p.type = f.id.type ∨ p.type = f.id.typeWithMask := by
        rcases tidy.sourced p (by simp) with ⟨-, mark⟩ | ⟨-, id', regular', -, type⟩
        · rw [unmarked p List.mem_cons_self] at mark
          cases mark
        · have own' : id' = f.id := by
            rw [← type_inj f.regular, ← own]
            rcases type with bare | mask
            · rw [bare, OXMType.withoutMask, hasMask_type, if_neg Bool.false_ne_true]
            · rw [mask, withoutMask_typeWithMask]
          rwa [← own']
      refine safe_poisonedBehind (safe_replace opens (closes_of_opens opens) unmarked ?_
        (foreign field) (foreign (.inl rfl)) (tidy.safe id regular))
      exact isMark_type f.id (.inl rfl)

private theorem signal_withoutMask_ne (id : InternalId) :
    OXMType.withoutMask kMaskedPrereqSignal ≠ id.type ∧
      OXMType.withoutMask kValuePrereqSignal ≠ id.type ∧
      OXMType.withoutMask kPoisonPrereqSignal ≠ id.type := by
  cases id <;> decide

private theorem substituted {r : Substitution} (done : substitute list f.id.type f.value = some r) :
    Substituted f.id.type f.value list r := by
  have filled : f.value ≠ [] := by
    have positive := size_pos f.id
    rw [← f.sized] at positive
    exact List.ne_nil_of_length_pos positive
  have bare (x : Item) (own : x.type = f.id.type ∨ OXMType.withoutMask x.type = f.id.type) :
      signals.isMark x = false := by
    rcases own with bare | mask
    · exact isMark_type f.id (.inl bare)
    · have other := signal_withoutMask_ne f.id
      rw [Bool.eq_false_iff, ne_eq, isMark_iff]
      rintro (type | type | type)
      · exact other.2.1 (by rw [← type, mask])
      · exact other.1 (by rw [← type, mask])
      · exact other.2.2 (by rw [← type, mask])
  rw [substitute, isExperimenter_type, f.regular, if_neg Bool.false_ne_true] at done
  exact substituteLoop_cases filled bare (hasMask_type f.id) done

theorem Tidy.absent (tidy : Tidy masked allowed list) (unmasked : f.id ∉ masked)
    (fine : allowed f.id) (absent : Substituted f.id.type f.value list .absent) :
    Tidy masked allowed (list ++ [f.item]) := by
  refine tidy.single (fieldItem_plain f fine) (fun a => ledBy_value a rfl) ?_
  intro id regular own
  obtain rfl := id_of_ownOf regular own (.inl rfl)
  cases absent with
  | absent fresh => exact scan_of_absent (ownOf_fresh unmasked fresh)
  | @refused front behind mark p fresh opens own' =>
    have bare : signals.isMark p = false := isMark_type f.id (.inl own')
    have counted : ownOf masked f.id p = true := ownOf_iff.mpr (.inl own')
    have notClosing := closes_of_opens opens
    rw [Marks.isMark, Bool.or_eq_false_iff] at bare
    rw [scan_append]
    rcases scan_of_absent (ownOf_fresh unmasked fresh) with covered | ⟨led, scanning⟩
    · simp [covered]
    · simp [scanning, Marks.step, opens, notClosing, bare, counted]

theorem Tidy.place {r : Substitution} (tidy : Tidy masked allowed list) (unmasked : f.id ∉ masked)
    (fine : allowed f.id) : Substituted f.id.type f.value list r →
    Tidy masked allowed (match r with
      | .done list => list
      | .absent => list ++ [f.item]) := by
  intro done
  cases done with
  | absent fresh => exact tidy.absent unmasked fine (.absent fresh)
  | refused fresh opens own => exact tidy.absent unmasked fine (.refused fresh opens own)
  | same list => exact tidy
  | poisoned front behind own => exact tidy.poisoned own
  | replaced fresh opens own unmarked => exact tidy.replaced unmasked fine fresh opens own unmarked

end

section

variable {masked : List InternalId} {allowed : InternalId → Prop} {list : List Item}

theorem Tidy.add {f : Field} {list' : List Item} (tidy : Tidy masked allowed list)
    (unmasked : f.id ∉ masked) (fine : allowed f.id) (all : ∀ n ∈ needs f.id, allowed n.id)
    (added : add list f = some list') : Tidy masked allowed list' := by
  obtain ⟨r, done, rfl⟩ := Option.map_eq_some_iff.mp added
  exact (tidy.insertAll all).place unmasked fine (substituted done)

theorem Tidy.addMasked {m : Masking} (tidy : Tidy masked allowed list) (known : m.id ∈ masked)
    (all : ∀ n ∈ needs m.id, allowed n.id) (fresh : ¬ allowed m.id) :
    Tidy masked (fun id => allowed id ∨ id = m.id) (addMasked list m) := by
  have inserted := tidy.insertAll all
  have sized : Sized (maskedItem m) := by
    rw [Sized, maskedItem, List.length_append, List.length_zipWith, m.sizedValue, m.sizedMask,
      length_typeWithMask]
    omega
  refine (inserted.weaken fun id fine => .inl fine).single
    ⟨sized, m.id, m.regular, .inr rfl, .inr rfl⟩ ?_ ?_
  · intro a id plain mask
    exact absurd ((typeWithMask_inj m.regular).mp mask.symm ▸ known) plain
  · intro id regular own
    obtain rfl := id_of_ownOf regular own (.inr rfl)
    refine scan_of_absent fun x member => Bool.eq_false_iff.mpr fun counted => ?_
    rcases inserted.sourced x member with ⟨-, mark⟩ | ⟨-, id', -, fine, type⟩
    · have unmarked : signals.isMark x = false :=
        isMark_type m.id ((ownOf_iff.mp counted).imp_right And.right)
      rw [unmarked] at mark
      cases mark
    · rw [id_of_ownOf regular counted type] at fine
      exact fresh fine

def maskedIds (adds : List Addition) : List InternalId :=
  adds.filterMap fun
    | .plain _ => none
    | .masked m => some m.id

variable {adds : List Addition} {id : InternalId}

theorem mem_maskedIds :
    id ∈ maskedIds adds ↔ ∃ m, .masked m ∈ adds ∧ m.id = id := by
  rw [maskedIds, List.mem_filterMap]
  constructor
  · rintro ⟨a, member, found⟩
    cases a with
    | plain f => cases found
    | masked m => exact ⟨m, member, Option.some.inj found⟩
  · rintro ⟨m, member, rfl⟩
    exact ⟨.masked m, member, rfl⟩

private theorem not_masked_of_plain (apart : MasksApart adds) {f : Field}
    (member : .plain f ∈ adds) : f.id ∉ maskedIds adds := by
  intro masked
  obtain ⟨m, also, same⟩ := mem_maskedIds.mp masked
  obtain ⟨before, behind, rfl⟩ := List.append_of_mem also
  obtain ⟨later, earlier⟩ := apart before m behind rfl
  rcases List.mem_append.mp member with early | late
  · exact earlier _ early (.inl same.symm)
  · rcases List.mem_cons.mp late with equal | late
    · cases equal
    · exact later _ late same.symm

def Concerned (adds : List Addition) (id : InternalId) : Prop := ∃ a ∈ adds, a.Concerns id

private theorem tidy_run {done rest : List Addition} (apart : MasksApart adds)
    (split : adds = done ++ rest) {list' : List Item}
    (tidy : Tidy (maskedIds adds) (Concerned done) list)
    (built : rest.foldlM Addition.run list = some list') :
    Tidy (maskedIds adds) (Concerned adds) list' := by
  induction rest generalizing done list with
  | nil =>
    rw [List.append_nil] at split
    cases built
    exact split ▸ tidy
  | cons a rest ih =>
    obtain ⟨next, step, later⟩ := Option.bind_eq_some_iff.mp built
    refine @ih next (done ++ [a]) (by simp [split]) ?_ later
    have more (id : InternalId) : Concerned done id → Concerned (done ++ [a]) id :=
      fun ⟨b, member, concerns⟩ => ⟨b, List.mem_append_left _ member, concerns⟩
    have here : a ∈ done ++ [a] := by simp
    cases a with
    | plain f =>
      refine (tidy.weaken more).add (not_masked_of_plain apart (by simp [split])) ?_ ?_ step
      · exact ⟨_, here, .inl rfl⟩
      · exact fun n listed => ⟨_, here, .inr ⟨n, listed, rfl⟩⟩
    | masked m =>
      cases step
      have earlier := (apart done m rest split).2
      have known : m.id ∈ maskedIds adds := mem_maskedIds.mpr ⟨m, by simp [split], rfl⟩
      have needed : Tidy (maskedIds adds)
          (fun id => Concerned done id ∨ ∃ n ∈ needs m.id, n.id = id) list :=
        tidy.weaken fun id => .inl
      refine (needed.addMasked known (fun n listed => .inr ⟨n, listed, rfl⟩) ?_).weaken ?_
      · rintro (⟨b, member, concerns⟩ | ⟨n, listed, same⟩)
        · exact earlier b member concerns
        · exact needs_id_ne m.id n listed same
      · rintro id ((old | need) | rfl)
        · exact more id old
        · exact ⟨_, here, .inr need⟩
        · exact ⟨_, here, .inl rfl⟩

theorem sized_of_tidy (tidy : Tidy masked allowed list) : ∀ x ∈ list, Sized x := by
  intro x member
  rcases tidy.sourced x member with ⟨sized, -⟩ | ⟨sized, -⟩ <;> exact sized

private theorem type_lt_of_tidy (tidy : Tidy masked allowed list) :
    ∀ x ∈ list, x.type < 2 ^ 32 := by
  intro x member
  rcases tidy.sourced x member with ⟨-, mark⟩ | ⟨-, id, -, -, type⟩
  · rcases isMark_iff.mp mark with type | type | type <;> rw [type] <;> decide
  · rcases type with type | type
    · rw [type]
      exact (type_lt id).1
    · rw [type]
      exact (type_lt id).2

private theorem unmarked_of_validate (tidy : Tidy masked allowed list)
    (valid : validate list = true) :
    ∀ x ∈ list, signals.isMark x = false := by
  rw [validate_list_iff (type_lt_of_tidy tidy) (sized_of_tidy tidy)] at valid
  have legal := ((checkItems_iff (by simpa using sized_of_tidy tidy)).mp valid).1
  intro x member
  rw [Bool.eq_false_iff]
  exact fun mark => legal x member (illegal_of_isMark mark)

private theorem exists_ledBy {c x : Item} (led : List.IsChain (LedBy masked) (c :: list))
    (member : x ∈ list) : ∃ a ∈ c :: list, LedBy masked a x := by
  induction list generalizing c with
  | nil => cases member
  | cons y list ih =>
    obtain ⟨first, later⟩ := List.isChain_cons_cons.mp led
    rcases List.mem_cons.mp member with rfl | further
    · exact ⟨c, List.mem_cons_self, first⟩
    · obtain ⟨a, there, leads⟩ := ih later further
      exact ⟨a, List.mem_cons_of_mem _ there, leads⟩

theorem ownOf_of_unmarked (tidy : Tidy masked allowed list)
    (unmarked : ∀ x ∈ list, signals.isMark x = false) {x : Item} (member : x ∈ list)
    (type : x.type = id.type ∨ x.type = id.typeWithMask) :
    ownOf masked id x = true := by
  refine ownOf_iff.mpr (type.imp_right fun mask => ⟨?_, mask⟩)
  by_contra plain
  obtain ⟨a, there, leads⟩ := exists_ledBy tidy.led member
  have signalType := leads id plain mask
  rcases List.mem_cons.mp there with rfl | inside
  · exact absurd signalType (by decide)
  · have mark := isMark_iff.mpr (.inr (.inl signalType))
    rw [unmarked a inside] at mark
    cases mark

theorem number_type (id : InternalId) :
    (oxmClass id.type = id.oxmClass ∧ oxmField id.type = id.oxmField) ∧
      oxmClass id.typeWithMask = id.oxmClass ∧ oxmField id.typeWithMask = id.oxmField := by
  cases id <;> decide

theorem find_number (regular : id.isExperimenter = false) :
    InternalId.all.find? (fun other => other.oxmClass == id.oxmClass &&
      other.oxmField == id.oxmField) = some id := by
  revert regular
  cases id <;> decide +kernel

private theorem id_of_sameNumber {a b : Item} {id' : InternalId} (same : SameNumber a b)
    (regular : id.isExperimenter = false) (regular' : id'.isExperimenter = false)
    (typeA : a.type = id.type ∨ a.type = id.typeWithMask)
    (typeB : b.type = id'.type ∨ b.type = id'.typeWithMask) : id = id' := by
  have numberA : oxmClass a.type = id.oxmClass ∧ oxmField a.type = id.oxmField := by
    rcases typeA with type | type <;> rw [type]
    · exact (number_type id).1
    · exact (number_type id).2
  have numberB : oxmClass b.type = id'.oxmClass ∧ oxmField b.type = id'.oxmField := by
    rcases typeB with type | type <;> rw [type]
    · exact (number_type id').1
    · exact (number_type id').2
  have found := find_number regular
  rw [← numberA.1, ← numberA.2, same.1, same.2, numberB.1, numberB.2, find_number regular'] at found
  exact (Option.some.inj found).symm

private theorem distinct_of_tidy (tidy : Tidy masked allowed list)
    (unmarked : ∀ x ∈ list, signals.isMark x = false) : Distinct list := by
  rw [Distinct, List.pairwise_iff_getElem]
  intro i j hi hj lt same
  have field (k : Nat) (hk : k < list.length) : ∃ id : InternalId, id.isExperimenter = false ∧
      (list[k].type = id.type ∨ list[k].type = id.typeWithMask) := by
    rcases tidy.sourced _ (List.getElem_mem hk) with ⟨-, mark⟩ | ⟨-, id, regular, -, type⟩
    · rw [unmarked _ (List.getElem_mem hk)] at mark
      cases mark
    · exact ⟨id, regular, type⟩
  obtain ⟨id, regular, typeI⟩ := field i hi
  obtain ⟨id', regular', typeJ⟩ := field j hj
  obtain rfl := id_of_sameNumber same regular regular' typeI typeJ
  have once := List.pairwise_iff_getElem.mp (pairwise_of_safe unmarked (tidy.safe id regular))
  exact once i j hi hj lt ⟨ownOf_of_unmarked tidy unmarked (List.getElem_mem hi) typeI,
    ownOf_of_unmarked tidy unmarked (List.getElem_mem hj) typeJ⟩

end

/-- A builder that validates has no field twice, when the fields that are added under a mask
are added once and are not prerequisites of fields before them. -/
theorem validated_distinct (adds : List Addition) (apart : MasksApart adds) (list : List Item)
    (built : buildAll adds = some list) (valid : validate list = true) : Distinct list := by
  have tidy := @tidy_run [] adds [] adds apart rfl list tidy_nil built
  exact distinct_of_tidy tidy (unmarked_of_validate tidy valid)

/-- Some bits of the metadata and an ARP operation. -/
theorem validated_distinct_metadata :
    let m : Masking := ⟨.metadata, [0, 0, 0, 0, 0, 0, 0, 5], [0, 0, 0, 0, 0, 0, 0, 15],
      by decide, by decide, by decide⟩
    let f : Field := ⟨.arpOp, [0, 1], by decide, by decide⟩
    let list := insertAll [maskedItem m] InternalId.arpOp.prerequisites ++ [f.item]
    buildAll [.masked m, .plain f] = some list ∧ validate list = true ∧ Distinct list := by
  intro m f list
  have built : buildAll [.masked m, .plain f] = some list := by decide +kernel
  have valid : validate list = true := by decide +kernel
  have apart : MasksApart [.masked m, .plain f] := by
    intro before m' behind whole
    match before with
    | [] =>
      obtain ⟨head, rfl⟩ := List.cons.inj whole
      cases head
      simp [Addition.id, m, f]
    | [a] => cases (List.cons.inj (List.cons.inj whole).2).1
    | _ :: _ :: before => cases before <;> cases (List.cons.inj (List.cons.inj whole).2).2
  exact ⟨built, valid, validated_distinct _ apart list built valid⟩

/-- The metadata under two masks: both values are appended, and the list validates. -/
theorem validated_repeated : ∃ adds list, buildAll adds = some list ∧ validate list = true ∧
    ¬ Distinct list := by
  let m : Masking := ⟨.metadata, [0, 0, 0, 0, 0, 0, 0, 5], [0, 0, 0, 0, 0, 0, 0, 15],
    by decide, by decide, by decide⟩
  let m' : Masking := ⟨.metadata, [0, 0, 0, 0, 0, 0, 0, 6], [0, 0, 0, 0, 0, 0, 0, 15],
    by decide, by decide, by decide⟩
  refine ⟨[.masked m, .masked m'], [maskedItem m, maskedItem m'], rfl, by decide +kernel, ?_⟩
  intro distinct
  exact List.rel_of_pairwise_cons distinct List.mem_cons_self ⟨rfl, rfl⟩

end Libofp.Match.RepeatedFields
