/- GID: Libofp/Oxm/DuplicateFields
   digest: The search for repeated fields in an OXM list, and when it is exact. -/

import Libofp.Oxm.Range
import Mathlib.Data.BitVec
import Mathlib.Tactic.Common

set_option autoImplicit false

namespace Libofp.Oxm.DuplicateFields

open Octets.ByteRange Oxm.Range

def oxmClass (type : Nat) : Nat := type / 65536

/-- `OXMType::oxmField`: 7 bits, without the mask bit. -/
def oxmField (type : Nat) : Nat := type / 512 % 128

private theorem oxmField_lt (type : Nat) : oxmField type < 128 := Nat.mod_lt _ (by omega)

structure ClassEntry where
  oxmClass : Nat
  fields : BitVec 128

def maxOXMClasses : Nat := 10

/-- The entries of `classes_` that are in use. -/
structure OXMTypeSet where
  entries : List ClassEntry
  room : entries.length ≤ maxOXMClasses

namespace OXMTypeSet

def empty : OXMTypeSet := ⟨[], by decide⟩

/-- The loop of `find`: the first entry of the class decides. -/
def findLoop (oxmClass oxmField : Nat) : List ClassEntry → Bool
  | [] => false
  | entry :: entries =>
    if entry.oxmClass = oxmClass then entry.fields.getLsbD oxmField
    else findLoop oxmClass oxmField entries

def find (set : OXMTypeSet) (type : Nat) : Bool :=
  findLoop (oxmClass type) (oxmField type) set.entries

/-- The loop of `add`: the field's bit is set in the first entry of the class. A bit that is
set already stays. -/
def addLoop (oxmClass oxmField : Nat) : List ClassEntry → List ClassEntry
  | [] => []
  | entry :: entries =>
    if entry.oxmClass = oxmClass then
      { entry with fields := entry.fields ||| BitVec.twoPow 128 oxmField } :: entries
    else entry :: addLoop oxmClass oxmField entries

private theorem length_addLoop (c f : Nat) (entries : List ClassEntry) :
    (addLoop c f entries).length = entries.length := by
  induction entries with
  | nil => rfl
  | cons entry entries ih =>
    rw [addLoop]
    split
    · rfl
    · rw [List.length_cons, ih, List.length_cons]

def classes (set : OXMTypeSet) : List Nat := set.entries.map ClassEntry.oxmClass

/-- `OXMTypeSet::add`: the set behind the call and what it returns. A class that finds no
room is ignored, and the call reports success. -/
def add (set : OXMTypeSet) (type : Nat) : OXMTypeSet × Bool :=
  if oxmClass type ∈ set.classes then
    (⟨addLoop (oxmClass type) (oxmField type) set.entries,
      (length_addLoop ..).trans_le set.room⟩, !set.find type)
  else if more : set.entries.length < maxOXMClasses then
    (⟨set.entries ++ [⟨oxmClass type, BitVec.twoPow 128 (oxmField type)⟩],
      by rw [List.length_append]; exact more⟩, true)
  else (set, true)

end OXMTypeSet

/-- `for (auto &item : oxm)` in `duplicateFieldsDetected`. -/
def detectLoop (typeSet : OXMTypeSet) : List Item → Bool
  | [] => false
  | item :: rest =>
    if ¬ (typeSet.add item.type).2 then true
    else detectLoop (typeSet.add item.type).1 rest

def duplicateFieldsDetected (oxm : Bytes) : Bool := detectLoop .empty (items oxm)

def SameNumber (a b : Item) : Prop :=
  oxmClass a.type = oxmClass b.type ∧ oxmField a.type = oxmField b.type

def SameField (a b : Item) : Prop :=
  SameNumber a b ∧ (oxmClass a.type = 0xFFFF → a.experimenter = b.experimenter)

def Conflated (a b : Item) : Prop :=
  SameNumber a b ∧ oxmClass a.type = 0xFFFF ∧ a.experimenter ≠ b.experimenter

def kept (list : List Item) : List Nat :=
  ((list.map fun item => oxmClass item.type).eraseDups).take maxOXMClasses

def Repeats (same : Item → Item → Prop) (list : List Item) : Prop :=
  ∃ a b, List.Sublist [a, b] list ∧ same a b

/-- The relation between two items of a class that is among the first ten. -/
def InKept (list : List Item) (same : Item → Item → Prop) (a b : Item) : Prop :=
  oxmClass a.type ∈ kept list ∧ same a b

section

variable {set : OXMTypeSet}

namespace OXMTypeSet

private theorem findLoop_addLoop {c f c' f' : Nat} (small : f < 128) {entries : List ClassEntry}
    (there : c ∈ entries.map ClassEntry.oxmClass) :
    findLoop c' f' (addLoop c f entries) = (findLoop c' f' entries || (c == c' && f == f')) := by
  induction entries with
  | nil => cases there
  | cons entry entries ih =>
    rw [addLoop]
    by_cases own : entry.oxmClass = c
    · rw [if_pos own, findLoop, findLoop]
      by_cases same : entry.oxmClass = c'
      · have bit : (BitVec.twoPow 128 f).getLsbD f' = (f == f') := by
          simp [BitVec.getLsbD_twoPow, small, beq_eq_decide]
        rw [if_pos same, if_pos same, BitVec.getLsbD_or, bit, ← own, same, beq_self_eq_true,
          Bool.true_and]
      · have other : (c == c') = false := by
          rwa [beq_eq_false_iff_ne, ← own]
        rw [if_neg same, if_neg same, other, Bool.false_and, Bool.or_false]
    · have later : c ∈ entries.map ClassEntry.oxmClass := by
        rcases List.mem_cons.mp there with here | later
        · exact absurd here.symm own
        · exact later
      rw [if_neg own, findLoop, findLoop]
      by_cases same : entry.oxmClass = c'
      · have other : (c == c') = false := by
          rw [beq_eq_false_iff_ne, ← same]
          exact fun eq => own eq.symm
        rw [if_pos same, if_pos same, other, Bool.false_and, Bool.or_false]
      · rw [if_neg same, if_neg same, ih later]

theorem findLoop_append {c f c' f' : Nat} (small : f < 128) {entries : List ClassEntry}
    (absent : c ∉ entries.map ClassEntry.oxmClass) :
    findLoop c' f' (entries ++ [⟨c, BitVec.twoPow 128 f⟩]) =
      (findLoop c' f' entries || (c == c' && f == f')) := by
  induction entries with
  | nil =>
    simp only [List.nil_append, findLoop, BitVec.getLsbD_twoPow, small]
    by_cases same : c = c'
    · simp [same, beq_eq_decide]
    · simp [same]
  | cons entry entries ih =>
    rw [List.map_cons, List.mem_cons, not_or] at absent
    rw [List.cons_append, findLoop, findLoop]
    by_cases same : entry.oxmClass = c'
    · have other : (c == c') = false := by
        rw [beq_eq_false_iff_ne, ← same]
        exact absent.1
      rw [if_pos same, if_pos same, other, Bool.false_and, Bool.or_false]
    · rw [if_neg same, if_neg same, ih absent.2]

private theorem classes_addLoop (c f : Nat) (entries : List ClassEntry) :
    (addLoop c f entries).map ClassEntry.oxmClass = entries.map ClassEntry.oxmClass := by
  induction entries with
  | nil => rfl
  | cons entry entries ih =>
    rw [addLoop]
    split
    · rfl
    · rw [List.map_cons, ih, List.map_cons]

private theorem findLoop_of_absent {c f : Nat} {entries : List ClassEntry}
    (absent : c ∉ entries.map ClassEntry.oxmClass) : findLoop c f entries = false := by
  induction entries with
  | nil => rfl
  | cons entry entries ih =>
    rw [List.map_cons, List.mem_cons, not_or] at absent
    rw [findLoop, if_neg (fun same => absent.1 same.symm), ih absent.2]

theorem snd_add (set : OXMTypeSet) (type : Nat) : (set.add type).2 = !set.find type := by
  rw [add]
  split
  · rfl
  · next absent =>
    rw [find, findLoop_of_absent absent]
    split <;> rfl

theorem classes_add (set : OXMTypeSet) (type : Nat) : (set.add type).1.classes =
    if oxmClass type ∈ set.classes then set.classes
    else if set.classes.length < maxOXMClasses then set.classes ++ [oxmClass type]
    else set.classes := by
  have length : set.classes.length = set.entries.length := List.length_map _
  rw [add, length]
  split
  · exact classes_addLoop ..
  · split
    · exact List.map_append
    · rfl

theorem find_add (set : OXMTypeSet) (type other : Nat) : (set.add type).1.find other =
    (set.find other || (oxmClass type == oxmClass other && oxmField type == oxmField other &&
      decide (oxmClass type ∈ (set.add type).1.classes))) := by
  have small := oxmField_lt type
  by_cases there : oxmClass type ∈ set.classes
  · have place : oxmClass type ∈ (set.add type).1.classes := by
      rwa [classes_add, if_pos there]
    rw [decide_eq_true place, Bool.and_true, find, add, if_pos there]
    exact findLoop_addLoop small there
  · by_cases more : set.entries.length < maxOXMClasses
    · have place : oxmClass type ∈ (set.add type).1.classes := by
        have length : set.classes.length = set.entries.length := List.length_map _
        rw [classes_add, if_neg there, length, if_pos more]
        simp
      rw [decide_eq_true place, Bool.and_true, find, add, if_neg there, dif_pos more]
      exact findLoop_append small there
    · have same : (set.add type).1 = set := by rw [add, if_neg there, dif_neg more]
      rw [same, decide_eq_false there, Bool.and_false, Bool.or_false]

end OXMTypeSet

end

section

variable {seen rest : List Item} {item : Item}

private theorem kept_subset {c : Nat} (member : c ∈ kept seen) :
    c ∈ seen.map fun item => oxmClass item.type :=
  List.mem_eraseDups.mp (List.mem_of_mem_take member)

theorem length_kept {c : Nat} (there : c ∈ seen.map fun item => oxmClass item.type)
    (absent : c ∉ kept seen) : (kept seen).length = maxOXMClasses := by
  have listed := List.mem_eraseDups.mpr there
  rw [kept, List.length_take]
  by_contra few
  refine absent ?_
  rwa [kept, List.take_of_length_le (by omega)]

private theorem eraseDups_concat (cs : List Nat) (c : Nat) :
    (cs ++ [c]).eraseDups = if c ∈ cs then cs.eraseDups else cs.eraseDups ++ [c] := by
  rw [List.eraseDups_append]
  by_cases there : c ∈ cs
  · have none : [c].removeAll cs = [] := by simp [List.removeAll, there]
    rw [if_pos there, none, List.eraseDups_nil, List.append_nil]
  · have one : [c].removeAll cs = [c] := by simp [List.removeAll, there]
    rw [if_neg there, one, List.eraseDups_cons, List.filter_nil, List.eraseDups_nil]

private theorem kept_concat (seen : List Item) (item : Item) : kept (seen ++ [item]) =
    if oxmClass item.type ∈ kept seen then kept seen
    else if (kept seen).length < maxOXMClasses then kept seen ++ [oxmClass item.type]
    else kept seen := by
  have whole : kept (seen ++ [item]) = (((seen.map fun item => oxmClass item.type) ++
      [oxmClass item.type]).eraseDups).take maxOXMClasses := by
    rw [kept, List.map_append, List.map_singleton]
  rw [whole, eraseDups_concat]
  by_cases there : oxmClass item.type ∈ seen.map fun item => oxmClass item.type
  · rw [if_pos there]
    by_cases place : oxmClass item.type ∈ kept seen
    · rw [if_pos place, kept]
    · rw [if_neg place, if_neg (by rw [length_kept there place]; omega), kept]
  · rw [if_neg there, if_neg fun member => there (kept_subset member), List.take_append, kept,
      List.length_take]
    by_cases more : (seen.map fun item => oxmClass item.type).eraseDups.length < maxOXMClasses
    · rw [if_pos (by omega), List.take_of_length_le (l := [_])]
      rw [List.length_singleton]
      omega
    · rw [if_neg (by omega), Nat.sub_eq_zero_of_le (by omega), List.take_zero, List.append_nil]

theorem kept_starts (seen rest : List Item) : kept seen <+: kept (seen ++ rest) := by
  rw [kept, kept, List.map_append, List.eraseDups_append, List.take_append]
  exact List.prefix_append ..

theorem mem_kept_append {c : Nat} (there : c ∈ seen.map fun item => oxmClass item.type) :
    c ∈ kept (seen ++ rest) ↔ c ∈ kept seen := by
  constructor
  · intro member
    by_contra absent
    have full := length_kept there absent
    have whole : kept (seen ++ rest) = kept seen := by
      refine ((kept_starts seen rest).eq_of_length_le ?_).symm
      rw [full, kept]
      exact List.length_take_le ..
    exact absent (whole ▸ member)
  · exact fun member => (kept_starts seen rest).subset member

end

section

variable {seen rest : List Item} {item : Item} {set : OXMTypeSet}

structure Tracks (seen : List Item) (set : OXMTypeSet) : Prop where
  classes : set.classes = kept seen
  fields : ∀ type, set.find type = true ↔ oxmClass type ∈ kept seen ∧
    ∃ item ∈ seen, oxmClass item.type = oxmClass type ∧ oxmField item.type = oxmField type

private theorem tracks_empty : Tracks [] .empty where
  classes := rfl
  fields type := by simp [OXMTypeSet.find, OXMTypeSet.empty, OXMTypeSet.findLoop]

theorem Tracks.add (tracks : Tracks seen set) (item : Item) :
    Tracks (seen ++ [item]) (set.add item.type).1 := by
  have classes : (set.add item.type).1.classes = kept (seen ++ [item]) := by
    rw [OXMTypeSet.classes_add, tracks.classes, kept_concat]
  refine ⟨classes, fun type => ?_⟩
  rw [OXMTypeSet.find_add, classes]
  simp only [Bool.or_eq_true, Bool.and_eq_true, beq_iff_eq, decide_eq_true_eq, tracks.fields,
    List.mem_append, List.mem_singleton]
  constructor
  · rintro (⟨place, old, member, same⟩ | ⟨same, place⟩)
    · exact ⟨(kept_starts seen [item]).subset place, old, .inl member, same⟩
    · rw [same.1] at place
      exact ⟨place, item, .inr rfl, same⟩
  · rintro ⟨place, other, member | rfl, same⟩
    · have there : oxmClass type ∈ seen.map fun item => oxmClass item.type :=
        List.mem_map.mpr ⟨other, member, same.1⟩
      exact .inl ⟨(mem_kept_append there).mp place, other, member, same⟩
    · rw [same.1]
      exact .inr ⟨⟨rfl, same.2⟩, place⟩

def Detected (list : List Item) : Prop := Repeats (InKept list SameNumber) list

theorem pair_sublist_concat {a b : Item} : List.Sublist [a, b] (seen ++ [item]) ↔
    List.Sublist [a, b] seen ∨ a ∈ seen ∧ b = item := by
  rw [List.sublist_append_iff]
  constructor
  · rintro ⟨front, back, whole, inside, last⟩
    rcases List.sublist_singleton.mp last with rfl | rfl
    · rw [List.append_nil] at whole
      exact .inl (whole ▸ inside)
    · obtain ⟨rfl, same⟩ := List.append_inj' (show [a] ++ [b] = front ++ [item] from whole) rfl
      exact .inr ⟨List.singleton_sublist.mp inside, List.singleton_inj.mp same⟩
  · rintro (inside | ⟨member, rfl⟩)
    · exact ⟨[a, b], [], (List.append_nil _).symm, inside, List.nil_sublist _⟩
    · exact ⟨[a], [b], rfl, List.singleton_sublist.mpr member, List.Sublist.refl _⟩

theorem Detected.append (detected : Detected seen) (rest : List Item) :
    Detected (seen ++ rest) := by
  obtain ⟨a, b, both, place, same⟩ := detected
  exact ⟨a, b, both.trans (List.sublist_append_left ..), (kept_starts seen rest).subset place, same⟩

private theorem detected_concat (tracks : Tracks seen set) : Detected (seen ++ [item]) ↔
    Detected seen ∨ set.find item.type = true := by
  rw [tracks.fields]
  constructor
  · rintro ⟨a, b, both, place, same⟩
    rcases pair_sublist_concat.mp both with inside | ⟨member, rfl⟩
    · have there : oxmClass a.type ∈ seen.map fun item => oxmClass item.type :=
        List.mem_map_of_mem (inside.subset List.mem_cons_self)
      exact .inl ⟨a, b, inside, (mem_kept_append there).mp place, same⟩
    · have there : oxmClass a.type ∈ seen.map fun item => oxmClass item.type :=
        List.mem_map_of_mem member
      have before := (mem_kept_append there).mp place
      rw [same.1] at before
      exact .inr ⟨before, a, member, same⟩
  · rintro (detected | ⟨place, a, member, same⟩)
    · exact detected.append [item]
    · rw [← same.1] at place
      exact ⟨a, item, pair_sublist_concat.mpr (.inr ⟨member, rfl⟩),
        (kept_starts seen [item]).subset place, same⟩

private theorem detectLoop_iff (tracks : Tracks seen set) (fresh : ¬ Detected seen) :
    detectLoop set rest = true ↔ Detected (seen ++ rest) := by
  induction rest generalizing seen set with
  | nil => simp [detectLoop, fresh]
  | cons item rest ih =>
    have step : Detected (seen ++ [item]) ↔ Detected seen ∨ set.find item.type = true :=
      detected_concat tracks
    have whole : seen ++ item :: rest = seen ++ [item] ++ rest := by simp
    rw [detectLoop, OXMTypeSet.snd_add, whole]
    cases found : set.find item.type with
    | true =>
      have detected : Detected (seen ++ [item]) := step.mpr (.inr found)
      simp only [Bool.not_true, Bool.false_eq_true, not_false_eq_true, if_true, true_iff]
      exact detected.append rest
    | false =>
      have next : ¬ Detected (seen ++ [item]) := by simp [step, fresh, found]
      simpa using ih (tracks.add item) next

private theorem duplicateFieldsDetected_iff (range : Bytes) :
    duplicateFieldsDetected range = true ↔ Detected (items range) :=
  detectLoop_iff tracks_empty (by rintro ⟨a, b, both, -⟩; cases both)

end

section

variable {list : List Item}

private theorem sameNumber_iff {a b : Item} : SameNumber a b ↔ SameField a b ∨ Conflated a b := by
  unfold SameField Conflated
  tauto

theorem detected_iff : Detected list ↔
    Repeats (InKept list SameField) list ∨ Repeats (InKept list Conflated) list := by
  simp only [Detected, Repeats, InKept, sameNumber_iff, and_or_left, exists_or]

theorem Repeats.of_kept {same : Item → Item → Prop} (repeats : Repeats (InKept list same) list) :
    Repeats same list := by
  obtain ⟨a, b, both, -, related⟩ := repeats
  exact ⟨a, b, both, related⟩

/-- The search is exact when two experimenters' fields with one number come only with a
repeated field, and a repeated field comes with a repeated number in the first ten classes. -/
theorem duplicateFieldsDetected_exact_iff (range : Bytes) :
    (duplicateFieldsDetected range = true ↔ Repeats SameField (items range)) ↔
      (Repeats (InKept (items range) Conflated) (items range) →
          Repeats SameField (items range)) ∧
        (Repeats SameField (items range) →
          Repeats (InKept (items range) SameNumber) (items range)) := by
  rw [duplicateFieldsDetected_iff]
  constructor
  · intro exact
    exact ⟨fun conflated => exact.mp (detected_iff.mpr (.inr conflated)), exact.mpr⟩
  · rintro ⟨honest, complete⟩
    refine ⟨fun detected => ?_, complete⟩
    rcases detected_iff.mp detected with repeated | conflated
    · exact repeated.of_kept
    · exact honest conflated

def twoExperimenters : Bytes :=
  [0xFF, 0xFF, 2, 5, 0, 0, 0, 1, 7, 0xFF, 0xFF, 2, 5, 0, 0, 0, 2, 7]

def elevenClasses : Bytes :=
  ([1, 2, 3, 4, 5, 6, 7, 8, 9, 10, 11, 11] : List UInt8).flatMap fun c => [0, c, 0, 0]

theorem duplicateFieldsDetected_inexact :
    validateInput twoExperimenters ∧ duplicateFieldsDetected twoExperimenters = true ∧
      ¬ Repeats SameField (items twoExperimenters) ∧
      validateInput elevenClasses ∧ duplicateFieldsDetected elevenClasses = false ∧
      Repeats SameField (items elevenClasses) := by
  refine ⟨by decide, by decide, ?_, by decide, by decide, ?_⟩
  · rintro ⟨a, b, both, same⟩
    have list : items twoExperimenters =
        [⟨0xFFFF0205, [0, 0, 0, 1, 7]⟩, ⟨0xFFFF0205, [0, 0, 0, 2, 7]⟩] := by decide
    rw [list] at both
    have pair := both.eq_of_length rfl
    obtain ⟨rfl, rfl⟩ : a = ⟨0xFFFF0205, [0, 0, 0, 1, 7]⟩ ∧ b = ⟨0xFFFF0205, [0, 0, 0, 2, 7]⟩ := by
      simpa using pair
    exact absurd (same.2 (by decide)) (by decide)
  · have last : [⟨0x000B0000, []⟩, ⟨0x000B0000, []⟩] <:+ items elevenClasses :=
      ⟨(items elevenClasses).take 10, by decide⟩
    exact ⟨_, _, last.sublist, ⟨rfl, rfl⟩, fun _ => rfl⟩

end

end Libofp.Oxm.DuplicateFields
