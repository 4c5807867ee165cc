/- GID: Libofp/Match/KeptFields
   digest: A match builder keeps the fields that are added to it, as long as no placeholders
     refuse one. -/

import Libofp.Match.BlockRuns
import Mathlib.Data.List.Induction

set_option autoImplicit false

namespace Libofp.Match.KeptFields

open Octets.ByteRange Oxm.Range Oxm.FieldTable Oxm.Prerequisites
open Builder Needs Blocks BlockRuns

def startsGroup (type : Nat) (item : Item) (rest : List Item) : Bool :=
  item.type == kValuePrereqSignal && rest.head?.any fun preq => preq.type == type

def realFirst (type : Nat) : List Item → Bool
  | [] => false
  | item :: rest =>
    item.type == type || !startsGroup type item rest && realFirst type rest

def groupsOffer (type : Nat) (value : Bytes) : List Item → Bool
  | [] => true
  | item :: rest =>
    (!startsGroup type item rest || (front type rest).any fun preq => preq.payload == value) &&
      groupsOffer type value rest

def Welcomes (list : List Item) (field : Field) : Prop :=
  realFirst field.id.type list ∨ groupsOffer field.id.type field.value list

instance (list : List Item) (field : Field) : Decidable (Welcomes list field) :=
  inferInstanceAs (Decidable (_ ∨ _))

def Welcomed (fields : List Field) : Prop :=
  ∀ done field, done ++ [field] <+: fields → ∀ list, build done = some list → Welcomes list field

section

variable {f : Field} {bs : List Block}

theorem realFirst_append {type : Nat} {xs ys : List Item} (other : ∀ x ∈ xs, x.type ≠ type)
    (real : realFirst type (xs ++ ys)) : realFirst type ys := by
  induction xs with
  | nil => exact real
  | cons x xs ih =>
    rw [List.forall_mem_cons] at other
    simp only [List.cons_append, realFirst, other.1, beq_eq_false_iff_ne.mpr, Bool.false_or,
      Bool.and_eq_true, ne_eq, not_false_eq_true] at real
    exact ih other.2 real.2

private theorem groupsOffer_append {type : Nat} {value : Bytes} {xs ys : List Item}
    (offer : groupsOffer type value (xs ++ ys)) : groupsOffer type value ys := by
  induction xs with
  | nil => exact offer
  | cons x xs ih =>
    simp only [List.cons_append, groupsOffer, Bool.and_eq_true] at offer
    exact ih offer.2

theorem startsGroup_iff (c : Choice) (rest : List Item) :
    startsGroup f.id.type (signal kValuePrereqSignal) ((Need.oneOf c).items ++ rest) = true ↔
      c.id = f.id := by
  simp [startsGroup, signal, Need.items, Choice.values, type_inj f.regular]

private theorem exists_real (first : realFirst f.id.type (flatten bs)) :
    ∃ before g behind, bs = before ++ .real g :: behind ∧ g.id = f.id ∧
      ∀ c, .pending (.oneOf c) ∈ before → c.id ≠ f.id := by
  induction bs with
  | nil => cases first
  | cons b bs ih =>
    rw [flatten, List.flatMap_cons, ← flatten] at first
    have later (other : ∀ c, b = .pending (.oneOf c) → c.id ≠ f.id)
        (rest : realFirst f.id.type (flatten bs)) :
        ∃ before g behind, b :: bs = before ++ .real g :: behind ∧ g.id = f.id ∧
          ∀ c, .pending (.oneOf c) ∈ before → c.id ≠ f.id := by
      obtain ⟨before, g, behind, rfl, same, early⟩ := ih rest
      refine ⟨b :: before, g, behind, rfl, same, fun c member => ?_⟩
      rcases List.mem_cons.mp member with own | inside
      · exact other c own.symm
      · exact early c inside
    by_cases about : b.id? = some f.id
    · cases b with
      | real g => exact ⟨[], g, bs, rfl, Option.some.inj about, by simp⟩
      | pending n =>
        cases n with
        | oneOf c =>
          have starts := (startsGroup_iff c (flatten bs)).mpr (Option.some.inj about)
          have bare : (signal kValuePrereqSignal).type ≠ f.id.type := (signal_ne_type f.id).2.1
          simp [Block.items, realFirst, starts, bare] at first
        | under m =>
          have bare := signal_ne_type f.id
          have masked : ¬ m.id.typeWithMask = f.id.type :=
            fun same => type_ne_typeWithMask _ _ same.symm
          exact later (by simp) (realFirst_append
            (by simp [Block.items, Need.items, signal, bare, masked]) first)
      | poison => cases about
    · refine later (fun c same => ?_) (realFirst_append
        (BlockSteps.items_ne_type f.regular about) first)
      subst same
      exact fun same => about (congrArg some same)

private theorem head_ne_type {c : Choice} (tidy : Tidy (.pending (.oneOf c) :: bs)) :
    ∀ item ∈ (flatten bs).head?, item.type ≠ c.id.type := by
  have signals := signal_ne_type c.id
  cases bs with
  | nil => simp [flatten]
  | cons b bs =>
    have apart := (List.pairwise_cons.mp tidy.apart).1 b List.mem_cons_self c rfl
    cases b with
    | real g =>
      have other : ¬ g.id.type = c.id.type := by
        intro type
        obtain ⟨c', same, -⟩ := apart (congrArg some ((type_inj c.regular).mp type))
        cases same
      simpa [flatten, Block.items, Field.item] using other
    | pending n =>
      cases n with
      | oneOf c' => simpa [flatten, Block.items, signal] using signals.2.1
      | under m => simpa [flatten, Block.items, signal] using signals.1
    | poison => simpa [flatten, Block.items, signal] using signals.2.2

private theorem offered_of_groupsOffer (tidy : Tidy bs)
    (offer : groupsOffer f.id.type f.value (flatten bs)) :
    ∀ c, .pending (.oneOf c) ∈ bs → c.id = f.id → f.value ∈ c.values := by
  induction bs with
  | nil => simp
  | cons b bs ih =>
    intro c member same
    rcases List.mem_cons.mp member with rfl | later
    · have starts := (startsGroup_iff c (flatten bs)).mpr same
      have own : ∀ preq ∈ (Need.oneOf c).items, preq.type = f.id.type := by
        intro preq listed
        rw [type_of_mem_items listed, ← same]
        rfl
      have values : front f.id.type ((Need.oneOf c).items ++ flatten bs) = (Need.oneOf c).items :=
        front_append own (by rw [← same]; exact head_ne_type tidy)
      rw [flatten, List.flatMap_cons, ← flatten, Block.items, List.cons_append, groupsOffer,
        starts, values] at offer
      have offered := (Bool.and_eq_true_iff.mp offer).1
      simpa [Need.items] using offered
    · exact ih tidy.tail (groupsOffer_append offer) c later same

private theorem ready_of_welcomes (tidy : Tidy bs) (welcome : Welcomes (flatten bs) f) :
    Ready f bs :=
  welcome.imp exists_real (offered_of_groupsOffer tidy)

end

theorem build_append (done : List Field) (f : Field) :
    build (done ++ [f]) = (build done).bind (add · f) := by
  simp [build]

theorem exists_reached {fields : List Field} (welcomed : Welcomed fields) :
    ∃ bs, build fields = some (flatten bs) ∧ Reached fields bs := by
  induction fields using List.reverseRecOn with
  | nil => exact ⟨[], rfl, ⟨⟨by simp, .nil⟩, .inr ⟨⟨by simp, .nil⟩, by simp⟩⟩⟩
  | append_singleton done f ih =>
    obtain ⟨bs, built, reached⟩ := ih fun front field place list built =>
      welcomed front field (place.trans ⟨[f], rfl⟩) list built
    have welcome := welcomed done f ⟨[], by simp⟩ (flatten bs) built
    obtain ⟨bs', added, reached'⟩ := reached.addField (ready_of_welcomes reached.tidy welcome)
    refine ⟨bs', ?_, reached'⟩
    rw [build_append, built, Option.bind_some, BlockSteps.add_flatten added]

/-- In a run whose calls are all welcome, no assertion fires and a valid list has all the
fields that were added. -/
theorem build_keeps_fields (fields : List Field) (welcomed : Welcomed fields) :
    ∃ list, build fields = some list ∧
      (validate list = true → ∀ f ∈ fields, f.item ∈ list) := by
  obtain ⟨bs, built, reached⟩ := exists_reached welcomed
  refine ⟨flatten bs, built, fun valid f member => ?_⟩
  rcases reached.whole with spoilt | ⟨-, kept⟩
  · rw [not_validate_of_spoilt spoilt] at valid
    cases valid
  · exact List.mem_flatMap.mpr ⟨_, kept f member, List.mem_singleton.mpr rfl⟩

def tcpSrc80 : Field := ⟨.tcpSrc, [0, 80], rfl, rfl⟩

private theorem ethType_regular : InternalId.isExperimenter .ethType = false := rfl

def ethType (value : Bytes) (sized : value.length = 2) : Field :=
  ⟨.ethType, value, sized, ethType_regular⟩

private theorem tcpSrc_built : build [tcpSrc80] = some [signal kValuePrereqSignal,
    ⟨0x80000a02, [0x08, 0x00]⟩, ⟨0x80000a02, [0x86, 0xdd]⟩, ⟨0x80001401, [6]⟩,
    tcpSrc80.item] := by
  decide +kernel

theorem build_keeps_tcpSrc : Welcomed [tcpSrc80, ethType [0x08, 0x00] rfl] ∧
    ∃ list, build [tcpSrc80, ethType [0x08, 0x00] rfl] = some list ∧
      validate list = true ∧ ∀ f ∈ [tcpSrc80, ethType [0x08, 0x00] rfl], f.item ∈ list := by
  have welcomed : Welcomed [tcpSrc80, ethType [0x08, 0x00] rfl] := by
    rintro done field ⟨behind, split⟩ list built
    rcases done with _ | ⟨first, _ | ⟨second, done⟩⟩
    · cases split
      cases built
      decide
    · cases split
      obtain rfl : list = _ := Option.some.inj (built.symm.trans tcpSrc_built)
      decide
    · simp at split
  obtain ⟨list, built, kept⟩ := build_keeps_fields _ welcomed
  have valid : (build [tcpSrc80, ethType [0x08, 0x00] rfl]).all validate = true := by
    decide +kernel
  rw [built] at valid
  exact ⟨welcomed, list, built, valid, kept valid⟩

/-- The alternatives for the Ethernet type that a TCP port brings along do not offer ARP. -/
theorem ethType_refused : ¬ ∃ list, build [tcpSrc80, ethType [0x08, 0x06] rfl] = some list ∧
    (validate list = true → ∀ f ∈ [tcpSrc80, ethType [0x08, 0x06] rfl], f.item ∈ list) := by
  rintro ⟨list, built, -⟩
  have refused : build [tcpSrc80, ethType [0x08, 0x06] rfl] = none := by decide +kernel
  rw [refused] at built
  cases built

end Libofp.Match.KeptFields
