/- GID: Libofp/Match/BlockRuns
   digest: What the steps of a match builder do to its blocks, and what holds of the blocks in
     every run. -/

import Libofp.Match.BlockSteps
import Mathlib.Data.List.Pairwise

set_option autoImplicit false

namespace Libofp.Match.BlockRuns

open Oxm.FieldTable Builder Needs Blocks

inductive Inserted (n : Need) (bs : List Block) : List Block → Prop where
  | met (meets : bs.any (·.meets n)) : Inserted n bs bs
  | pending (unmet : bs.any (·.meets n) = false) (many : ∀ c, n = .oneOf c → c.others ≠ []) :
    Inserted n bs (bs ++ [.pending n])
  | conflict (unmet : bs.any (·.meets n) = false) (taken : n.id ∈ fields bs) :
    Inserted n bs (bs ++ [.poison])
  | single (c : Choice) (same : n = .oneOf c) (one : c.others = []) (free : c.id ∉ fields bs) :
    Inserted n bs (bs ++ [.real c.field])

theorem insertNeed_cases (n : Need) (bs : List Block) : Inserted n bs (insertNeed bs n) := by
  rw [insertNeed.eq_def]
  split
  · next meets => exact .met meets
  · next unmet =>
    have unmet : bs.any (·.meets n) = false := by simpa using unmet
    cases n with
    | oneOf c =>
      by_cases many : c.others ≠ []
      · simp only [if_pos many]
        refine .pending unmet fun c' same => ?_
        cases same
        exact many
      · simp only [if_neg many]
        split
        · next taken => exact .conflict unmet taken
        · next free => exact .single c rfl (not_not.mp many) free
    | under m => exact .pending unmet nofun

/-- A field goes on past the block: it is about another field, or about bits that the field
does not have. -/
def Passes (f : Field) (b : Block) : Prop :=
  b.id? ≠ some f.id ∨ ∃ m, b = .pending (.under m) ∧ Need.accepts (.under m) f.value = false

inductive Placed (f : Field) : List Block → Option (List Block) → Prop where
  | absent {bs : List Block} (pass : ∀ b ∈ bs, Passes f b) : Placed f bs none
  | kept (before behind : List Block) (pass : ∀ b ∈ before, Passes f b) :
    Placed f (before ++ .real f :: behind) (some (before ++ .real f :: behind))
  | conflict (before behind : List Block) {g : Field} (pass : ∀ b ∈ before, Passes f b)
    (same : g.id = f.id) (other : g.value ≠ f.value) :
    Placed f (before ++ .real g :: behind) (some (before ++ .poison :: .real g :: behind))
  | chosen (before behind : List Block) {c : Choice} (pass : ∀ b ∈ before, Passes f b)
    (same : c.id = f.id) (offered : f.value ∈ c.values) (last : f.id ∉ fields behind) :
    Placed f (before ++ .pending (.oneOf c) :: behind) (some (before ++ .real f :: behind))
  | masked (before behind : List Block) {later : List Block} {m : Masking}
    (pass : ∀ b ∈ before, Passes f b) (same : m.id = f.id)
    (accepted : Need.accepts (.under m) f.value) (poisoned : poisonLater f.id behind = some later) :
    Placed f (before ++ .pending (.under m) :: behind) (some (before ++ .real f :: later))

theorem Placed.behind {f : Field} {b : Block} {bs : List Block} {r : Option (List Block)}
    (pass : Passes f b) (placed : Placed f bs r) : Placed f (b :: bs) (r.map (b :: ·)) := by
  have front {before : List Block} (all : ∀ b ∈ before, Passes f b) :
      ∀ b' ∈ b :: before, Passes f b' := List.forall_mem_cons.mpr ⟨pass, all⟩
  cases placed with
  | absent all => exact .absent (front all)
  | kept before behind all => exact .kept (b :: before) behind (front all)
  | conflict before behind all same other =>
    exact .conflict (b :: before) behind (front all) same other
  | chosen before behind all same offered last =>
    exact .chosen (b :: before) behind (front all) same offered last
  | masked before behind all same accepted poisoned =>
    exact .masked (b :: before) behind (front all) same accepted poisoned

theorem place_cases {f : Field} {bs : List Block} {r : Option (List Block)}
    (done : place f bs = some r) : Placed f bs r := by
  induction bs generalizing r with
  | nil =>
    cases done
    exact .absent (by simp)
  | cons b bs ih =>
    have later (pass : Passes f b) (found : (place f bs).map (Option.map (b :: ·)) = some r) :
        Placed f (b :: bs) r := by
      obtain ⟨r', rest, rfl⟩ := Option.map_eq_some_iff.mp found
      exact (ih rest).behind pass
    cases b with
    | real g =>
      rw [place] at done
      split at done
      · next same =>
        obtain rfl := Option.some.inj done
        split
        · next value =>
          obtain rfl : g = f := Field.ext same value
          exact .kept [] bs (by simp)
        · next other => exact .conflict [] bs (by simp) same other
      · next other => exact later (.inl (by simpa [Block.id?] using other)) done
    | pending n =>
      cases n with
      | oneOf c =>
        rw [place] at done
        split at done
        · next same =>
          split at done
          · next offered =>
            obtain rfl := Option.some.inj done
            exact .chosen [] bs (by simp) same
              (by simpa [Need.accepts] using offered.1) offered.2
          · cases done
        · next other => exact later (.inl (by simpa [Block.id?, Need.id] using other)) done
      | under m =>
        rw [place] at done
        split at done
        · next accepted =>
          obtain ⟨rest, found, rfl⟩ := Option.map_eq_some_iff.mp done
          exact .masked [] bs (by simp) accepted.1 accepted.2 found
        · next refused =>
          refine later ?_ done
          by_cases same : m.id = f.id
          · exact .inr ⟨m, rfl, by simpa [same] using refused⟩
          · exact .inl (by simpa [Block.id?, Need.id] using same)
    | poison => exact later (.inl (by simp [Block.id?])) done

theorem poisonLater_cases {id : InternalId} {bs bs' : List Block}
    (done : poisonLater id bs = some bs') :
    bs' = bs ∧ (∀ f, Block.real f ∈ bs → f.id ≠ id) ∨
      ∃ before g behind, bs = before ++ .real g :: behind ∧ g.id = id ∧
        bs' = before ++ .poison :: .real g :: behind := by
  induction bs generalizing bs' with
  | nil =>
    cases done
    exact .inl ⟨rfl, by simp⟩
  | cons b bs ih =>
    have later (other : ∀ f, b = .real f → f.id ≠ id)
        (found : (poisonLater id bs).map (b :: ·) = some bs') :
        bs' = b :: bs ∧ (∀ f, Block.real f ∈ b :: bs → f.id ≠ id) ∨
          ∃ before g behind, b :: bs = before ++ .real g :: behind ∧ g.id = id ∧
            bs' = before ++ .poison :: .real g :: behind := by
      obtain ⟨rest, inner, rfl⟩ := Option.map_eq_some_iff.mp found
      rcases ih inner with ⟨rfl, none⟩ | ⟨before, g, behind, rfl, same, rfl⟩
      · refine .inl ⟨rfl, fun f member => ?_⟩
        rcases List.mem_cons.mp member with first | inside
        · exact other f first.symm
        · exact none f inside
      · exact .inr ⟨b :: before, g, behind, rfl, same, rfl⟩
    cases b with
    | real g =>
      rw [poisonLater] at done
      split at done
      · next same =>
        obtain rfl := Option.some.inj done
        exact .inr ⟨[], g, bs, rfl, same, rfl⟩
      · next other =>
        refine later (fun f first => ?_) done
        cases first
        exact other
    | pending n =>
      cases n with
      | oneOf c =>
        rw [poisonLater] at done
        split at done
        · cases done
        · exact later (by simp) done
      | under m => exact later (by simp) done
    | poison => exact later (by simp) done

section

variable {f : Field} {b : Block} {bs bs' : List Block} {id : InternalId}

@[simp] theorem fields_nil : fields [] = [] := rfl

@[simp] theorem fields_poison (bs : List Block) : fields (.poison :: bs) = fields bs := rfl

@[simp] theorem fields_append (bs bs' : List Block) :
    fields (bs ++ bs') = fields bs ++ fields bs' := List.filterMap_append

@[simp] theorem fields_real (f : Field) (bs : List Block) :
    fields (.real f :: bs) = f.id :: fields bs := rfl

@[simp] theorem fields_pending (n : Need) (bs : List Block) :
    fields (.pending n :: bs) = n.id :: fields bs := rfl

theorem mem_fields_iff : id ∈ fields bs ↔ ∃ b ∈ bs, b.id? = some id := List.mem_filterMap

theorem mem_fields_of_real (member : .real f ∈ bs) : f.id ∈ fields bs :=
  mem_fields_iff.mpr ⟨_, member, rfl⟩

theorem mem_fields_of_pending {n : Need} (member : .pending n ∈ bs) : n.id ∈ fields bs :=
  mem_fields_iff.mpr ⟨_, member, rfl⟩

theorem id_of_meets {n : Need} (meets : b.meets n = true) : b.id? = some n.id := by
  cases b with
  | real f =>
    simp only [Block.meets, Bool.and_eq_true, beq_iff_eq] at meets
    rw [Block.id?, meets.1]
  | pending p =>
    simp only [Block.meets, Bool.and_eq_true, beq_iff_eq] at meets
    rw [Block.id?, meets.1]
  | poison => cases meets

theorem mem_fields_of_meets {n : Need} (meets : bs.any (·.meets n)) : n.id ∈ fields bs := by
  obtain ⟨b, member, met⟩ := List.any_eq_true.mp meets
  exact mem_fields_iff.mpr ⟨b, member, id_of_meets met⟩

private theorem fields_poisonLater (done : poisonLater id bs = some bs') :
    fields bs' = fields bs := by
  rcases poisonLater_cases done with ⟨rfl, -⟩ | ⟨before, g, behind, rfl, -, rfl⟩
  · rfl
  · simp

theorem reals_inserted {n : Need} (step : Inserted n bs bs') {g : Field}
    (member : .real g ∈ bs) : .real g ∈ bs' := by
  cases step with
  | met => exact member
  | pending => exact List.mem_append_left _ member
  | conflict => exact List.mem_append_left _ member
  | single => exact List.mem_append_left _ member

theorem reals_placed (placed : Placed f bs (some bs')) {g : Field} (member : .real g ∈ bs) :
    .real g ∈ bs' := by
  cases placed with
  | kept => exact member
  | conflict before behind => simpa using member
  | chosen before behind =>
    have inside : .real g ∈ before ∨ .real g ∈ behind := by simpa using member
    exact List.mem_append.mpr (inside.imp_right (List.mem_cons_of_mem _))
  | masked before behind _ _ _ poisoned =>
    have inside : .real g ∈ before ∨ .real g ∈ behind := by simpa using member
    refine List.mem_append.mpr (inside.imp_right fun late => List.mem_cons_of_mem _ ?_)
    rcases poisonLater_cases poisoned with ⟨rfl, -⟩ | ⟨between, g', rest, rfl, -, rfl⟩
    · exact late
    · simpa using late

theorem fields_placed (placed : Placed f bs (some bs')) : fields bs' = fields bs := by
  cases placed with
  | kept => rfl
  | conflict => simp
  | chosen _ _ _ same => simp [Need.id, same]
  | masked _ _ _ same _ poisoned => simp [Need.id, same, fields_poisonLater poisoned]

end

section

/-- Behind placeholders for values, their field occurs only in placeholders for other values. -/
def Apart (b b' : Block) : Prop :=
  ∀ c, b = .pending (.oneOf c) → b'.id? = some c.id →
    ∃ c', b' = .pending (.oneOf c') ∧ overlaps (.oneOf c) (.oneOf c') = false

structure Tidy (bs : List Block) : Prop where
  known : ∀ n, .pending n ∈ bs → n ∈ table
  apart : bs.Pairwise Apart

variable {f : Field} {n : Need} {bs bs' : List Block}

theorem apart_of_not_pending {b b' : Block} (other : ∀ c, b ≠ .pending (.oneOf c)) : Apart b b' :=
  fun c same => absurd same (other c)

theorem Tidy.append {b : Block} (tidy : Tidy bs) (known : ∀ n, b = .pending n → n ∈ table)
    (apart : ∀ b' ∈ bs, Apart b' b) : Tidy (bs ++ [b]) where
  known n member := by
    rcases List.mem_append.mp member with inside | last
    · exact tidy.known n inside
    · exact known n (List.mem_singleton.mp last).symm
  apart := by
    rw [List.pairwise_append]
    refine ⟨tidy.apart, List.pairwise_singleton .., ?_⟩
    intro b' member last final
    obtain rfl := List.mem_singleton.mp final
    exact apart b' member

theorem Tidy.inserted (tidy : Tidy bs) (listed : n ∈ table) (step : Inserted n bs bs') :
    Tidy bs' := by
  cases step with
  | met => exact tidy
  | pending unmet many =>
    refine tidy.append (fun n' same => by cases same; exact listed) ?_
    intro b' member c same about
    subst same
    simp only [Block.id?, Option.some.injEq] at about
    have kinds := (table_kinds _ (tidy.known _ member) n listed about.symm).1
    cases n with
    | oneOf c' =>
      refine ⟨c', rfl, ?_⟩
      have met := List.any_eq_false.mp unmet _ member
      have same : (Need.oneOf c).id = (Need.oneOf c').id := about.symm
      simpa [Block.meets, same] using met
    | under m => cases kinds
  | conflict unmet taken =>
    refine tidy.append (by simp) fun b' member c same about => ?_
    cases about
  | single c same one free =>
    refine tidy.append (by simp) fun b' member c' own about => ?_
    subst own
    have same : c.id = c'.id := Option.some.inj about
    exact absurd (same ▸ mem_fields_of_pending member) free

theorem Tidy.poison {before behind : List Block} (tidy : Tidy (before ++ behind)) :
    Tidy (before ++ .poison :: behind) where
  known n member := tidy.known n (by simpa using member)
  apart := by
    have pairs := tidy.apart
    rw [List.pairwise_append] at pairs ⊢
    refine ⟨pairs.1, List.pairwise_cons.mpr ⟨fun b' _ => apart_of_not_pending nofun, pairs.2.1⟩,
      fun b member b' later => ?_⟩
    rcases List.mem_cons.mp later with rfl | inside
    · exact fun c _ about => by cases about
    · exact pairs.2.2 b member b' inside

theorem not_apart_pass {b : Block} (pass : Passes f b) : Apart b (.real f) := by
  rintro c rfl about
  rcases pass with other | ⟨m, same, -⟩
  · exact absurd about.symm other
  · cases same

theorem Tidy.fill {before behind : List Block} {n : Need}
    (tidy : Tidy (before ++ .pending n :: behind)) (pass : ∀ b ∈ before, Passes f b) :
    Tidy (before ++ .real f :: behind) where
  known n' member := tidy.known n' (by
    rcases List.mem_append.mp member with inside | later
    · exact List.mem_append_left _ inside
    · exact List.mem_append_right _ (List.mem_cons_of_mem _ (by simpa using later)))
  apart := by
    have pairs := tidy.apart
    rw [List.pairwise_append, List.pairwise_cons] at pairs ⊢
    refine ⟨pairs.1, ⟨fun b' _ => apart_of_not_pending nofun, pairs.2.1.2⟩,
      fun b member b' later => ?_⟩
    rcases List.mem_cons.mp later with rfl | inside
    · exact not_apart_pass (pass b member)
    · exact pairs.2.2 b member b' (List.mem_cons_of_mem _ inside)

theorem Tidy.placed (tidy : Tidy bs) (step : Placed f bs (some bs')) : Tidy bs' := by
  cases step with
  | kept => exact tidy
  | conflict before behind pass same other => exact tidy.poison
  | chosen before behind pass same offered last => exact tidy.fill pass
  | masked before behind pass same accepted poisoned =>
    rcases poisonLater_cases poisoned with ⟨rfl, -⟩ | ⟨between, g, rest, rfl, -, rfl⟩
    · exact tidy.fill pass
    · have filled := tidy.fill pass
      rw [← List.cons_append, ← List.append_assoc] at filled ⊢
      exact filled.poison

theorem Tidy.appended (tidy : Tidy bs) (step : Placed f bs none) : Tidy (bs ++ [.real f]) := by
  cases step with
  | absent pass => exact tidy.append nofun fun b member => not_apart_pass (pass b member)

end

section

structure Clean (bs : List Block) : Prop where
  wholesome : .poison ∉ bs
  once : (fields bs).Nodup

/-- There is poison, or placeholders whose field occurs a second time. No step takes that
away. -/
def Spoilt (bs : List Block) : Prop :=
  .poison ∈ bs ∨ ∃ n, .pending n ∈ bs ∧ 2 ≤ (fields bs).count n.id

variable {f : Field} {n : Need} {bs bs' : List Block}

theorem Clean.unique (clean : Clean bs) {b b' : Block} (member : b ∈ bs) (member' : b' ∈ bs)
    {id : InternalId} (about : b.id? = some id) (about' : b'.id? = some id) : b = b' := by
  have symmetric : Std.Symm fun x y : Block =>
      ∀ i, x.id? = some i → ∀ j, y.id? = some j → i ≠ j :=
    ⟨fun x y apart i first j second => (apart j second i first).symm⟩
  have pairs := List.pairwise_filterMap.mp clean.once
  by_contra other
  exact pairs.forall member member' other id about id about' rfl

theorem Clean.not_spoilt (clean : Clean bs) : ¬ Spoilt bs := by
  rintro (poison | ⟨n, -, twice⟩)
  · exact clean.wholesome poison
  · have once := List.nodup_iff_count.mp clean.once n.id
    omega

theorem Spoilt.append (spoilt : Spoilt bs) (more : List Block) : Spoilt (bs ++ more) := by
  rcases spoilt with poison | ⟨n, member, twice⟩
  · exact .inl (List.mem_append_left _ poison)
  · refine .inr ⟨n, List.mem_append_left _ member, ?_⟩
    rw [fields_append, List.count_append]
    omega

theorem Spoilt.inserted (spoilt : Spoilt bs) (step : Inserted n bs bs') : Spoilt bs' := by
  cases step with
  | met => exact spoilt
  | pending => exact spoilt.append _
  | conflict => exact spoilt.append _
  | single => exact spoilt.append _

private theorem mem_of_count {id : InternalId} {before behind : List InternalId}
    (twice : 2 ≤ (before ++ id :: behind).count id) : id ∈ before ∨ id ∈ behind := by
  rw [List.count_append, List.count_cons_self] at twice
  by_contra neither
  rw [not_or] at neither
  rw [List.count_eq_zero_of_not_mem neither.1, List.count_eq_zero_of_not_mem neither.2] at twice
  omega

theorem pending_of_pass {before : List Block} (pass : ∀ b ∈ before, Passes f b)
    (about : f.id ∈ fields before) : ∃ m, .pending (.under m) ∈ before ∧ m.id = f.id := by
  obtain ⟨b, member, same⟩ := mem_fields_iff.mp about
  rcases pass b member with other | ⟨m, rfl, -⟩
  · exact absurd same other
  · exact ⟨m, member, Option.some.inj same⟩

theorem Spoilt.fill {before behind : List Block} {p : Need}
    (spoilt : Spoilt (before ++ .pending p :: behind)) (same : p.id = f.id)
    (pass : ∀ b ∈ before, Passes f b) (last : ∀ g, .real g ∈ behind → g.id ≠ f.id) :
    Spoilt (before ++ .real f :: behind) := by
  have count (id : InternalId) : (fields (before ++ .real f :: behind)).count id =
      (fields (before ++ .pending p :: behind)).count id := by simp [same]
  rcases spoilt with poison | ⟨n, member, twice⟩
  · exact .inl (by simpa using poison)
  · by_cases own : n.id = f.id
    · -- The other block about the field is pending as well.
      have again : ∃ n', .pending n' ∈ before ++ behind ∧ n'.id = f.id := by
        rw [fields_append, fields_pending, same, own] at twice
        rcases mem_of_count twice with early | late
        · obtain ⟨m, inside, about⟩ := pending_of_pass pass early
          exact ⟨.under m, List.mem_append_left _ inside, about⟩
        · obtain ⟨b, inside, about⟩ := mem_fields_iff.mp late
          cases b with
          | real g => exact absurd (Option.some.inj about) (last g inside)
          | pending n' => exact ⟨n', List.mem_append_right _ inside, Option.some.inj about⟩
          | poison => cases about
      obtain ⟨n', inside, about⟩ := again
      refine .inr ⟨n', ?_, ?_⟩
      · simpa using inside
      · rwa [count, about, ← own]
    · have other : Block.pending n ≠ .pending p := fun eq => by
        cases eq
        exact own same
      refine .inr ⟨n, ?_, by rwa [count]⟩
      simpa [other] using member

theorem Spoilt.placed (spoilt : Spoilt bs) (step : Placed f bs (some bs')) : Spoilt bs' := by
  cases step with
  | kept => exact spoilt
  | conflict before behind => exact .inl (by simp)
  | chosen before behind pass same offered last =>
    exact spoilt.fill same pass fun g member about => last (about ▸ mem_fields_of_real member)
  | masked before behind pass same accepted poisoned =>
    rcases poisonLater_cases poisoned with ⟨rfl, last⟩ | ⟨between, g, rest, rfl, -, rfl⟩
    · exact spoilt.fill same pass last
    · exact .inl (by simp)

theorem Clean.append {b : Block} (clean : Clean bs) (wholesome : b ≠ .poison)
    (free : ∀ id, b.id? = some id → id ∉ fields bs) : Clean (bs ++ [b]) where
  wholesome member := by
    rcases List.mem_append.mp member with inside | last
    · exact clean.wholesome inside
    · exact wholesome (List.mem_singleton.mp last).symm
  once := by
    rw [fields_append, List.nodup_append]
    refine ⟨clean.once, by cases b <;> simp, ?_⟩
    rintro id early id' late rfl
    obtain ⟨b', member, about⟩ := mem_fields_iff.mp late
    obtain rfl := List.mem_singleton.mp member
    exact free id about early

theorem Clean.inserted (clean : Clean bs) (step : Inserted n bs bs') :
    Clean bs' ∨ Spoilt bs' := by
  cases step with
  | met => exact .inl clean
  | pending unmet many =>
    by_cases taken : n.id ∈ fields bs
    · refine .inr (.inr ⟨n, by simp, ?_⟩)
      have early := List.count_pos_iff.mpr taken
      simp only [fields_append, fields_pending, fields_nil, List.count_append,
        List.count_singleton_self]
      omega
    · refine .inl (clean.append nofun fun id about => ?_)
      cases about
      exact taken
  | conflict => exact .inr (.inl (by simp))
  | single c same one free =>
    refine .inl (clean.append nofun fun id about => ?_)
    cases about
    exact free

theorem Clean.fill {before behind : List Block} {p : Need}
    (clean : Clean (before ++ .pending p :: behind)) (same : p.id = f.id) :
    Clean (before ++ .real f :: behind) where
  wholesome := by simpa using clean.wholesome
  once := by simpa [same] using clean.once

theorem Clean.placed (clean : Clean bs) (step : Placed f bs (some bs')) :
    Clean bs' ∧ .real f ∈ bs' ∨ Spoilt bs' := by
  cases step with
  | kept => exact .inl ⟨clean, by simp⟩
  | conflict => exact .inr (.inl (by simp))
  | chosen before behind pass same offered last => exact .inl ⟨clean.fill same, by simp⟩
  | masked before behind pass same accepted poisoned =>
    rcases poisonLater_cases poisoned with ⟨rfl, -⟩ | ⟨between, g, rest, rfl, about, rfl⟩
    · exact .inl ⟨clean.fill same, by simp⟩
    · exact .inr (.inl (by simp))

theorem Clean.appended (clean : Clean bs) (step : Placed f bs none) :
    Clean (bs ++ [.real f]) ∨ Spoilt (bs ++ [.real f]) := by
  cases step with
  | absent pass =>
    by_cases taken : f.id ∈ fields bs
    · obtain ⟨m, member, about⟩ := pending_of_pass pass taken
      refine .inr (.inr ⟨.under m, List.mem_append_left _ member, ?_⟩)
      have early := List.count_pos_iff.mpr taken
      simp only [Need.id, about, fields_append, fields_real, fields_nil, List.count_append,
        List.count_singleton_self]
      omega
    · refine .inl (clean.append (by simp) fun id about => ?_)
      cases about
      exact taken

end

section

variable {f : Field} {n : Need} {bs bs' : List Block}

/-- The placeholders of the field do not refuse it: a value of the field comes before them, or
each of them offers the value. -/
def Ready (f : Field) (bs : List Block) : Prop :=
  (∃ before g behind, bs = before ++ .real g :: behind ∧ g.id = f.id ∧
      ∀ c, .pending (.oneOf c) ∈ before → c.id ≠ f.id) ∨
    ∀ c, .pending (.oneOf c) ∈ bs → c.id = f.id → f.value ∈ c.values

private theorem exists_poisonLater {id : InternalId}
    (other : ∀ c, .pending (.oneOf c) ∈ bs → c.id ≠ id) :
    ∃ bs', poisonLater id bs = some bs' := by
  induction bs with
  | nil => exact ⟨[], rfl⟩
  | cons b bs ih =>
    obtain ⟨rest, found⟩ := ih fun c member => other c (List.mem_cons_of_mem _ member)
    cases b with
    | real g =>
      rw [poisonLater, found]
      split
      · exact ⟨_, rfl⟩
      · exact ⟨_, rfl⟩
    | pending p =>
      cases p with
      | oneOf c =>
        rw [poisonLater, if_neg (other c List.mem_cons_self), found]
        exact ⟨_, rfl⟩
      | under m =>
        rw [poisonLater, found]
        · exact ⟨_, rfl⟩
        · simp
        · simp
    | poison =>
      rw [poisonLater, found]
      · exact ⟨_, rfl⟩
      · simp
      · simp

theorem Ready.tail {b : Block} (ready : Ready f (b :: bs))
    (other : ∀ g, b = .real g → g.id ≠ f.id) :
    Ready f bs := by
  rcases ready with ⟨before, g, behind, split, same, early⟩ | offered
  · cases before with
    | nil =>
      cases split
      exact absurd same (other g rfl)
    | cons first before =>
      cases split
      exact .inl ⟨before, g, behind, rfl, same, fun c member =>
        early c (List.mem_cons_of_mem _ member)⟩
  · exact .inr fun c member => offered c (List.mem_cons_of_mem _ member)

theorem Tidy.tail {b : Block} (tidy : Tidy (b :: bs)) : Tidy bs where
  known n member := tidy.known n (List.mem_cons_of_mem _ member)
  apart := (List.pairwise_cons.mp tidy.apart).2

theorem exists_place (tidy : Tidy bs) (ready : Ready f bs) : ∃ r, place f bs = some r := by
  induction bs with
  | nil => exact ⟨none, rfl⟩
  | cons b bs ih =>
    have later (other : ∀ g, b = .real g → g.id ≠ f.id) :
        ∃ r, (place f bs).map (Option.map (b :: ·)) = some r := by
      obtain ⟨r, found⟩ := ih tidy.tail (ready.tail other)
      exact ⟨r.map (b :: ·), by rw [found, Option.map_some]⟩
    cases b with
    | real g =>
      rw [place]
      split
      · exact ⟨_, rfl⟩
      · next other => exact later fun g' same => by cases same; exact other
    | pending p =>
      cases p with
      | oneOf c =>
        rw [place]
        split
        · next own =>
          have offered : ∀ c', .pending (.oneOf c') ∈ Block.pending (.oneOf c) :: bs →
              c'.id = f.id → f.value ∈ c'.values := by
            rcases ready with ⟨before, g, behind, split, same, early⟩ | offered
            · cases before with
              | nil => cases split
              | cons first before =>
                cases split
                exact absurd own (early c List.mem_cons_self)
            · exact offered
          have first := offered c List.mem_cons_self own
          -- Placeholders of the field further on would have no value in common with these.
          have last : f.id ∉ fields bs := by
            intro again
            obtain ⟨b, member, about⟩ := mem_fields_iff.mp again
            obtain ⟨c', rfl, disjoint⟩ :=
              (List.pairwise_cons.mp tidy.apart).1 b member c rfl (own ▸ about)
            have second := offered c' (List.mem_cons_of_mem _ member) (Option.some.inj about)
            have common : overlaps (.oneOf c) (.oneOf c') = true :=
              List.any_eq_true.mpr ⟨f.value, first, by simpa [Need.accepts] using second⟩
            rw [common] at disjoint
            cases disjoint
          rw [if_pos ⟨by simpa [Need.accepts] using first, last⟩]
          exact ⟨_, rfl⟩
        · exact later (by simp)
      | under m =>
        rw [place]
        split
        · next accepted =>
          have other : ∀ c, .pending (.oneOf c) ∈ bs → c.id ≠ f.id := by
            intro c member same
            have kinds := table_kinds _ (tidy.known _ List.mem_cons_self) _
              (tidy.known _ (List.mem_cons_of_mem _ member)) (accepted.1.trans same.symm)
            cases kinds.1
          obtain ⟨rest, found⟩ := exists_poisonLater other
          rw [found]
          exact ⟨_, rfl⟩
        · exact later (by simp)
    | poison =>
      rw [place]
      exact later (by simp)

theorem Ready.append (ready : Ready f bs) {b : Block} (other : b.id? ≠ some f.id) :
    Ready f (bs ++ [b]) := by
  rcases ready with ⟨before, g, behind, rfl, same, early⟩ | offered
  · exact .inl ⟨before, g, behind ++ [b], by simp, same, early⟩
  · refine .inr fun c member same => ?_
    rcases List.mem_append.mp member with inside | last
    · exact offered c inside same
    · obtain rfl := List.mem_singleton.mp last
      exact absurd (congrArg some same) other

theorem Ready.inserted (ready : Ready f bs) (other : n.id ≠ f.id) (step : Inserted n bs bs') :
    Ready f bs' := by
  cases step with
  | met => exact ready
  | pending => exact ready.append (by simpa [Block.id?] using other)
  | conflict => exact ready.append (by simp [Block.id?])
  | single c same =>
    subst same
    exact ready.append (by simpa [Block.id?, Choice.field, Need.id] using other)

end

section

variable {f : Field} {bs : List Block}

/-- The blocks of a run: tidy, and either spoilt or clean with all fields in them. -/
structure Reached (done : List Field) (bs : List Block) : Prop where
  tidy : Tidy bs
  whole : Spoilt bs ∨ Clean bs ∧ ∀ f ∈ done, .real f ∈ bs

theorem Reached.inserted {done : List Field} {n : Need} {bs' : List Block}
    (reached : Reached done bs) (listed : n ∈ table) (step : Inserted n bs bs') :
    Reached done bs' where
  tidy := reached.tidy.inserted listed step
  whole := by
    rcases reached.whole with spoilt | ⟨clean, kept⟩
    · exact .inl (spoilt.inserted step)
    · rcases clean.inserted step with clean' | spoilt
      · exact .inr ⟨clean', fun f member => reals_inserted step (kept f member)⟩
      · exact .inl spoilt

theorem Reached.addField {done : List Field} (reached : Reached done bs) (ready : Ready f bs) :
    ∃ bs', addField bs f = some bs' ∧ Reached (done ++ [f]) bs' := by
  have insertion : Reached done ((needs f.id).foldl insertNeed bs) ∧
      Ready f ((needs f.id).foldl insertNeed bs) := by
    have listed := needs_subset_table f.id
    have other := needs_id_ne f.id
    generalize needs f.id = ns at listed other
    induction ns generalizing bs with
    | nil => exact ⟨reached, ready⟩
    | cons n ns ih =>
      rw [List.forall_mem_cons] at listed other
      have step := insertNeed_cases n bs
      exact ih (reached.inserted listed.1 step) (ready.inserted other.1 step) listed.2 other.2
  obtain ⟨inserted, ready⟩ := insertion
  obtain ⟨r, found⟩ := exists_place inserted.tidy ready
  have step := place_cases found
  cases r with
  | none =>
    refine ⟨_, by rw [Blocks.addField, found]; rfl, inserted.tidy.appended step, ?_⟩
    rcases inserted.whole with spoilt | ⟨clean, kept⟩
    · exact .inl (spoilt.append _)
    · rcases clean.appended step with clean' | spoilt
      · refine .inr ⟨clean', fun g member => ?_⟩
        rcases List.mem_append.mp member with early | last
        · exact List.mem_append_left _ (kept g early)
        · rw [List.mem_singleton.mp last]
          exact List.mem_append_right _ List.mem_cons_self
      · exact .inl spoilt
  | some bs' =>
    refine ⟨bs', by rw [Blocks.addField, found]; rfl, inserted.tidy.placed step, ?_⟩
    rcases inserted.whole with spoilt | ⟨clean, kept⟩
    · exact .inl (spoilt.placed step)
    · rcases clean.placed step with ⟨clean', own⟩ | spoilt
      · refine .inr ⟨clean', fun g member => ?_⟩
        rcases List.mem_append.mp member with early | last
        · exact reals_placed step (kept g early)
        · rwa [List.mem_singleton.mp last]
      · exact .inl spoilt

theorem not_validate_of_spoilt (spoilt : Spoilt bs) : validate (flatten bs) = false := by
  rw [Bool.eq_false_iff]
  intro valid
  obtain ⟨fs, rfl, -⟩ := BlockSteps.validate_flatten_iff.mp valid
  rcases spoilt with poison | ⟨n, member, -⟩
  · simp at poison
  · simp at member

end

end Libofp.Match.BlockRuns
