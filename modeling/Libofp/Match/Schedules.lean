/- GID: Libofp/Match/Schedules
   digest: An order of adding the fields of a set that leads to a valid list, whenever the set
     allows for one. -/

import Libofp.Match.OrderRuns
import Mathlib.Data.List.Sort

set_option autoImplicit false

namespace Libofp.Match.Schedules

open Oxm.FieldTable
open Builder Needs Blocks BlockSteps
open BlockRuns KeptFields SettledFields OrderRuns

def isManifold : Need → Bool
  | .oneOf c => !c.others.isEmpty
  | .under _ => false

theorem isManifold_oneOf (c : Choice) : isManifold (.oneOf c) = true ↔ c.others ≠ [] := by
  simp [isManifold]

private theorem table_manifold : ∀ n ∈ table, isManifold n = true →
    n.id = .ethType ∨ n.id = .icmpv6Type := by
  decide

theorem table_common : ∀ n ∈ table, ∀ n' ∈ table, isManifold n = true → isManifold n' = true →
    n.id = n'.id → overlaps n n' = true → n = n' := by
  decide

private theorem needs_single_or_protocol (id : InternalId) : needs id = [] ∨
    ∃ n ∈ needs id, needs id = [n] ∨ n.id = .ipProto := by
  cases id <;> decide

private theorem needs_of_needed (id : InternalId) : ∀ n ∈ needs id, n.isChoice = true →
    ∀ m ∈ needs n.id, needs n.id = [m] → isManifold m = true := by
  cases id <;> decide

private theorem ipv6_mem_needs (id : InternalId) :
    (id = .icmpv6Type ∨ ∃ n ∈ needs id, n.id = .icmpv6Type) → ipv6 ∈ needs id := by
  cases id <;> decide

section

variable {fs done : List Field} {bs bs' : List Block} {n : Need} {f g : Field}

/-- Every need of the set on the field of `g` accepts its value. -/
def Unopposed (fs : List Field) (g : Field) : Prop :=
  ∀ n, Needed fs n → n.id = g.id → n.accepts g.value = true

def Unmentioned (done : List Field) (id : InternalId) : Prop :=
  ∀ d ∈ done, d.id ≠ id ∧ ∀ n ∈ needs d.id, n.id ≠ id

/-- A field may come next: where it is the first to concern another field, it has alternatives
if there is opposition to a value of the set and one value if the set has none; and the value
that it opposes comes later. -/
structure Fits (fs done : List Field) (f : Field) : Prop where
  opening : ∀ n ∈ needs f.id, Unmentioned done n.id →
    (∀ g ∈ fs, g.id = n.id → Unopposed fs g ∨ isManifold n = true) ∧
      ((∀ g ∈ fs, g.id ≠ n.id) → isManifold n = false)
  late : ∀ n ∈ needs f.id, ∀ g ∈ fs, g.id = n.id → n.accepts g.value = false → g ∉ done

structure Steered (fs done : List Field) (bs : List Block) : Prop where
  inside : ∀ d ∈ done, d ∈ fs
  following : Following fs bs
  value : ∀ g, .real g ∈ bs → g ∈ done ∨ Unopposed fs g
  alternatives : ∀ n, .pending n ∈ bs → Needed fs n ∧ ∀ c, n = .oneOf c → c.others ≠ []
  mentioned : ∀ id, id ∉ fields bs → Unmentioned done id

private theorem overlaps_of_covered {p : Need} (accepted : ¬ Refused fs) (inside : g ∈ fs)
    (target : g.id = p.id) (offered : p.accepts g.value = true) (known : Needed fs p)
    (many : ∀ c, p = .oneOf c → c.others ≠ []) (same : p.id = n.id) (needed : Needed fs n)
    (covered : Covered fs n) : overlaps p n = true := by
  obtain ⟨c, rfl, one, c', needed', many', about, first⟩ := covered
  have kinds := (table_kinds p known.table _ needed.table same).1
  cases p with
  | under m => cases kinds
  | oneOf c₀ =>
    have value : (Need.oneOf c').accepts g.value = true := by
      have listed := mem_values_of_not_refused accepted inside needed' many'
        (about.trans (same.symm.trans target.symm))
      simpa [Need.accepts] using listed
    have common := overlaps_of_accepts known.table needed'.table (same.trans about.symm)
      offered value
    have equal := table_common _ known.table _ needed'.table
      ((isManifold_oneOf c₀).mpr (many c₀ rfl)) ((isManifold_oneOf c').mpr many')
      (same.trans about.symm) common
    cases equal
    exact List.any_eq_true.mpr ⟨c.first, first, by simp [Need.accepts, Choice.values]⟩

section

variable (steered : Steered fs done bs)

include steered

theorem Steered.meets (distinct : Distinct fs)
    (accepted : ¬ Refused fs) (agreeable : Agreeable fs) (fits : Fits fs done f) (own : f ∈ fs)
    (listed : n ∈ needs f.id) (taken : n.id ∈ fields bs) : bs.any (·.meets n) = true := by
  have needed : Needed fs n := ⟨f, own, listed⟩
  obtain ⟨b, member, about⟩ := mem_fields_iff.mp taken
  refine List.any_eq_true.mpr ⟨b, member, ?_⟩
  cases b with
  | real g =>
    have same : g.id = n.id := Option.some.inj about
    have value : n.accepts g.value = true := by
      by_contra refused
      rcases steered.value g member with early | unopposed
      · exact fits.late n listed g (steered.inside g early) same (by simpa using refused) early
      · exact refused (unopposed n needed same.symm)
    simp [Block.meets, same, value]
  | pending p =>
    have same : p.id = n.id := Option.some.inj about
    obtain ⟨g, inside, target, offered⟩ := steered.following.pending p member
    obtain ⟨known, many⟩ := steered.alternatives p member
    have overlap : overlaps p n = true := by
      rcases agreeable f own n listed with ⟨g', inside', target', agreed⟩ | ⟨none, -⟩
      · obtain rfl := distinct.eq inside inside' (target.trans (same.trans target'.symm))
        rcases agreed with value | ⟨covered, -⟩
        · exact overlaps_of_accepts known.table needed.table same offered value
        · exact overlaps_of_covered accepted inside target offered known many same needed covered
      · exact absurd (target.trans same) (none g inside)
    simp [Block.meets, same, overlap]
  | poison => cases about

theorem Steered.inserted (distinct : Distinct fs)
    (accepted : ¬ Refused fs) (agreeable : Agreeable fs) (fits : Fits fs done f) (own : f ∈ fs)
    (listed : n ∈ needs f.id) (step : Inserted n bs bs') : Steered fs done bs' := by
  have needed : Needed fs n := ⟨f, own, listed⟩
  have met := steered.meets distinct accepted agreeable fits own listed
  have tidy := steered.following.tidy.inserted needed.table step
  have more := fields_subset_inserted step
  have mentioned : ∀ id, id ∉ fields bs' → Unmentioned done id := fun id absent =>
    steered.mentioned id fun member => absent (more member)
  cases step with
  | met => exact steered
  | pending unmet many =>
    have free : n.id ∉ fields bs := fun taken => by
      rw [met taken] at unmet
      cases unmet
    obtain ⟨owned, orphaned⟩ := fits.opening n listed (steered.mentioned n.id free)
    -- The alternatives accept the value of the set, and there is one.
    have offered : ∃ g ∈ fs, g.id = n.id ∧ n.accepts g.value = true := by
      rcases agreeable f own n listed with ⟨g, inside, target, -⟩ | ⟨none, c, needed', -, about, -⟩
      · refine ⟨g, inside, target, ?_⟩
        rcases owned g inside target with unopposed | manifold
        · exact unopposed n needed target.symm
        · cases n with
          | oneOf c =>
            have value := mem_values_of_not_refused accepted inside needed (many c rfl) target.symm
            simpa [Need.accepts] using value
          | under m => cases manifold
      · have kinds := (table_kinds _ needed'.table n needed.table about).1
        cases n with
        | oneOf c' =>
          have manifold := (isManifold_oneOf c').mpr (many c' rfl)
          rw [orphaned none] at manifold
          cases manifold
        | under m => cases kinds
    refine ⟨steered.inside, ⟨tidy, steered.following.clean.append (by simp) fun id about => ?_,
      fun g member => steered.following.real g (by simpa using member), fun p member => ?_⟩,
      fun g member => steered.value g (by simpa using member), fun p member => ?_, mentioned⟩
    · cases about
      exact free
    · rcases List.mem_append.mp member with inside | last
      · exact steered.following.pending p inside
      · cases List.mem_singleton.mp last
        exact offered
    · rcases List.mem_append.mp member with inside | last
      · exact steered.alternatives p inside
      · cases List.mem_singleton.mp last
        exact ⟨needed, many⟩
  | conflict unmet taken =>
    rw [met taken] at unmet
    cases unmet
  | single c same one free =>
    subst same
    obtain ⟨owned, -⟩ := fits.opening _ listed (steered.mentioned c.id free)
    have plain : isManifold (.oneOf c) = false := by simp [isManifold, one]
    have unopposed : Unopposed fs c.field ∧ (c.field ∈ fs ∨ ∀ g ∈ fs, g.id ≠ c.id) := by
      rcases agreeable f own _ listed with ⟨g, inside, target, -⟩ | ⟨none, c', -, -, -, common⟩
      · have unopposed := (owned g inside target).resolve_right (by simp [plain])
        have value : g.value = c.first := by
          have first := unopposed _ needed target.symm
          simpa [Need.accepts, Choice.values, one] using first
        have equal : g = c.field := Field.ext target value
        exact ⟨equal ▸ unopposed, .inl (equal ▸ inside)⟩
      · have value : c'.first = c.first := by
          have first := common _ needed rfl
          simpa [Need.accepts, Choice.values, one] using first
        rw [value] at common
        exact ⟨common, .inr none⟩
    refine ⟨steered.inside, ⟨tidy, steered.following.clean.append (by simp) fun id about => ?_,
      fun g member => ?_, fun p member => steered.following.pending p (by simpa using member)⟩,
      fun g member => ?_, fun p member => steered.alternatives p (by simpa using member),
      mentioned⟩
    · cases about
      exact free
    · rcases List.mem_append.mp member with inside | last
      · exact steered.following.real g inside
      · cases List.mem_singleton.mp last
        exact unopposed.2.imp_right fun none => ⟨none, c, needed, one, rfl⟩
    · rcases List.mem_append.mp member with inside | last
      · exact steered.value g inside
      · cases List.mem_singleton.mp last
        exact .inr unopposed.1

theorem Steered.insertAll (distinct : Distinct fs)
    (accepted : ¬ Refused fs) (agreeable : Agreeable fs) (fits : Fits fs done f) (own : f ∈ fs)
    {ns : List Need} (listed : ∀ n ∈ ns, n ∈ needs f.id) :
    Steered fs done (ns.foldl insertNeed bs) := by
  induction ns generalizing bs with
  | nil => exact steered
  | cons n ns ih =>
    rw [List.forall_mem_cons] at listed
    exact ih (steered.inserted distinct accepted agreeable fits own listed.1
      (insertNeed_cases n bs)) listed.2

theorem Steered.step (own : f ∈ fs) (following : Following fs bs')
    (value : ∀ g, .real g ∈ bs' → .real g ∈ bs ∨ g = f)
    (alternatives : ∀ n, .pending n ∈ bs' → .pending n ∈ bs)
    (more : fields bs ⊆ fields bs') (placed : f.id ∈ fields bs')
    (needs' : ∀ n ∈ needs f.id, n.id ∈ fields bs') : Steered fs (done ++ [f]) bs' where
  inside d member := by
    rcases List.mem_append.mp member with early | last
    · exact steered.inside d early
    · exact List.mem_singleton.mp last ▸ own
  following := following
  value g member := by
    rcases value g member with before | rfl
    · exact (steered.value g before).imp_left (List.mem_append_left _)
    · exact .inl (List.mem_append_right _ List.mem_cons_self)
  alternatives n member := steered.alternatives n (alternatives n member)
  mentioned id absent d member := by
    rcases List.mem_append.mp member with early | last
    · exact steered.mentioned id (fun inside => absent (more inside)) d early
    · obtain rfl := List.mem_singleton.mp last
      exact ⟨fun same => absent (same ▸ placed), fun n listed same =>
        absent (same ▸ needs' n listed)⟩

end

private theorem pending_of_placed (step : Placed f bs (some bs')) {p : Need}
    (member : .pending p ∈ bs') :
    .pending p ∈ bs := by
  cases step with
  | kept => exact member
  | conflict => simpa using member
  | chosen before behind pass =>
    have inside : .pending p ∈ before ∨ .pending p ∈ behind := by simpa using member
    exact List.mem_append.mpr (inside.imp_right (List.mem_cons_of_mem _))
  | masked before behind pass same accepted poisoned =>
    rcases poisonLater_cases poisoned with ⟨rfl, -⟩ | ⟨between, g, rest, rfl, -, rfl⟩
    all_goals
      simp only [List.mem_append, List.mem_cons, reduceCtorEq, false_or] at member ⊢
      exact member.imp_right .inr

private theorem real_of_placed (step : Placed f bs (some bs')) {g : Field}
    (member : .real g ∈ bs') :
    .real g ∈ bs ∨ g = f := by
  by_cases equal : g = f
  · exact .inr equal
  · left
    cases step with
    | kept => exact member
    | conflict => simpa using member
    | chosen => simpa [equal] using member
    | masked before behind pass same accepted poisoned =>
      rcases poisonLater_cases poisoned with ⟨rfl, -⟩ | ⟨between, g', rest, rfl, -, rfl⟩
      · simpa [equal] using member
      · simpa [equal] using member

private theorem fields_subset_insertAll (ns : List Need) (bs : List Block) :
    fields bs ⊆ fields (ns.foldl insertNeed bs) := by
  induction ns generalizing bs with
  | nil => exact List.Subset.refl _
  | cons n ns ih => exact List.Subset.trans (fields_subset_inserted (insertNeed_cases n bs)) (ih _)

private theorem mem_fields_insertAll {ns : List Need} (listed : n ∈ ns) (bs : List Block) :
    n.id ∈ fields (ns.foldl insertNeed bs) := by
  induction ns generalizing bs with
  | nil => cases listed
  | cons n' ns ih =>
    rcases List.mem_cons.mp listed with rfl | later
    · exact fields_subset_insertAll ns _ (mem_fields_inserted (insertNeed_cases n bs))
    · exact ih later _

theorem Steered.addField (steered : Steered fs done bs) (distinct : Distinct fs)
    (accepted : ¬ Refused fs) (agreeable : Agreeable fs) (fits : Fits fs done f) (own : f ∈ fs) :
    ∃ bs', addField bs f = some bs' ∧ Steered fs (done ++ [f]) bs' := by
  have inserted := steered.insertAll distinct accepted agreeable fits own
    (fun n listed => listed : ∀ n ∈ needs f.id, n ∈ needs f.id)
  have needs' := fun n (listed : n ∈ needs f.id) => mem_fields_insertAll listed bs
  obtain ⟨r, found⟩ := exists_place inserted.following.tidy (inserted.following.ready distinct own)
  have step := place_cases found
  cases r with
  | none =>
    refine ⟨_, by rw [Blocks.addField, found]; rfl, inserted.step own
      (inserted.following.appended distinct own step) (fun g member => ?_)
      (fun n member => by simpa using member) (by simp) (by simp) (fun n listed => ?_)⟩
    · simpa [or_comm] using member
    · simp [needs' n listed]
  | some bs' =>
    have same := fields_placed step
    obtain ⟨following, placed⟩ := inserted.following.placed distinct own step
    exact ⟨bs', by rw [Blocks.addField, found]; rfl, inserted.step own following
      (fun g member => real_of_placed step member) (fun n member => pending_of_placed step member)
      (by simp [same]) (mem_fields_of_real placed)
      (fun n listed => by rw [same]; exact needs' n listed)⟩

def Fitting (fs order : List Field) : Prop :=
  ∀ before f, before ++ [f] <+: order → Fits fs before f

theorem addFields_append (done : List Field) (f : Field) :
    addFields [] (done ++ [f]) = (addFields [] done).bind (Blocks.addField · f) := by
  simp [addFields]

private theorem exists_steered (distinct : Distinct fs) (accepted : ¬ Refused fs)
    (agreeable : Agreeable fs) (inside : ∀ d ∈ done, d ∈ fs) (fitting : Fitting fs done) :
    ∃ bs, addFields [] done = some bs ∧ Steered fs done bs := by
  induction done using List.reverseRecOn with
  | nil =>
    exact ⟨[], rfl, by simp, ⟨⟨by simp, .nil⟩, ⟨by simp, .nil⟩, by simp, by simp⟩, by simp,
      by simp, by simp [Unmentioned]⟩
  | append_singleton done f ih =>
    obtain ⟨bs, added, steered⟩ := ih (fun d member => inside d (List.mem_append_left _ member))
      fun before g place => fitting before g (place.trans (List.prefix_append done [f]))
    obtain ⟨bs', last, steered'⟩ := steered.addField distinct accepted agreeable
      (fitting done f (List.prefix_refl _)) (inside f (by simp))
    exact ⟨bs', by rw [addFields_append, added, Option.bind_some, last], steered'⟩

end

section

variable {fs order : List Field} {f g : Field} {n : Need} {id : InternalId}

theorem exists_ordered (key : Field → Nat) (fs : List Field) :
    ∃ order : List Field, order.Perm fs ∧ order.Pairwise (key · ≤ key ·) := by
  let le (f g : Field) : Bool := key f ≤ key g
  have sorted : (fs.mergeSort le).Pairwise (le · ·) := by
    refine List.pairwise_mergeSort (fun f g h => ?_) (fun f g => ?_) fs
    · simpa [le] using Nat.le_trans
    · simpa [le] using Nat.le_total (key f) (key g)
  exact ⟨_, List.mergeSort_perm fs le, by simpa [le] using sorted⟩

private theorem mem_before {key : Field → Nat} (sorted : order.Pairwise (key · ≤ key ·))
    {before : List Field} (place : before ++ [f] <+: order) (member : g ∈ order)
    (less : key g < key f) : g ∈ before := by
  obtain ⟨behind, rfl⟩ := place
  rw [List.append_assoc, List.singleton_append] at member sorted
  rcases List.mem_append.mp member with early | late
  · exact early
  · have later := (List.pairwise_cons.mp (List.pairwise_append.mp sorted).2.1).1
    rcases List.mem_cons.mp late with rfl | behind
    · omega
    · have least := later g behind
      omega

private theorem not_mem_before {key : Field → Nat} (sorted : order.Pairwise (key · ≤ key ·))
    {before : List Field} (place : before ++ [f] <+: order) (less : key f < key g) :
    g ∉ before := by
  intro early
  have prior := (List.pairwise_append.mp (sorted.sublist place.sublist)).2.2 g early f (by simp)
  omega

def Concerns (f : Field) (id : InternalId) : Prop := f.id = id ∨ ∃ n ∈ needs f.id, n.id = id

def Opposed (fs : List Field) (id : InternalId) : Prop := ∃ g ∈ fs, g.id = id ∧ ¬ Unopposed fs g

def Offers (f : Field) (id : InternalId) : Prop :=
  ∃ n ∈ needs f.id, n.id = id ∧ isManifold n = true

open Classical in
/-- Where a value is opposed, alternatives come first and the value comes last; elsewhere
alternatives come last. -/
noncomputable def level (fs : List Field) (id : InternalId) (f : Field) : Nat :=
  if Opposed fs id then if f.id = id then 2 else if Offers f id then 0 else 1
  else if Offers f id then 1 else 0

/-- Values for the Ethernet type decide, then those for the ICMPv6 type. -/
noncomputable def key (fs : List Field) (f : Field) : Nat :=
  3 * level fs .ethType f + level fs .icmpv6Type f

private theorem level_le (fs : List Field) (id : InternalId) (f : Field) : level fs id f ≤ 2 := by
  unfold level
  split_ifs <;> decide

theorem not_offers (listed : n ∈ needs f.id) (plain : isManifold n = false) :
    ¬ Offers f n.id := by
  rintro ⟨n', listed', same, manifold⟩
  rw [List.inj_on_of_nodup_map (nodup_needs f.id) listed' listed same, plain] at manifold
  cases manifold

private theorem level_of_icmpv6 {f g : Field} (hf : Concerns f .icmpv6Type)
    (hg : Concerns g .icmpv6Type) :
    level fs .ethType f = level fs .ethType g := by
  have plain {f : Field} (concerns : Concerns f .icmpv6Type) :
      f.id ≠ .ethType ∧ ¬ Offers f .ethType := by
    have listed := ipv6_mem_needs f.id concerns
    exact ⟨(needs_id_ne f.id ipv6 listed).symm, not_offers listed rfl⟩
  simp [level, plain hf, plain hg]

theorem key_lt (shared : id = .ethType ∨ id = .icmpv6Type) (hf : Concerns f id)
    (hg : Concerns g id) (less : level fs id f < level fs id g) : key fs f < key fs g := by
  rcases shared with rfl | rfl
  · have bound := level_le fs .icmpv6Type f
    unfold key
    omega
  · have alike : level fs .ethType f = level fs .ethType g := level_of_icmpv6 hf hg
    unfold key
    omega

theorem covered_of_opposed (distinct : Distinct fs) (agreeable : Agreeable fs) (own : f ∈ fs)
    (listed : n ∈ needs f.id) (inside : g ∈ fs) (same : g.id = n.id)
    (refused : n.accepts g.value = false) : Covered fs n := by
  rcases agreeable f own n listed with ⟨g', inside', same', agreed⟩ | ⟨none, -⟩
  · obtain rfl := distinct.eq inside' inside (same'.trans same.symm)
    rcases agreed with value | ⟨covered, -⟩
    · rw [refused] at value
      cases value
    · exact covered
  · exact absurd same (none g inside)

private theorem isManifold_of_covered (covered : Covered fs n) : isManifold n = false := by
  obtain ⟨c, rfl, one, -⟩ := covered
  simp [isManifold, one]

theorem offers_of_covered (covered : Covered fs n) : ∃ f ∈ fs, Offers f n.id := by
  obtain ⟨c, rfl, -, c', ⟨f, own, listed⟩, many, about, -⟩ := covered
  exact ⟨f, own, .oneOf c', listed, about, (isManifold_oneOf c').mpr many⟩

theorem shared_of_offers (offers : Offers f id) : id = .ethType ∨ id = .icmpv6Type := by
  obtain ⟨n, listed, rfl, manifold⟩ := offers
  exact table_manifold n (needs_subset_table f.id n listed) manifold

private theorem not_self_of_offers (offers : Offers f id) : f.id ≠ id := by
  obtain ⟨n, listed, rfl, -⟩ := offers
  exact (needs_id_ne f.id n listed).symm

private theorem opposed_of_refused (own : f ∈ fs) (listed : n ∈ needs f.id) (inside : g ∈ fs)
    (same : g.id = n.id) (refused : n.accepts g.value = false) : Opposed fs n.id := by
  refine ⟨g, inside, same, fun unopposed => ?_⟩
  rw [unopposed n ⟨f, own, listed⟩ same.symm] at refused
  cases refused

private theorem fitting_of_sorted (distinct : Distinct fs) (agreeable : Agreeable fs)
    (perm : order.Perm fs) (sorted : order.Pairwise (key fs · ≤ key fs ·)) :
    Fitting fs order := by
  intro before f place
  have own : f ∈ fs := perm.subset (place.subset (by simp))
  refine ⟨fun n listed unmentioned => ?_, fun n listed g inside same refused => ?_⟩
  · have mine : Concerns f n.id := .inr ⟨n, listed, rfl⟩
    -- Nothing that has a need on the same field comes before.
    have first {f' : Field} (own' : f' ∈ fs) {n' : Need} (listed' : n' ∈ needs f'.id)
        (same' : n'.id = n.id) : ¬ key fs f' < key fs f := fun less =>
      (unmentioned f' (mem_before sorted place (perm.mem_iff.mpr own') less)).2 n' listed' same'
    refine ⟨fun g inside same => or_iff_not_imp_left.mpr fun opposed => ?_, fun none => ?_⟩
    · by_contra plain
      rw [Bool.not_eq_true] at plain
      have hidden : Opposed fs n.id := ⟨g, inside, same, opposed⟩
      simp only [Unopposed, not_forall] at opposed
      obtain ⟨n', ⟨f', own', listed'⟩, about, refused⟩ := opposed
      have covered := covered_of_opposed distinct agreeable own' listed' inside about.symm
        (by simpa using refused)
      obtain ⟨f'', own'', offers⟩ := offers_of_covered covered
      rw [about.trans same] at offers
      have less : key fs f'' < key fs f := by
        refine key_lt (shared_of_offers offers) ?_ mine ?_
        · exact .inr (offers.imp fun n h => ⟨h.1, h.2.1⟩)
        · simp [level, hidden, not_self_of_offers offers, offers, not_offers listed plain,
            (needs_id_ne f.id n listed).symm]
      obtain ⟨n'', listed'', about'', -⟩ := offers
      exact first own'' listed'' about'' less
    · by_contra manifold
      rw [Bool.not_eq_false] at manifold
      have offers : Offers f n.id := ⟨n, listed, rfl, manifold⟩
      have visible : ¬ Opposed fs n.id := fun ⟨g, inside, same, _⟩ => none g inside same
      rcases agreeable f own n listed with
        ⟨g, inside, same, -⟩ | ⟨-, c, ⟨f', own', listed'⟩, one, about, -⟩
      · exact none g inside same
      · refine first own' listed' about (key_lt (shared_of_offers offers)
          (.inr ⟨_, listed', about⟩) mine ?_)
        have plain := not_offers listed' (by simp [isManifold, one])
        rw [show (Need.oneOf c).id = n.id from about] at plain
        simp [level, visible, plain, offers]
  · have covered := covered_of_opposed distinct agreeable own listed inside same refused
    obtain ⟨f', -, offers⟩ := offers_of_covered covered
    have hidden := opposed_of_refused own listed inside same refused
    refine not_mem_before sorted place (key_lt (shared_of_offers offers)
      (.inr ⟨n, listed, rfl⟩) (.inl same) ?_)
    simp [level, hidden, same, (needs_id_ne f.id n listed).symm,
      not_offers listed (isManifold_of_covered covered)]

end

section

variable {fs gs : List Field} {f g : Field} {n : Need}

theorem accepts_or_covered (following : Following fs (gs.map .real))
    (all : ∀ f ∈ fs, .real f ∈ gs.map Block.real) (agreeable : Agreeable fs) (own : f ∈ fs)
    (listed : n ∈ needs f.id) (member : g ∈ gs) (same : g.id = n.id) :
    n.accepts g.value = true ∨
      g ∈ fs ∧ Covered fs n ∧ ∃ n' ∈ needs f.id, n' ≠ n := by
  have present : .real g ∈ gs.map Block.real := List.mem_map.mpr ⟨g, member, rfl⟩
  rcases agreeable f own n listed with
    ⟨g', inside, about, agreed⟩ | ⟨none, c, needed, one, about, common⟩
  · have equal := following.clean.unique (all g' inside) present rfl
      (congrArg some (same.trans about.symm))
    cases equal
    exact agreed.imp_right fun covered => ⟨inside, covered⟩
  · rcases following.real g present with inside | ⟨-, c', needed', one', rfl⟩
    · exact absurd same (none g inside)
    · have value : c.first = c'.first := by
        have first := common _ needed' same
        simpa [Need.accepts, Choice.values, one'] using first
      have first := common n ⟨f, own, listed⟩ rfl
      rw [value] at first
      exact .inl first

theorem not_covered_protocol (protocol : n.id = .ipProto) : ¬ Covered fs n := by
  intro covered
  obtain ⟨f, -, offers⟩ := offers_of_covered covered
  rw [protocol] at offers
  rcases shared_of_offers offers with wrong | wrong
  · cases wrong
  · cases wrong

private theorem accepts_of_covered {m : Need} (accepted : ¬ Refused fs) (inside : g ∈ fs)
    (same : g.id = n.id) (listed : n ∈ table) (manifold : isManifold n = true)
    (about : m.id = n.id) (implied : implies m n = true) (covered : Covered fs m) :
    n.accepts g.value = true := by
  obtain ⟨c, rfl, one, c', needed, many, about', first⟩ := covered
  have overlap : overlaps (.oneOf c') n = true :=
    List.any_eq_true.mpr ⟨c.first, first,
      accepts_of_implies implied (by simp [Need.accepts, Choice.values])⟩
  have equal := table_common _ needed.table n listed ((isManifold_oneOf c').mpr many) manifold
    (about'.trans about) overlap
  subst equal
  have value := mem_values_of_not_refused accepted inside needed many same.symm
  simpa [Need.accepts] using value

private theorem validate_of_following (following : Following fs (gs.map .real))
    (accepted : ¬ Refused fs) (agreeable : Agreeable fs)
    (all : ∀ f ∈ fs, .real f ∈ gs.map Block.real) (grounded : Grounded (gs.map Field.id)) :
    validate (flatten (gs.map .real)) = true := by
  refine validate_flatten_iff.mpr ⟨gs, rfl, fun before f place some => ?_⟩
  have early (n : Need) (listed : n ∈ needs f.id) : ∃ g ∈ before, g.id = n.id ∧ g ∈ gs := by
    have found : n.id ∈ before.map Field.id := by
      refine grounded (before.map Field.id) f.id ?_ n listed
      simpa using place.map Field.id
    obtain ⟨g, member, same⟩ := List.mem_map.mp found
    exact ⟨g, member, same, place.subset (List.mem_append_left _ member)⟩
  obtain ⟨n, listed, alone⟩ := (needs_single_or_protocol f.id).resolve_left some
  obtain ⟨g, member, same, present⟩ := early n listed
  refine ⟨n, listed, g, member, same, ?_⟩
  have here : .real f ∈ gs.map Block.real :=
    List.mem_map.mpr ⟨f, place.subset (List.mem_append_right _ List.mem_cons_self), rfl⟩
  rcases following.real f here with own | ⟨-, c, ⟨f', own', listed'⟩, -, rfl⟩
  · rcases accepts_or_covered following all agreeable own listed present same with
      value | ⟨-, covered, n', listed', other⟩
    · exact value
    · rcases alone with single | protocol
      · rw [single, List.mem_singleton] at listed'
        exact absurd listed' other
      · exact absurd covered (not_covered_protocol protocol)
  · -- The field stands for a need of another one, whose needs imply this one.
    obtain ⟨m, needed, about, implied⟩ := implied_needs f'.id _ listed' n listed
    rcases accepts_or_covered following all agreeable own' needed present
      (same.trans about.symm) with value | ⟨inside, covered, -⟩
    · exact accepts_of_implies implied value
    · rcases alone with single | protocol
      · have manifold := needs_of_needed f'.id _ listed' rfl n listed single
        exact accepts_of_covered accepted inside same (needs_subset_table _ n listed) manifold
          about implied covered
      · exact absurd covered (not_covered_protocol (about.trans protocol))

theorem exists_valid_order (distinct : Distinct fs) (accepted : ¬ Refused fs)
    (agreeable : Agreeable fs) : ∃ order : List Field, order.Perm fs ∧
      validated order = some true := by
  obtain ⟨order, perm, sorted⟩ := exists_ordered (key fs) fs
  have inside : ∀ f ∈ order, f ∈ fs := fun f member => perm.subset member
  obtain ⟨bs, added, steered⟩ := exists_steered distinct accepted agreeable inside
    (fitting_of_sorted distinct agreeable perm sorted)
  obtain ⟨bs', again, run⟩ := exists_run accepted inside
  obtain rfl : bs = bs' := Option.some.inj (added.symm.trans again)
  have all : ∀ f ∈ fs, .real f ∈ bs := by
    rcases run.reached.whole with spoilt | whole
    · exact absurd spoilt steered.following.clean.not_spoilt
    · exact fun f member => whole.2 f (perm.mem_iff.mpr member)
  obtain ⟨gs, rfl⟩ := steered.following.all_real all
  have grounded := run.grounded
  rw [fields_map_real] at grounded
  refine ⟨order, perm, ?_⟩
  rw [validated, build_of_addFields added, Option.map_some,
    validate_of_following steered.following accepted agreeable all grounded]

end

end Libofp.Match.Schedules
