/- GID: Libofp/Match/SettledFields
   digest: Sets of fields that settle their needs, and the match that every order of adding
     them builds. -/

import Libofp.Match.KeptFields
import Mathlib.Data.List.Nodup

set_option autoImplicit false

namespace Libofp.Match.SettledFields

open Octets.ByteRange Oxm.Range Oxm.FieldTable
open Oxm.PrerequisiteCheck Builder Needs Blocks
open BlockSteps BlockRuns KeptFields

section

def Grounded (ids : List InternalId) : Prop :=
  ∀ before id, before ++ [id] <+: ids → ∀ n ∈ needs id, n.id ∈ before

theorem grounded_append {ids : List InternalId} {id : InternalId} (grounded : Grounded ids)
    (met : ∀ n ∈ needs id, n.id ∈ ids) : Grounded (ids ++ [id]) := by
  intro before id' place
  rcases List.prefix_concat_iff.mp place with whole | inside
  · obtain ⟨rfl, rfl⟩ : before = ids ∧ id' = id := by simpa using whole
    exact met
  · exact grounded before id' inside

def orderedFrom (seen : List InternalId) : List Need → Bool
  | [] => true
  | n :: ns => (needs n.id).all (fun m => seen.contains m.id) && orderedFrom (n.id :: seen) ns

private theorem ordered_needs (id : InternalId) : orderedFrom [] (needs id) = true := by
  cases id <;> decide

variable {n : Need} {bs bs' : List Block}

theorem mem_fields_inserted (step : Inserted n bs bs') : n.id ∈ fields bs' := by
  cases step with
  | met meets => exact mem_fields_of_meets meets
  | pending => simp
  | conflict unmet taken => simpa using taken
  | single c same =>
    subst same
    simp [Choice.field, Need.id]

theorem fields_subset_inserted (step : Inserted n bs bs') : fields bs ⊆ fields bs' := by
  cases step with
  | met => exact List.Subset.refl _
  | pending => simp
  | conflict => simp
  | single => simp

private theorem grounded_inserted (grounded : Grounded (fields bs))
    (met : ∀ m ∈ needs n.id, m.id ∈ fields bs)
    (step : Inserted n bs bs') : Grounded (fields bs') := by
  cases step with
  | met => exact grounded
  | pending =>
    rw [fields_append]
    exact grounded_append grounded met
  | conflict =>
    rw [fields_append]
    simpa using grounded
  | single c same =>
    subst same
    rw [fields_append]
    exact grounded_append grounded met

private theorem grounded_insertAll {ns : List Need} {seen : List InternalId}
    (grounded : Grounded (fields bs)) (ordered : orderedFrom seen ns) (known : seen ⊆ fields bs) :
    Grounded (fields (ns.foldl insertNeed bs)) ∧ fields bs ⊆ fields (ns.foldl insertNeed bs) ∧
      ∀ n ∈ ns, n.id ∈ fields (ns.foldl insertNeed bs) := by
  induction ns generalizing bs seen with
  | nil => exact ⟨grounded, List.Subset.refl _, by simp⟩
  | cons n ns ih =>
    have step := insertNeed_cases n bs
    simp only [orderedFrom, Bool.and_eq_true, List.all_eq_true, List.contains_iff_mem] at ordered
    have more := fields_subset_inserted step
    have first := grounded_inserted grounded (fun m listed => known (ordered.1 m listed)) step
    have seen' : n.id :: seen ⊆ fields (insertNeed bs n) :=
      List.cons_subset.mpr ⟨mem_fields_inserted step, fun id member => more (known member)⟩
    obtain ⟨rest, kept, all⟩ := ih first ordered.2 seen'
    refine ⟨rest, fun id member => kept (more member), ?_⟩
    exact List.forall_mem_cons.mpr ⟨kept (mem_fields_inserted step), all⟩

theorem grounded_addField {f : Field} (grounded : Grounded (fields bs))
    (added : addField bs f = some bs') : Grounded (fields bs') := by
  obtain ⟨ordered, -, met⟩ := grounded_insertAll grounded (ordered_needs f.id) (by simp)
  obtain ⟨r, found, rfl⟩ := Option.map_eq_some_iff.mp added
  cases r with
  | none =>
    rw [Option.getD_none, fields_append]
    exact grounded_append ordered met
  | some bs' =>
    rwa [Option.getD_some, fields_placed (place_cases found)]

end

theorem table_overlaps : ∀ n ∈ table, overlaps n n = true := by
  decide

theorem overlaps_of_accepts {p n : Need} {value : Bytes} (known : p ∈ table) (listed : n ∈ table)
    (same : p.id = n.id) (offered : p.accepts value) (accepted : n.accepts value) :
    overlaps p n = true := by
  cases p with
  | oneOf c =>
    exact List.any_eq_true.mpr ⟨value, by simpa [Need.accepts] using offered, accepted⟩
  | under m =>
    have equal := (table_kinds _ known _ listed same).2 rfl
    rw [← equal]
    exact table_overlaps _ known

def implies : Need → Need → Bool
  | .oneOf c, n => c.values.all n.accepts
  | .under _, _ => false

theorem accepts_of_implies {n n' : Need} {value : Bytes} (implied : implies n n')
    (accepted : n.accepts value) : n'.accepts value = true := by
  cases n with
  | oneOf c => exact List.all_eq_true.mp implied value (by simpa [Need.accepts] using accepted)
  | under m => cases implied

theorem implied_needs (id : InternalId) : ∀ n ∈ needs id, ∀ m ∈ needs n.id,
    ∃ m' ∈ needs id, m'.id = m.id ∧ implies m' m = true := by
  cases id <;> decide

section

def Needed (fs : List Field) (n : Need) : Prop := ∃ f ∈ fs, n ∈ needs f.id

/-- Each need is met by the set itself, or nothing in the set is about its field and all needs
on that field are one value. -/
def Settled (fs : List Field) : Prop :=
  ∀ n, Needed fs n → (∃ g ∈ fs, g.id = n.id ∧ n.accepts g.value = true) ∨
    (∀ g ∈ fs, g.id ≠ n.id) ∧ (∃ c, n = .oneOf c ∧ c.others = []) ∧
      ∀ n', Needed fs n' → n'.id = n.id → n' = n

def Distinct (fs : List Field) : Prop := (fs.map Field.id).Nodup

theorem Distinct.eq {fs : List Field} (distinct : Distinct fs) {f g : Field} (hf : f ∈ fs)
    (hg : g ∈ fs) (same : f.id = g.id) : f = g :=
  List.inj_on_of_nodup_map distinct hf hg same

structure Following (fs : List Field) (bs : List Block) : Prop where
  tidy : Tidy bs
  clean : Clean bs
  real : ∀ g, .real g ∈ bs → g ∈ fs ∨
    (∀ f ∈ fs, f.id ≠ g.id) ∧ ∃ c, Needed fs (.oneOf c) ∧ c.others = [] ∧ c.field = g
  pending : ∀ n, .pending n ∈ bs → ∃ g ∈ fs, g.id = n.id ∧ n.accepts g.value = true

variable {fs : List Field} {bs bs' : List Block} {n : Need} {f : Field}

theorem Needed.table (needed : Needed fs n) : n ∈ table := by
  obtain ⟨f, -, listed⟩ := needed
  exact needs_subset_table f.id n listed

section

variable (following : Following fs bs) (distinct : Distinct fs)

include following distinct

theorem Following.accepts (settled : Settled fs) (needed : Needed fs n) {g : Field}
    (member : .real g ∈ bs) (same : g.id = n.id) : n.accepts g.value = true := by
  rcases settled n needed with ⟨g', own, about, accepted⟩ | ⟨none, -, unique⟩
  · rcases following.real g member with inside | ⟨foreign, -⟩
    · rwa [distinct.eq inside own (same.trans about.symm)]
    · exact absurd (about.trans same.symm) (foreign g' own)
  · rcases following.real g member with inside | ⟨-, c, needed', -, rfl⟩
    · exact absurd same (none g inside)
    · obtain rfl := unique _ needed' same
      simp [Need.accepts, Choice.values, Choice.field]

theorem Following.meets (settled : Settled fs) (needed : Needed fs n) (taken : n.id ∈ fields bs) :
    bs.any (·.meets n) = true := by
  obtain ⟨b, member, about⟩ := mem_fields_iff.mp taken
  refine List.any_eq_true.mpr ⟨b, member, ?_⟩
  cases b with
  | real g =>
    have same : g.id = n.id := Option.some.inj about
    simp [Block.meets, same, following.accepts distinct settled needed member same]
  | pending p =>
    have same : p.id = n.id := Option.some.inj about
    obtain ⟨g, inside, own, offered⟩ := following.pending p member
    rcases settled n needed with ⟨g', inside', own', accepted⟩ | ⟨none, -⟩
    · have equal := distinct.eq inside inside' (own.trans (same.trans own'.symm))
      subst equal
      simp [Block.meets, same, overlaps_of_accepts (following.tidy.known p member)
        needed.table same offered accepted]
    · exact absurd (own.trans same) (none g inside)
  | poison => cases about

theorem Following.inserted
    (settled : Settled fs) (needed : Needed fs n) (step : Inserted n bs bs') :
    Following fs bs' := by
  have tidy := following.tidy.inserted needed.table step
  have met : n.id ∈ fields bs → bs.any (·.meets n) = true :=
    following.meets distinct settled needed
  cases step with
  | met => exact following
  | pending unmet many =>
    have free : n.id ∉ fields bs := fun taken => by
      rw [met taken] at unmet
      cases unmet
    refine ⟨tidy, following.clean.append nofun fun id about => ?_, fun g member => ?_,
      fun p member => ?_⟩
    · cases about
      exact free
    · exact following.real g (by simpa using member)
    · rcases List.mem_append.mp member with inside | last
      · exact following.pending p inside
      · cases List.mem_singleton.mp last
        rcases settled n needed with own | ⟨-, ⟨c, rfl, single⟩, -⟩
        · exact own
        · exact absurd single (many c rfl)
  | conflict unmet taken =>
    rw [met taken] at unmet
    cases unmet
  | single c same one free =>
    subst same
    refine ⟨tidy, following.clean.append nofun fun id about => ?_, fun g member => ?_,
      fun p member => following.pending p (by simpa using member)⟩
    · cases about
      exact free
    · rcases List.mem_append.mp member with inside | last
      · exact following.real g inside
      · cases List.mem_singleton.mp last
        rcases settled _ needed with ⟨g, own, about, accepted⟩ | ⟨none, -⟩
        · have value : g.value = c.first := by
            simpa [Need.accepts, Choice.values, one] using accepted
          have equal : g = c.field := Field.ext about value
          exact .inl (equal ▸ own)
        · exact .inr ⟨none, c, needed, one, rfl⟩

theorem Following.ready (own : f ∈ fs) : Ready f bs := by
  refine .inr fun c member same => ?_
  obtain ⟨g, inside, about, offered⟩ := following.pending _ member
  rw [distinct.eq inside own (about.trans same)] at offered
  simpa [Need.accepts] using offered

theorem Following.not_mem_of_pass
    (own : f ∈ fs) (pass : ∀ b ∈ bs, Passes f b) : f.id ∉ fields bs := by
  intro taken
  obtain ⟨b, member, about⟩ := mem_fields_iff.mp taken
  rcases pass b member with other | ⟨m, rfl, refused⟩
  · exact other about
  · obtain ⟨g, inside, same, offered⟩ := following.pending _ member
    rw [distinct.eq inside own (same.trans (Option.some.inj about)), refused] at offered
    cases offered

end

theorem Following.fill {before behind : List Block} {p : Need}
    (following : Following fs (before ++ .pending p :: behind)) (own : f ∈ fs)
    (same : p.id = f.id) (pass : ∀ b ∈ before, Passes f b) :
    Following fs (before ++ .real f :: behind) where
  tidy := following.tidy.fill pass
  clean := following.clean.fill same
  real g member := by
    by_cases equal : g = f
    · exact .inl (equal ▸ own)
    · exact following.real g (by simpa [equal] using member)
  pending n member := following.pending n (by
    rcases List.mem_append.mp member with early | late
    · exact List.mem_append_left _ early
    · exact List.mem_append_right _ (List.mem_cons_of_mem _ (by simpa using late)))

section

variable (following : Following fs bs) (distinct : Distinct fs)

include following distinct

theorem Following.placed (own : f ∈ fs)
    (step : Placed f bs (some bs')) : Following fs bs' ∧ .real f ∈ bs' := by
  cases step with
  | kept => exact ⟨following, by simp⟩
  | @conflict before behind g pass same other =>
    rcases following.real g (by simp) with inside | ⟨foreign, -⟩
    · exact absurd (congrArg Field.value (distinct.eq inside own same)) other
    · exact absurd same.symm (foreign f own)
  | chosen before behind pass same offered last =>
    exact ⟨following.fill own same pass, by simp⟩
  | masked before behind pass same accepted poisoned =>
    rcases poisonLater_cases poisoned with ⟨rfl, -⟩ | ⟨between, g, rest, rfl, about, rfl⟩
    · exact ⟨following.fill own same pass, by simp⟩
    · -- The field would occur twice.
      have once := following.clean.once
      simp [Need.id, same, about, List.nodup_append] at once

theorem Following.appended (own : f ∈ fs)
    (step : Placed f bs none) : Following fs (bs ++ [.real f]) := by
  have tidy := following.tidy.appended step
  cases step with
  | absent pass =>
    have free := following.not_mem_of_pass distinct own pass
    refine ⟨tidy, following.clean.append nofun fun id about => ?_, fun g member => ?_,
      fun p member => following.pending p (by simpa using member)⟩
    · cases about
      exact free
    · rcases List.mem_append.mp member with inside | last
      · exact following.real g inside
      · cases List.mem_singleton.mp last
        exact .inl own

theorem Following.insertAll
    (settled : Settled fs) {ns : List Need} (needed : ∀ n ∈ ns, Needed fs n) :
    Following fs (ns.foldl insertNeed bs) ∧
      ∀ g, .real g ∈ bs → .real g ∈ ns.foldl insertNeed bs := by
  induction ns generalizing bs with
  | nil => exact ⟨following, fun g member => member⟩
  | cons n ns ih =>
    rw [List.forall_mem_cons] at needed
    have step := insertNeed_cases n bs
    obtain ⟨rest, kept⟩ := ih (following.inserted distinct settled needed.1 step) needed.2
    exact ⟨rest, fun g member => kept g (reals_inserted step member)⟩

theorem Following.addField
    (settled : Settled fs) (own : f ∈ fs) : ∃ bs', addField bs f = some bs' ∧ Following fs bs' ∧
      .real f ∈ bs' ∧ ∀ g, .real g ∈ bs → .real g ∈ bs' := by
  obtain ⟨inserted, kept⟩ := following.insertAll distinct settled
    (fun n listed => ⟨f, own, listed⟩ : ∀ n ∈ needs f.id, Needed fs n)
  obtain ⟨r, found⟩ := exists_place inserted.tidy (inserted.ready distinct own)
  have step := place_cases found
  cases r with
  | none =>
    refine ⟨_, by rw [Blocks.addField, found]; rfl, inserted.appended distinct own step, by simp,
      fun g member => List.mem_append_left _ (kept g member)⟩
  | some bs' =>
    obtain ⟨following', placed⟩ := inserted.placed distinct own step
    exact ⟨bs', by rw [Blocks.addField, found]; rfl, following', placed,
      fun g member => reals_placed step (kept g member)⟩

end

end

section

variable {fs : List Field} {bs : List Block}

private theorem exists_following (distinct : Distinct fs) (settled : Settled fs) {done : List Field}
    (inside : ∀ f ∈ done, f ∈ fs) : ∃ bs, build done = some (flatten bs) ∧ Following fs bs ∧
      Grounded (fields bs) ∧ ∀ f ∈ done, .real f ∈ bs := by
  induction done using List.reverseRecOn with
  | nil =>
    refine ⟨[], rfl, ⟨⟨by simp, .nil⟩, ⟨by simp, .nil⟩, by simp, by simp⟩, ?_, by simp⟩
    intro before id place
    simp at place
  | append_singleton done f ih =>
    obtain ⟨bs, built, following, grounded, kept⟩ := ih fun g member =>
      inside g (List.mem_append_left _ member)
    have own := inside f (List.mem_append_right _ List.mem_cons_self)
    obtain ⟨bs', added, following', placed, others⟩ := following.addField distinct settled own
    refine ⟨bs', ?_, following', grounded_addField grounded added, fun g member => ?_⟩
    · rw [build_append, built, Option.bind_some, add_flatten added]
    · rcases List.mem_append.mp member with early | last
      · exact others g (kept g early)
      · rwa [List.mem_singleton.mp last]

theorem Following.all_real (following : Following fs bs) (all : ∀ f ∈ fs, .real f ∈ bs) :
    ∃ gs : List Field, bs = gs.map .real := by
  apply exists_map_real
  intro b member
  cases b with
  | real g => exact ⟨g, rfl⟩
  | pending n =>
    obtain ⟨g, inside, same, -⟩ := following.pending n member
    -- The field would occur in two blocks.
    have twice := following.clean.unique (all g inside) member rfl (congrArg some same.symm)
    cases twice
  | poison => exact absurd member following.clean.wholesome

theorem fields_map_real (gs : List Field) : fields (gs.map .real) = gs.map Field.id := by
  induction gs with
  | nil => rfl
  | cons g gs ih => rw [List.map_cons, fields_real, ih, List.map_cons]

theorem Following.validate {gs : List Field} (following : Following fs (gs.map .real))
    (distinct : Distinct fs) (settled : Settled fs) (grounded : Grounded (gs.map Field.id)) :
    validate (flatten (gs.map .real)) = true := by
  refine validate_flatten_iff.mpr ⟨gs, rfl, fun before f place some => ?_⟩
  obtain ⟨n, listed⟩ := List.exists_mem_of_ne_nil _ some
  have early : n.id ∈ before.map Field.id := by
    refine grounded (before.map Field.id) f.id ?_ n listed
    simpa using place.map Field.id
  obtain ⟨g, member, same⟩ := List.mem_map.mp early
  have present : .real g ∈ gs.map Block.real :=
    List.mem_map.mpr ⟨g, place.subset (List.mem_append_left _ member), rfl⟩
  have own : .real f ∈ gs.map Block.real :=
    List.mem_map.mpr ⟨f, place.subset (List.mem_append_right _ List.mem_cons_self), rfl⟩
  refine ⟨n, listed, g, member, same, ?_⟩
  rcases following.real f own with inside | ⟨-, c, ⟨f', inside', listed'⟩, -, rfl⟩
  · exact following.accepts distinct settled ⟨f, inside, listed⟩ present same
  · -- The field stands for a need of another one, whose needs imply this one.
    obtain ⟨m, needed, about, implied⟩ := implied_needs f'.id _ listed' n listed
    exact accepts_of_implies implied (following.accepts distinct settled ⟨f', inside', needed⟩
      present (same.trans about.symm))

theorem build_settled (distinct : Distinct fs) (settled : Settled fs) :
    ∃ gs : List Field, build fs = some (gs.map Field.item) ∧
      Builder.validate (gs.map Field.item) = true ∧ Following fs (gs.map .real) ∧ fs ⊆ gs := by
  obtain ⟨bs, built, following, grounded, all⟩ :=
    exists_following distinct settled fun f (member : f ∈ fs) => member
  obtain ⟨gs, rfl⟩ := following.all_real all
  rw [fields_map_real] at grounded
  have valid := following.validate distinct settled grounded
  rw [flatten_map_real] at built valid
  exact ⟨gs, built, valid, following, fun f member => by simpa using all f member⟩

end

section

variable {fs : List Field}

private theorem exists_of_allMet {id : InternalId}
    (met : AllMet id.prerequisites (fs.map Field.item)) {n : Need} (listed : n ∈ needs id) :
    ∃ g ∈ fs, g.id = n.id ∧ n.accepts g.value = true := by
  have preqs (preq : Item) : preq ∈ id.prerequisites ↔ ∃ n ∈ needs id, preq ∈ n.items := by
    rw [prerequisites_eq, List.mem_flatMap]
  obtain ⟨preq, first⟩ : ∃ preq, preq ∈ n.items := by
    cases n with
    | oneOf c => exact ⟨_, List.mem_cons_self⟩
    | under m => exact ⟨_, List.mem_cons_self⟩
  obtain ⟨alternative, given, type, item, member, meets⟩ :=
    met preq ((preqs preq).mpr ⟨n, listed, first⟩)
  obtain ⟨n', listed', inside⟩ := (preqs alternative).mp given
  have same : n' = n := by
    by_contra other
    have apart : n'.id ≠ n.id := fun same =>
      other (List.inj_on_of_nodup_map (nodup_needs id) listed' listed same)
    apply needType_ne apart
    rw [← type_of_mem_items inside, type, type_of_mem_items first]
  subst same
  obtain ⟨g, own, rfl⟩ := List.mem_map.mp member
  exact ⟨g, own, metBy_value_iff.mp ⟨alternative, inside, meets⟩⟩

/-- A complete set of fields builds the same match in every order: its fields, each once. -/
theorem build_complete (fs : List Field) (distinct : (fs.map Field.id).Nodup)
    (complete : ∀ f ∈ fs, AllMet f.id.prerequisites (fs.map Field.item)) :
    ∃ list, build fs = some list ∧ Builder.validate list = true ∧
      list.Perm (fs.map Field.item) := by
  have own (n : Need) (needed : Needed fs n) :
      ∃ g ∈ fs, g.id = n.id ∧ n.accepts g.value = true := by
    obtain ⟨f, member, listed⟩ := needed
    exact exists_of_allMet (complete f member) listed
  obtain ⟨gs, built, valid, following, subset⟩ :=
    build_settled distinct fun n needed => .inl (own n needed)
  refine ⟨_, built, valid, List.Perm.map _ ?_⟩
  have once : gs.Nodup := by
    refine List.Nodup.of_map Field.id ?_
    rw [← fields_map_real]
    exact following.clean.once
  refine (List.perm_ext_iff_of_nodup once (List.Nodup.of_map _ distinct)).mpr fun g => ?_
  refine ⟨fun member => ?_, fun member => subset member⟩
  rcases following.real g (List.mem_map.mpr ⟨g, member, rfl⟩) with
    inside | ⟨none, c, needed, -, rfl⟩
  · exact inside
  · obtain ⟨g, inside, same, -⟩ := own _ needed
    exact absurd same (none g inside)

private theorem ipProto_regular : InternalId.isExperimenter .ipProto = false := rfl

def ipProto6 : Field := ⟨.ipProto, [6], rfl, ipProto_regular⟩

theorem build_complete_tcpSrc :
    let fs := [tcpSrc80, ipProto6, ethType [0x08, 0x00] rfl]
    (fs.map Field.id).Nodup ∧ (∀ f ∈ fs, AllMet f.id.prerequisites (fs.map Field.item)) ∧
      ∃ list, build fs = some list ∧ Builder.validate list = true ∧
        list.Perm (fs.map Field.item) := by
  intro fs
  have distinct : (fs.map Field.id).Nodup := by decide
  have complete : ∀ f ∈ fs, AllMet f.id.prerequisites (fs.map Field.item) := by
    unfold AllMet TypeMet
    decide +kernel
  exact ⟨distinct, complete, build_complete fs distinct complete⟩

end

end Libofp.Match.SettledFields
