/- GID: Libofp/Match/InsertionOrder
   digest: When the order in which fields are added to a match builder does not matter for the
     validity of the match. -/

import Libofp.Match.Schedules

set_option autoImplicit false

namespace Libofp.Match.InsertionOrder

open Octets.ByteRange Oxm.Range Oxm.FieldTable Oxm.Prerequisites
open Builder Needs Blocks BlockSteps
open BlockRuns KeptFields SettledFields OrderRuns Schedules

section

variable {fs fs' : List Field} {f g : Field}

theorem exists_first (own : f ∈ fs) : ∃ rest, (f :: rest).Perm fs := by
  obtain ⟨before, behind, rfl⟩ := List.append_of_mem own
  exact ⟨before ++ behind, List.perm_middle.symm⟩

theorem exists_first_two (own : f ∈ fs) (own' : g ∈ fs) (other : g ≠ f) :
    ∃ rest, (f :: g :: rest).Perm fs := by
  obtain ⟨rest, perm⟩ := exists_first own
  have inside : g ∈ rest := (List.mem_cons.mp (perm.mem_iff.mpr own')).resolve_left other
  obtain ⟨rest', perm'⟩ := exists_first inside
  exact ⟨rest', (perm'.cons f).trans perm⟩

private theorem refused_perm (perm : fs.Perm fs') : Refused fs ↔ Refused fs' := by
  simp only [Refused, Needed, perm.mem_iff]

private theorem agreeable_perm (perm : fs.Perm fs') : Agreeable fs ↔ Agreeable fs' := by
  simp only [Agreeable, Covered, Needed, perm.mem_iff]

private theorem settled_perm (perm : fs.Perm fs') : Settled fs ↔ Settled fs' := by
  simp only [Settled, Needed, perm.mem_iff]

theorem validated_of_addFields {bs : List Block} (added : addFields [] fs = some bs) :
    validated fs = some (validate (flatten bs)) := by
  rw [validated, build_of_addFields added, Option.map_some]

end

section

variable {fs : List Field} {f g : Field} {n : Need}

private theorem exists_invalid_of_opposed (accepted : ¬ Refused fs) (own : f ∈ fs)
    (listed : n ∈ needs f.id) (inside : g ∈ fs) (same : g.id = n.id)
    (refused : n.accepts g.value = false) :
    ∃ order : List Field, order.Perm fs ∧ validated order = some false := by
  have other : f ≠ g := fun equal => needs_id_ne f.id n listed (equal ▸ same.symm)
  obtain ⟨rest, perm⟩ := exists_first_two inside own other
  have members : ∀ d ∈ g :: f :: rest, d ∈ fs := fun d member => perm.subset member
  obtain ⟨bs, added, -⟩ := exists_run accepted members
  refine ⟨_, perm, ?_⟩
  have steps := added
  rw [addFields_cons, Option.bind_eq_some_iff] at steps
  obtain ⟨bs₁, first, steps⟩ := steps
  rw [addFields_cons, Option.bind_eq_some_iff] at steps
  obtain ⟨bs₂, second, steps⟩ := steps
  have state : Spoilt bs₁ ∨ Clean bs₁ ∧ .real g ∈ bs₁ := by
    obtain ⟨bs', added', run⟩ := (run_nil fs).addField accepted inside
    obtain rfl : bs₁ = bs' := Option.some.inj (first.symm.trans added')
    exact run.reached.whole.imp_right fun whole => ⟨whole.1, whole.2 g (by simp)⟩
  have spoilt := spoilt_addFields
    (spoilt_addField (spoilt_insertAll state listed same refused) second) steps
  rw [validated_of_addFields added, not_validate_of_spoilt spoilt]

theorem exists_invalid_of_alternatives (accepted : ¬ Refused fs) (own : f ∈ fs) {c : Choice}
    (listed : .oneOf c ∈ needs f.id) (many : c.others ≠ []) (none : ∀ g ∈ fs, g.id ≠ c.id) :
    ∃ order : List Field, order.Perm fs ∧ validated order = some false := by
  obtain ⟨rest, perm⟩ := exists_first own
  obtain ⟨bs, added, -⟩ := exists_run accepted fun d (member : d ∈ f :: rest) =>
    perm.subset member
  refine ⟨_, perm, ?_⟩
  have steps := added
  rw [addFields_cons, Option.bind_eq_some_iff] at steps
  obtain ⟨bs₁, first, steps⟩ := steps
  have fresh : .pending (.oneOf c) ∈ (needs f.id).foldl insertNeed [] :=
    pending_of_fresh (nodup_needs f.id) listed many (by simp [fields])
  have start := pending_addField (none f own) fresh first
  have left : .pending (.oneOf c) ∈ bs :=
    pending_addFields (fun d member => none d (perm.subset (by simp [member]))) start steps
  rw [validated_of_addFields added, not_validate_of_pending left]

private theorem choice_eq {c c' : Choice} {value : Bytes} (same : c.id = c'.id)
    (one : c.others = []) (one' : c'.others = []) (accepts : Need.accepts (.oneOf c) value = true)
    (accepts' : Need.accepts (.oneOf c') value = true) : c = c' := by
  have first : value = c.first := by simpa [Need.accepts, Choice.values, one] using accepts
  have first' : value = c'.first := by simpa [Need.accepts, Choice.values, one'] using accepts'
  cases c
  cases c'
  simp_all

private theorem exists_invalid_order (accepted : ¬ Refused fs) (agreeable : Agreeable fs)
    (unsettled : ¬ Settled fs) :
    ∃ order : List Field, order.Perm fs ∧ validated order = some false := by
  simp only [Settled, not_forall, not_or] at unsettled
  obtain ⟨n, needed, opposed, several⟩ := unsettled
  obtain ⟨f, own, listed⟩ := needed
  rcases agreeable f own n listed with ⟨g, inside, same, -⟩ | ⟨none, c, needed', one, about, common⟩
  · refine exists_invalid_of_opposed accepted own listed inside same ?_
    by_contra value
    exact opposed ⟨g, inside, same, by simpa using value⟩
  · have kind (n' : Need) (needed : Needed fs n') (same : n'.id = n.id) :
        ∃ c', n' = .oneOf c' := by
      have kinds := (table_kinds _ needed'.table n' needed.table (about.trans same.symm)).1
      cases n' with
      | oneOf c' => exact ⟨c', rfl⟩
      | under m => cases kinds
    obtain ⟨c₀, rfl⟩ := kind n ⟨f, own, listed⟩ rfl
    by_cases many : c₀.others = []
    · -- Another need on the same field has several alternatives.
      have another : ∃ n', Needed fs n' ∧ n'.id = c₀.id ∧ n' ≠ .oneOf c₀ := by
        by_contra wrong
        refine several ⟨none, ⟨c₀, rfl, many⟩, fun n' needed same => ?_⟩
        by_contra other
        exact wrong ⟨n', needed, same, other⟩
      obtain ⟨n', needed, same, other⟩ := another
      obtain ⟨c₁, rfl⟩ := kind n' needed same
      obtain ⟨f₁, own₁, listed₁⟩ := needed
      refine exists_invalid_of_alternatives accepted own₁ listed₁ (fun one₁ => other ?_)
        fun g inside target => none g inside (target.trans same)
      rw [choice_eq same one₁ many (common _ ⟨f₁, own₁, listed₁⟩ same)
        (common _ ⟨f, own, listed⟩ rfl)]
    · exact exists_invalid_of_alternatives accepted own listed many none

end

section

variable {f g : Field} {n : Need} {c : Choice} {bs : List Block}

/-- What a need becomes in a list that says nothing about its field. -/
def fresh : Need → Block
  | .oneOf c => if c.others = [] then .real c.field else .pending (.oneOf c)
  | .under m => .pending (.under m)

@[simp]
theorem id_fresh (n : Need) : (fresh n).id? = some n.id := by
  cases n with
  | oneOf c =>
    rw [fresh]
    split
    · rfl
    · rfl
  | under m => rfl

private theorem insertNeed_fresh (absent : n.id ∉ fields bs) :
    insertNeed bs n = bs ++ [fresh n] := by
  have unmet : ¬ bs.any (·.meets n) = true := fun meets => absent (mem_fields_of_meets meets)
  rw [insertNeed.eq_def, if_neg unmet]
  cases n with
  | oneOf c =>
    by_cases one : c.others = []
    · simp [fresh, one, absent]
    · simp [fresh, one]
  | under m => rfl

private theorem insertAll_fresh {ns : List Need} (distinct : (ns.map Need.id).Nodup)
    (absent : ∀ n ∈ ns, n.id ∉ fields bs) : ns.foldl insertNeed bs = bs ++ ns.map fresh := by
  induction ns generalizing bs with
  | nil => simp
  | cons n ns ih =>
    rw [List.map_cons, List.nodup_cons] at distinct
    rw [List.forall_mem_cons] at absent
    have later : ∀ n' ∈ ns, n'.id ∉ fields (bs ++ [fresh n]) := by
      intro n' member inside
      have about : n'.id ∈ fields bs ∨ n'.id = n.id := by
        simpa [fields_append, fields] using inside
      rcases about with taken | same
      · exact absent.2 n' member taken
      · exact distinct.1 (List.mem_map.mpr ⟨n', member, same⟩)
    rw [List.foldl_cons, insertNeed_fresh absent.1, ih distinct.2 later]
    simp

private theorem place_absent (absent : f.id ∉ fields bs) : place f bs = some none := by
  induction bs with
  | nil => rfl
  | cons b bs ih =>
    have later : place f bs = some none := ih fun member => absent (by
      rw [mem_fields_iff] at member ⊢
      exact member.imp fun b' inside => ⟨List.mem_cons_of_mem _ inside.1, inside.2⟩)
    have other : b.id? ≠ some f.id := fun same =>
      absent (mem_fields_iff.mpr ⟨b, List.mem_cons_self, same⟩)
    cases b with
    | real g => rw [place, if_neg (by simpa [Block.id?] using other), later]; rfl
    | pending n =>
      cases n with
      | oneOf c => rw [place, if_neg (by simpa [Block.id?, Need.id] using other), later]; rfl
      | under m =>
        have foreign : m.id ≠ f.id := by simpa [Block.id?, Need.id] using other
        rw [place, if_neg (fun both => foreign both.1), later]
        rfl
    | poison => rw [place, later]; rfl

private theorem addField_nil (f : Field) :
    addField [] f = some ((needs f.id).map fresh ++ [.real f]) := by
  have inserted : (needs f.id).foldl insertNeed [] = [] ++ (needs f.id).map fresh :=
    insertAll_fresh (nodup_needs f.id) (by simp [fields])
  have absent : f.id ∉ fields ([] ++ (needs f.id).map fresh) := by
    intro member
    obtain ⟨b, inside, about⟩ := mem_fields_iff.mp member
    obtain ⟨n, listed, rfl⟩ := List.mem_map.mp inside
    rw [id_fresh, Option.some.injEq] at about
    exact needs_id_ne f.id n listed about
  rw [addField, inserted, place_absent absent]
  rfl

private theorem meets_fresh {m : Need} (same : m.id = n.id) (implied : implies m n = true) :
    (fresh m).meets n = true := by
  cases m with
  | oneOf c =>
    have first : n.accepts c.first = true :=
      accepts_of_implies implied (by simp [Need.accepts, Choice.values])
    have about : c.id = n.id := same
    rw [fresh]
    split
    · simp [Block.meets, Choice.field, about, first]
    · have overlap : overlaps (.oneOf c) n = true :=
        List.any_eq_true.mpr ⟨c.first, by simp [Choice.values], first⟩
      simp [Block.meets, same, overlap]
  | under m => cases implied

private theorem insertAll_met {ns : List Need} (met : ∀ n ∈ ns, bs.any (·.meets n) = true) :
    ns.foldl insertNeed bs = bs := by
  induction ns with
  | nil => rfl
  | cons n ns ih =>
    rw [List.forall_mem_cons] at met
    rw [List.foldl_cons, insertNeed.eq_def, if_pos met.1, ih met.2]

private theorem substituteLoop_other {b : Block} (other : b.id? ≠ some g.id) (rest : List Item) :
    substituteLoop g.id.type g.value (b.items ++ rest) =
      (substituteLoop g.id.type g.value rest).map (behindAll b.items) := by
  have signals := signal_ne_type g.id
  cases b with
  | real h =>
    have type : h.item.type ≠ g.id.type := items_ne_type g.regular other _ (by simp [Block.items])
    have foreign := signal_ne_type h.id
    refine substituteLoop_skip rest ?_
    simpa [Block.items] using ⟨type, foreign.1.symm, foreign.2.1.symm⟩
  | pending n =>
    cases n with
    | oneOf c => exact substituteLoop_choice (by simpa [Block.id?, Need.id] using other) rest
    | under m =>
      have foreign : m.id ≠ g.id := by simpa [Block.id?, Need.id] using other
      rw [substituteLoop_masking, if_neg (fun both => foreign both.1)]
  | poison =>
    refine substituteLoop_skip rest ?_
    simp only [Block.items, List.mem_singleton, forall_eq, signal]
    exact ⟨signals.2.2, by decide, by decide⟩

private theorem substituteValue_overrun {values : List Bytes} {h : Field} {rest : List Item}
    (sized : ∀ value ∈ values, value.length = g.id.size) (refused : g.value ∉ values)
    (wrong : h.id.size ≠ g.id.size) :
    substituteValue g.id.type g.value
      (values.map (fun value => ⟨g.id.type, value⟩) ++ h.item :: rest) = none := by
  induction values with
  | nil =>
    have length : g.value.length ≠ OXMType.length h.item.type ∧ h.item.experimenter = 0 := by
      rw [Field.item, g.sized, length_type]
      exact ⟨wrong.symm, experimenter_type h.regular h.value⟩
    rw [List.map_nil, List.nil_append, substituteValue, if_pos length]
  | cons value values ih =>
    rw [List.forall_mem_cons] at sized
    rw [List.mem_cons, not_or] at refused
    have length : ¬ (g.value.length ≠ OXMType.length g.id.type ∧
        (⟨g.id.type, value⟩ : Item).experimenter = 0) := by
      rw [g.sized, length_type]
      exact fun wrong => wrong.1 rfl
    rw [List.map_cons, List.cons_append, substituteValue, if_neg length,
      if_neg (fun matched => refused.1
        ((matchValueWithValue_iff g.regular g.sized sized.1).mp matched))]
    exact ih sized.2 refused.2

theorem substituteLoop_overrun {h : Field} (own : c.id = g.id) (refused : g.value ∉ c.values)
    (wrong : h.id.size ≠ g.id.size) (rest : List Item) :
    substituteLoop g.id.type g.value
      ((Block.pending (.oneOf c)).items ++ h.item :: rest) = none := by
  have signals := signal_ne_type g.id
  have distinct : kValuePrereqSignal ≠ kMaskedPrereqSignal := by decide
  have walk : substituteValue g.id.type g.value
      (c.values.map (fun value => ⟨g.id.type, value⟩) ++ h.item :: rest) = none :=
    substituteValue_overrun (fun value listed => own ▸ c.sized value listed) refused wrong
  rw [Block.items, List.cons_append, substituteLoop.eq_def]
  simp only [Need.items, own, Choice.values, List.map_cons, List.cons_append] at walk ⊢
  simp only [signal, if_neg signals.2.1, if_neg distinct, if_true, hasMask_type,
    Bool.false_eq_true, if_false, walk, Option.map_none]

/-- Alternatives are followed by a value of another size: the one that is needed next, or the
field itself. -/
def sizesApart (size : Nat) : List Need → Bool
  | [] => true
  | n :: ns => (!isManifold n || match ns with
    | [] => size != n.id.size
    | .oneOf c :: _ => c.others.isEmpty && c.id.size != n.id.size
    | _ => false) && sizesApart size ns

private theorem sizesApart_needs (id : InternalId) : sizesApart id.size (needs id) = true := by
  cases id <;> decide

private theorem substituteLoop_refused {ns : List Need} (distinct : (ns.map Need.id).Nodup)
    (apart : sizesApart f.id.size ns = true) (listed : .oneOf c ∈ ns) (many : c.others ≠ [])
    (own : g.id = c.id) (refused : g.value ∉ c.values) :
    substituteLoop g.id.type g.value (flatten (ns.map fresh ++ [.real f])) = none := by
  induction ns with
  | nil => cases listed
  | cons n ns ih =>
    rw [List.map_cons, List.nodup_cons] at distinct
    rw [sizesApart.eq_def] at apart
    simp only [Bool.and_eq_true] at apart
    rw [List.map_cons, List.cons_append, flatten, List.flatMap_cons]
    rcases List.mem_cons.mp listed with rfl | later
    · have manifold := (isManifold_oneOf c).mpr many
      have block : fresh (.oneOf c) = .pending (.oneOf c) := by rw [fresh, if_neg many]
      rw [block]
      cases ns with
      | nil =>
        refine substituteLoop_overrun own.symm refused ?_ []
        simpa [manifold, Need.id, own] using apart.1
      | cons m ns =>
        cases m with
        | oneOf c' =>
          have next : c'.others = [] ∧ c'.id.size ≠ g.id.size := by
            simpa [manifold, Need.id, own] using apart.1
          rw [List.map_cons, List.cons_append, List.flatMap_cons, fresh, if_pos next.1]
          exact substituteLoop_overrun own.symm refused next.2 _
        | under m => simp [manifold] at apart
    · have other : n.id ≠ g.id := fun same =>
        distinct.1 (List.mem_map.mpr ⟨_, later, (same.trans own).symm⟩)
      rw [substituteLoop_other (by simpa using other)]
      rw [flatten] at ih
      rw [ih distinct.2 apart.2 later, Option.map_none]

private theorem add_refused (listed : .oneOf c ∈ needs f.id) (many : c.others ≠ [])
    (own : g.id = c.id) (refused : g.value ∉ c.values) :
    add (flatten ((needs f.id).map fresh ++ [.real f])) g = none := by
  have met : ∀ n ∈ needs g.id,
      ((needs f.id).map fresh ++ [Block.real f]).any (·.meets n) = true := by
    intro n needed
    rw [own] at needed
    obtain ⟨m, listed', same, implied⟩ := implied_needs f.id _ listed n needed
    exact List.any_eq_true.mpr ⟨fresh m,
      List.mem_append_left _ (List.mem_map.mpr ⟨m, listed', rfl⟩), meets_fresh same implied⟩
  rw [add, insertAll_prerequisites, insertAll_met met, substitute, isExperimenter_type, g.regular,
    if_neg (by decide), substituteLoop_refused (nodup_needs f.id) (sizesApart_needs f.id) listed
      many own refused, Option.map_none]

private theorem exists_failing_order {fs : List Field} (refused : Refused fs) :
    ∃ order : List Field, order.Perm fs ∧ validated order = none := by
  obtain ⟨c, ⟨f, own, listed⟩, many, g, inside, target, refused⟩ := refused
  have other : g ≠ f := fun equal => needs_id_ne f.id _ listed (equal ▸ target.symm)
  obtain ⟨rest, perm⟩ := exists_first_two own inside other
  refine ⟨_, perm, ?_⟩
  have first : add [] f = some (flatten ((needs f.id).map fresh ++ [.real f])) :=
    add_flatten (addField_nil f)
  have built : build (f :: g :: rest) = none := by
    rw [build, List.foldlM_cons, first]
    show (List.foldlM add (flatten ((needs f.id).map fresh ++ [.real f])) (g :: rest)) = none
    rw [List.foldlM_cons, add_refused listed many target refused]
    rfl
  rw [validated, built, Option.map_none]

end

section

variable {fs done : List Field} {f : Field} {bs bs' : List Block}

private theorem length_needs_lt (id : InternalId) : ∀ n ∈ needs id,
    (needs n.id).length < (needs id).length := by
  cases id <;> decide

def Explained (done : List Field) (bs : List Block) : Prop :=
  ∀ id ∈ fields bs, ∃ d ∈ done, Concerns d id

private theorem fields_insertAll {ns : List Need} {id : InternalId}
    (member : id ∈ fields (ns.foldl insertNeed bs)) : id ∈ fields bs ∨ ∃ n ∈ ns, n.id = id := by
  induction ns generalizing bs with
  | nil => exact .inl member
  | cons n ns ih =>
    rcases ih member with early | ⟨n', listed, same⟩
    · have step := insertNeed_cases n bs
      generalize insertNeed bs n = bs₁ at step early
      have inside : id ∈ fields bs ∨ n.id = id := by
        cases step with
        | met => exact .inl early
        | pending => simpa [eq_comm] using early
        | conflict => exact .inl (by simpa using early)
        | single c same =>
          subst same
          simpa [eq_comm, Need.id, Choice.field] using early
      exact inside.imp_right fun same => ⟨n, List.mem_cons_self, same⟩
    · exact .inr ⟨n', List.mem_cons_of_mem _ listed, same⟩

theorem Explained.addField (explained : Explained done bs) (added : addField bs f = some bs') :
    Explained (done ++ [f]) bs' := by
  intro id member
  have inside : id ∈ fields ((needs f.id).foldl insertNeed bs) ∨ f.id = id := by
    obtain ⟨r, found, rfl⟩ := Option.map_eq_some_iff.mp added
    cases r with
    | none => simpa [eq_comm] using member
    | some bs' =>
      have same := fields_placed (place_cases found)
      rw [Option.getD_some, same] at member
      exact .inl member
  rcases inside with inserted | own
  · rcases fields_insertAll inserted with early | needed
    · obtain ⟨d, before, concerns⟩ := explained id early
      exact ⟨d, List.mem_append_left _ before, concerns⟩
    · exact ⟨f, by simp, .inr needed⟩
  · exact ⟨f, by simp, .inl own⟩

theorem exists_reached (distinct : Distinct done)
    (sorted : done.Pairwise fun f g => (needs f.id).length ≤ (needs g.id).length) :
    ∃ bs, addFields [] done = some bs ∧ Reached done bs ∧ Explained done bs := by
  induction done using List.reverseRecOn with
  | nil =>
    exact ⟨[], rfl, (run_nil []).reached, by simp [Explained, fields]⟩
  | append_singleton done f ih =>
    have fresh : ∀ d ∈ done, d.id ≠ f.id := by
      intro d early same
      rw [Distinct, List.map_append, List.nodup_append] at distinct
      exact distinct.2.2 d.id (List.mem_map_of_mem early) f.id (by simp) same
    have less := (List.pairwise_append.mp sorted).2.2
    obtain ⟨bs, added, reached, explained⟩ := ih
      (distinct.sublist ((List.sublist_append_left done [f]).map Field.id))
      (sorted.sublist (List.sublist_append_left done [f]))
    have absent : f.id ∉ fields bs := by
      intro member
      obtain ⟨d, early, own | ⟨n, listed, needed⟩⟩ := explained f.id member
      · exact fresh d early own
      · have fewer := length_needs_lt d.id n listed
        rw [needed] at fewer
        have more := less d early f (by simp)
        omega
    have ready : Ready f bs := .inr fun c member same =>
      absurd (same ▸ mem_fields_of_pending member) absent
    obtain ⟨bs', last, reached'⟩ := reached.addField ready
    refine ⟨bs', ?_, reached', explained.addField last⟩
    rw [addFields_append, added, Option.bind_some, last]

private theorem exists_lasting_order (distinct : Distinct fs) :
    ∃ order : List Field, order.Perm fs ∧ ∃ result, validated order = some result := by
  obtain ⟨order, perm, sorted⟩ := exists_ordered (fun f => (needs f.id).length) fs
  have distinct' : Distinct order := (perm.map Field.id).nodup_iff.mpr distinct
  obtain ⟨bs, added, -⟩ := exists_reached distinct' sorted
  exact ⟨order, perm, _, validated_of_addFields added⟩

end

section

variable {fs : List Field}

private theorem validated_of_settled (distinct : Distinct fs) (settled : Settled fs) :
    validated fs = some true := by
  obtain ⟨gs, built, valid, -⟩ := build_settled distinct settled
  rw [validated, built, Option.map_some, valid]

private theorem validated_of_not_agreeable (accepted : ¬ Refused fs) (unable : ¬ Agreeable fs) :
    validated fs = some false := by
  obtain ⟨bs, added, run⟩ := exists_run accepted fun f (member : f ∈ fs) => member
  have invalid : validate (flatten bs) = false := by
    rw [Bool.eq_false_iff]
    exact fun valid => unable (run.agreeable valid)
  rw [validated_of_addFields added, invalid]

/-- The order does not matter exactly if no field is refused and a set that allows for a valid
list settles its needs. -/
theorem validated_perm_iff (fs : List Field) (distinct : (fs.map Field.id).Nodup) :
    (∀ fs₁ fs₂ : List Field, fs₁.Perm fs → fs₂.Perm fs → validated fs₁ = validated fs₂) ↔
      ¬ Refused fs ∧ (Agreeable fs → Settled fs) := by
  constructor
  · intro same
    have accepted : ¬ Refused fs := by
      intro refused
      obtain ⟨order, perm, failing⟩ := exists_failing_order refused
      obtain ⟨order', perm', result, lasting⟩ := exists_lasting_order distinct
      have equal := same order order' perm perm'
      rw [failing, lasting] at equal
      cases equal
    refine ⟨accepted, fun agreeable => ?_⟩
    by_contra unsettled
    obtain ⟨order, perm, valid⟩ := exists_valid_order distinct accepted agreeable
    obtain ⟨order', perm', invalid⟩ := exists_invalid_order accepted agreeable unsettled
    have equal := same order order' perm perm'
    rw [valid, invalid] at equal
    cases equal
  · rintro ⟨accepted, settles⟩ fs₁ fs₂ perm₁ perm₂
    by_cases agreeable : Agreeable fs
    · have valid {order : List Field} (perm : order.Perm fs) : validated order = some true :=
        validated_of_settled ((perm.map Field.id).nodup_iff.mpr distinct)
          ((settled_perm perm).mpr (settles agreeable))
      rw [valid perm₁, valid perm₂]
    · have invalid {order : List Field} (perm : order.Perm fs) : validated order = some false :=
        validated_of_not_agreeable (fun refused => accepted ((refused_perm perm).mp refused))
          (fun able => agreeable ((agreeable_perm perm).mp able))
      rw [invalid perm₁, invalid perm₂]

theorem validated_perm_tcpSrc :
    let fs := [ipProto6, tcpSrc80]
    (fs.map Field.id).Nodup ∧
      ((∀ fs₁ fs₂ : List Field, fs₁.Perm fs → fs₂.Perm fs → validated fs₁ = validated fs₂) ↔
        ¬ Refused fs ∧ (Agreeable fs → Settled fs)) :=
  ⟨by decide, validated_perm_iff [ipProto6, tcpSrc80] (by decide)⟩

def ipv4SrcLocal : Field := ⟨.ipv4Src, [127, 0, 0, 1], rfl, rfl⟩

/-- Without an Ethernet type, the IP protocol must not come first. -/
theorem ipProto_before_ipv4Src :
    validated [ipProto6, ipv4SrcLocal] = some false ∧
      validated [ipv4SrcLocal, ipProto6] = some true := by
  decide +kernel

end

end Libofp.Match.InsertionOrder
