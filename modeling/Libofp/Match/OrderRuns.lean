/- GID: Libofp/Match/OrderRuns
   digest: Runs that add the fields of a set none of which is refused. -/

import Libofp.Match.SettledFields

set_option autoImplicit false

namespace Libofp.Match.OrderRuns

open Builder Needs Blocks BlockSteps
open BlockRuns SettledFields

/-- A field of the set has a value that is none of several alternatives which another field
of the set needs. -/
def Refused (fs : List Field) : Prop :=
  ∃ c, Needed fs (.oneOf c) ∧ c.others ≠ [] ∧ ∃ g ∈ fs, g.id = c.id ∧ g.value ∉ c.values

def Covered (fs : List Field) (n : Need) : Prop :=
  ∃ c, n = .oneOf c ∧ c.others = [] ∧ ∃ c', Needed fs (.oneOf c') ∧ c'.others ≠ [] ∧
    c'.id = c.id ∧ c.first ∈ c'.values

/-- Some order may lead to a valid list. A need on a field of the set accepts its value; or it
is covered by alternatives, and its field has another need. The needs on any other field have
a value in common that one of them demands. -/
def Agreeable (fs : List Field) : Prop :=
  ∀ f ∈ fs, ∀ n ∈ needs f.id,
    (∃ g ∈ fs, g.id = n.id ∧
      (n.accepts g.value = true ∨ Covered fs n ∧ ∃ n' ∈ needs f.id, n' ≠ n)) ∨
    (∀ g ∈ fs, g.id ≠ n.id) ∧ ∃ c, Needed fs (.oneOf c) ∧ c.others = [] ∧ c.id = n.id ∧
      ∀ n', Needed fs n' → n'.id = n.id → n'.accepts c.first = true

section

/-- A block stands for the need: it meets it, or it is a field of the set that took the place
of alternatives which met it. -/
def Accounted (fs : List Field) (bs : List Block) (n : Need) : Prop :=
  ∃ b ∈ bs, b.id? = some n.id ∧ (b.meets n = true ∨ Covered fs n ∧ ∃ g ∈ fs, b = .real g)

structure Traced (fs : List Field) (sofar : Need → Prop) (bs : List Block) : Prop where
  tidy : Tidy bs
  pending : ∀ n, .pending n ∈ bs → Needed fs n ∧ ∀ c, n = .oneOf c → c.others ≠ []
  origin : ∀ g, .real g ∈ bs → g ∈ fs ∨ ∃ c, Needed fs (.oneOf c) ∧ c.others = [] ∧ c.field = g
  account : Spoilt bs ∨ Clean bs ∧ ∀ n, sofar n → Accounted fs bs n

variable {fs : List Field} {sofar : Need → Prop} {bs bs' : List Block} {n : Need} {f : Field}

theorem Accounted.append (accounted : Accounted fs bs n) (more : List Block) :
    Accounted fs (bs ++ more) n := by
  obtain ⟨b, member, about, stands⟩ := accounted
  exact ⟨b, List.mem_append_left _ member, about, stands⟩

theorem accounted_of_meets {b : Block} (member : b ∈ bs) (meets : b.meets n = true) :
    Accounted fs bs n := ⟨b, member, id_of_meets meets, .inl meets⟩

private theorem accounted_inserted (listed : n ∈ table) (step : Inserted n bs bs')
    (clean : Clean bs') : Accounted fs bs' n := by
  cases step with
  | met meets =>
    obtain ⟨b, member, met⟩ := List.any_eq_true.mp meets
    exact accounted_of_meets member met
  | pending =>
    refine accounted_of_meets (List.mem_append_right _ List.mem_cons_self) ?_
    simp [Block.meets, table_overlaps n listed]
  | conflict => exact absurd (by simp) clean.wholesome
  | single c same =>
    subst same
    refine accounted_of_meets (List.mem_append_right _ List.mem_cons_self) ?_
    simp [Block.meets, Choice.field, Need.id, Need.accepts, Choice.values]

theorem Traced.inserted (traced : Traced fs sofar bs) (needed : Needed fs n)
    (step : Inserted n bs bs') : Traced fs (fun m => sofar m ∨ m = n) bs' where
  tidy := traced.tidy.inserted needed.table step
  pending p member := by
    cases step with
    | met => exact traced.pending p member
    | pending unmet many =>
      rcases List.mem_append.mp member with inside | last
      · exact traced.pending p inside
      · cases List.mem_singleton.mp last
        exact ⟨needed, many⟩
    | conflict => exact traced.pending p (by simpa using member)
    | single => exact traced.pending p (by simpa using member)
  origin g member := by
    cases step with
    | met => exact traced.origin g member
    | pending => exact traced.origin g (by simpa using member)
    | conflict => exact traced.origin g (by simpa using member)
    | single c same one free =>
      rcases List.mem_append.mp member with inside | last
      · exact traced.origin g inside
      · cases List.mem_singleton.mp last
        exact .inr ⟨c, same ▸ needed, one, rfl⟩
  account := by
    rcases traced.account with spoilt | ⟨clean, all⟩
    · exact .inl (spoilt.inserted step)
    · rcases clean.inserted step with clean' | spoilt
      · refine .inr ⟨clean', fun m h => ?_⟩
        rcases h with old | rfl
        · have before := all m old
          cases step with
          | met => exact before
          | pending => exact before.append _
          | conflict => exact before.append _
          | single => exact before.append _
        · exact accounted_inserted needed.table step clean'
      · exact .inl spoilt

theorem mem_values_of_not_refused (accepted : ¬ Refused fs) (own : f ∈ fs) {c : Choice}
    (needed : Needed fs (.oneOf c)) (many : c.others ≠ []) (same : c.id = f.id) :
    f.value ∈ c.values := by
  by_contra missing
  exact accepted ⟨c, needed, many, f, own, same.symm, missing⟩

private theorem meets_or_covered {p : Need} (accepted : ¬ Refused fs) (own : f ∈ fs)
    (same : p.id = f.id) (offered : p.accepts f.value = true) (known : Needed fs p)
    (many : ∀ c, p = .oneOf c → c.others ≠ []) (needed : Needed fs n) (target : p.id = n.id)
    (overlap : overlaps p n = true) : n.accepts f.value = true ∨ Covered fs n := by
  have kinds := table_kinds p known.table n needed.table target
  cases p with
  | oneOf c =>
    cases n with
    | under m => cases kinds.1
    | oneOf c' =>
      by_cases single : c'.others = []
      · obtain ⟨value, listed, met⟩ := List.any_eq_true.mp overlap
        have first : value = c'.first := by
          simpa [Need.accepts, Choice.values, single] using met
        exact .inr ⟨c', rfl, single, c, known, many c rfl, target, first ▸ listed⟩
      · have value := mem_values_of_not_refused accepted own needed single (target.symm.trans same)
        exact .inl (by simpa [Need.accepts] using value)
  | under m =>
    rw [← kinds.2 rfl]
    exact .inl offered

variable {before behind : List Block}

theorem Accounted.fill {p : Need} (accepted : ¬ Refused fs)
    (own : f ∈ fs) (same : p.id = f.id) (offered : p.accepts f.value = true)
    (known : Needed fs p) (many : ∀ c, p = .oneOf c → c.others ≠ [])
    (needed : Needed fs n) (accounted : Accounted fs (before ++ .pending p :: behind) n) :
    Accounted fs (before ++ .real f :: behind) n := by
  obtain ⟨b, member, about, stands⟩ := accounted
  have split : b ∈ before ∨ b = .pending p ∨ b ∈ behind := by
    simpa using member
  rcases split with early | rfl | late
  · exact ⟨b, List.mem_append_left _ early, about, stands⟩
  · have target : p.id = n.id := Option.some.inj about
    have overlap : overlaps p n = true := by
      rcases stands with meets | ⟨-, g, -, wrong⟩
      · simpa [Block.meets, target] using meets
      · cases wrong
    refine ⟨.real f, by simp, congrArg some (same.symm.trans target), ?_⟩
    rcases meets_or_covered accepted own same offered known many needed target overlap with
      value | covered
    · exact .inl (by simp [Block.meets, same.symm.trans target, value])
    · exact .inr ⟨covered, f, own, rfl⟩
  · exact ⟨b, List.mem_append_right _ (List.mem_cons_of_mem _ late), about, stands⟩

theorem Traced.ready (traced : Traced fs sofar bs) (accepted : ¬ Refused fs) (own : f ∈ fs) :
    Ready f bs := by
  refine .inr fun c member same => ?_
  obtain ⟨needed, many⟩ := traced.pending _ member
  exact mem_values_of_not_refused accepted own needed (many c rfl) same

theorem Traced.fill {p : Need} (traced : Traced fs sofar (before ++ .pending p :: behind))
    (accepted : ¬ Refused fs) (known : ∀ n, sofar n → Needed fs n) (own : f ∈ fs)
    (same : p.id = f.id) (offered : p.accepts f.value = true) (pass : ∀ b ∈ before, Passes f b)
    (last : ∀ g, .real g ∈ behind → g.id ≠ f.id) :
    Traced fs sofar (before ++ .real f :: behind) where
  tidy := traced.tidy.fill pass
  pending n member := traced.pending n (by
    have inside : .pending n ∈ before ∨ .pending n ∈ behind := by simpa using member
    exact List.mem_append.mpr (inside.imp_right (List.mem_cons_of_mem _)))
  origin g member := by
    by_cases equal : g = f
    · exact .inl (equal ▸ own)
    · exact traced.origin g (by simpa [equal] using member)
  account := by
    obtain ⟨needed, many⟩ := traced.pending p (by simp)
    rcases traced.account with spoilt | ⟨clean, all⟩
    · exact .inl (spoilt.fill same pass last)
    · exact .inr ⟨clean.fill same, fun n h =>
        (all n h).fill accepted own same offered needed many (known n h)⟩

theorem Traced.poison (traced : Traced fs sofar (before ++ behind)) :
    Traced fs sofar (before ++ .poison :: behind) where
  tidy := traced.tidy.poison
  pending n member := traced.pending n (by simpa using member)
  origin g member := traced.origin g (by simpa using member)
  account := .inl (.inl (by simp))

theorem Traced.placed (traced : Traced fs sofar bs) (accepted : ¬ Refused fs)
    (known : ∀ n, sofar n → Needed fs n) (own : f ∈ fs) (step : Placed f bs (some bs')) :
    Traced fs sofar bs' := by
  have tidy := traced.tidy.placed step
  cases step with
  | kept => exact traced
  | conflict => exact traced.poison
  | chosen before behind pass same offered last =>
    refine traced.fill accepted known own same (by simpa [Need.accepts] using offered) pass ?_
    exact fun g member about => last (about ▸ mem_fields_of_real member)
  | masked before behind pass same offered poisoned =>
    rcases poisonLater_cases poisoned with ⟨rfl, last⟩ | ⟨between, g, rest, rfl, about, rfl⟩
    · exact traced.fill accepted known own same offered pass last
    · refine ⟨tidy, fun n member => traced.pending n ?_, fun g' member => ?_, .inl (.inl (by simp))⟩
      · have inside : .pending n ∈ before ∨ .pending n ∈ between ∨ .pending n ∈ rest := by
          simpa using member
        simp only [List.mem_append, List.mem_cons]
        tauto
      · by_cases equal : g' = f
        · exact .inl (equal ▸ own)
        · exact traced.origin g' (by simpa [equal] using member)

theorem Traced.appended (traced : Traced fs sofar bs) (own : f ∈ fs) (step : Placed f bs none) :
    Traced fs sofar (bs ++ [.real f]) where
  tidy := traced.tidy.appended step
  pending n member := traced.pending n (by simpa using member)
  origin g member := by
    rcases List.mem_append.mp member with inside | last
    · exact traced.origin g inside
    · cases List.mem_singleton.mp last
      exact .inl own
  account := by
    rcases traced.account with spoilt | ⟨clean, all⟩
    · exact .inl (spoilt.append _)
    · rcases clean.appended step with clean' | spoilt
      · exact .inr ⟨clean', fun n h => (all n h).append _⟩
      · exact .inl spoilt

theorem Traced.insertAll (traced : Traced fs sofar bs) {ns : List Need}
    (needed : ∀ n ∈ ns, Needed fs n) :
    Traced fs (fun n => sofar n ∨ n ∈ ns) (ns.foldl insertNeed bs) := by
  induction ns generalizing bs sofar with
  | nil => simpa using traced
  | cons n ns ih =>
    rw [List.forall_mem_cons] at needed
    have rest := ih (traced.inserted needed.1 (insertNeed_cases n bs)) needed.2
    simpa [or_assoc] using rest

end

section

variable {fs done : List Field} {bs bs' : List Block} {f : Field}

structure Run (fs done : List Field) (bs : List Block) : Prop where
  inside : ∀ f ∈ done, f ∈ fs
  traced : Traced fs (Needed done) bs
  reached : Reached done bs
  grounded : Grounded (fields bs)

private theorem needed_append {n : Need} :
    Needed (done ++ [f]) n ↔ Needed done n ∨ n ∈ needs f.id := by
  simp [Needed]

theorem run_nil (fs : List Field) : Run fs [] [] where
  inside := by simp
  traced := ⟨⟨by simp, .nil⟩, by simp, by simp, .inr ⟨⟨by simp, .nil⟩, by simp [Needed]⟩⟩
  reached := ⟨⟨by simp, .nil⟩, .inr ⟨⟨by simp, .nil⟩, by simp⟩⟩
  grounded := fun before id place => by simp at place

theorem Run.addField (run : Run fs done bs) (accepted : ¬ Refused fs) (own : f ∈ fs) :
    ∃ bs', addField bs f = some bs' ∧ Run fs (done ++ [f]) bs' := by
  obtain ⟨bs', added, reached⟩ := run.reached.addField (run.traced.ready accepted own)
  have inside : ∀ g ∈ done ++ [f], g ∈ fs := by
    intro g member
    rcases List.mem_append.mp member with early | last
    · exact run.inside g early
    · exact List.mem_singleton.mp last ▸ own
  refine ⟨bs', added, inside, ?_, reached, grounded_addField run.grounded added⟩
  have inserted := run.traced.insertAll
    (fun n listed => ⟨f, own, listed⟩ : ∀ n ∈ needs f.id, Needed fs n)
  have sofar : (fun n => Needed done n ∨ n ∈ needs f.id) = Needed (done ++ [f]) := by
    funext n
    exact propext needed_append.symm
  rw [sofar] at inserted
  have known (n : Need) (needed : Needed (done ++ [f]) n) : Needed fs n := by
    obtain ⟨g, member, listed⟩ := needed
    exact ⟨g, inside g member, listed⟩
  obtain ⟨r, found, rfl⟩ := Option.map_eq_some_iff.mp added
  cases r with
  | none => exact inserted.appended own (place_cases found)
  | some bs' => exact inserted.placed accepted known own (place_cases found)

def addFields (bs : List Block) (rest : List Field) : Option (List Block) :=
  rest.foldlM Blocks.addField bs

theorem addFields_cons (bs : List Block) (f : Field) (rest : List Field) :
    addFields bs (f :: rest) = (Blocks.addField bs f).bind (addFields · rest) := by
  rfl

theorem build_of_addFields {bs : List Block} {rest : List Field}
    (added : addFields [] rest = some bs) : build rest = some (flatten bs) := by
  have general (rest : List Field) (bs bs' : List Block) (added : addFields bs rest = some bs') :
      rest.foldlM add (flatten bs) = some (flatten bs') := by
    induction rest generalizing bs with
    | nil =>
      cases added
      rfl
    | cons f rest ih =>
      rw [addFields_cons, Option.bind_eq_some_iff] at added
      obtain ⟨bs₁, first, later⟩ := added
      rw [List.foldlM_cons, add_flatten first]
      exact ih bs₁ later
  exact general rest [] bs added

theorem Run.addFields (run : Run fs done bs) (accepted : ¬ Refused fs) {rest : List Field}
    (inside : ∀ f ∈ rest, f ∈ fs) :
    ∃ bs', OrderRuns.addFields bs rest = some bs' ∧ Run fs (done ++ rest) bs' := by
  induction rest generalizing done bs with
  | nil => exact ⟨bs, rfl, by simpa using run⟩
  | cons f rest ih =>
    rw [List.forall_mem_cons] at inside
    obtain ⟨bs₁, first, run₁⟩ := run.addField accepted inside.1
    obtain ⟨bs', later, run'⟩ := ih run₁ inside.2
    refine ⟨bs', ?_, by simpa using run'⟩
    rw [addFields_cons, first, Option.bind_some, later]

theorem exists_run (accepted : ¬ Refused fs) (inside : ∀ f ∈ done, f ∈ fs) :
    ∃ bs, addFields [] done = some bs ∧ Run fs done bs := (run_nil fs).addFields accepted inside

theorem Run.agreeable (run : Run fs fs bs) (valid : validate (flatten bs) = true) :
    Agreeable fs := by
  obtain ⟨gs, rfl, checked⟩ := validate_flatten_iff.mp valid
  have clean : Clean (gs.map Block.real) ∧ (∀ f ∈ fs, .real f ∈ gs.map Block.real) := by
    rcases run.reached.whole with spoilt | whole
    · rw [not_validate_of_spoilt spoilt] at valid
      cases valid
    · exact whole
  obtain ⟨clean, all⟩ := clean
  have accounts : ∀ n, Needed fs n → Accounted fs (gs.map .real) n := by
    rcases run.traced.account with spoilt | whole
    · rw [not_validate_of_spoilt spoilt] at valid
      cases valid
    · exact whole.2
  have same {g g' : Field} (member : .real g ∈ gs.map Block.real)
      (member' : .real g' ∈ gs.map Block.real) (about : g.id = g'.id) : g = g' := by
    have equal := clean.unique member member' rfl (congrArg some about.symm)
    cases equal
    rfl
  intro f own n listed
  obtain ⟨b, member, about, stands⟩ := accounts n ⟨f, own, listed⟩
  obtain ⟨g, inside, rfl⟩ := List.mem_map.mp member
  have target : g.id = n.id := Option.some.inj about
  by_cases present : ∃ g' ∈ fs, g'.id = n.id
  · obtain ⟨g', own', target'⟩ := present
    obtain rfl := same (all g' own') member (target'.trans target.symm)
    refine .inl ⟨g', own', target, ?_⟩
    rcases stands with meets | ⟨covered, -⟩
    · simp only [Block.meets, Bool.and_eq_true] at meets
      exact .inl meets.2
    · -- The check has found a need that is met; it is this one or another one.
      obtain ⟨before, behind, split⟩ := List.append_of_mem
        (show f ∈ gs by simpa using all f own)
      obtain ⟨n', listed', g'', early, target'', value⟩ :=
        checked before f ⟨behind, by simp [split]⟩ (List.ne_nil_of_mem listed)
      by_cases equal : n' = n
      · subst equal
        have inside'' : .real g'' ∈ gs.map Block.real := by
          simp [split, early]
        rw [same inside'' member (target''.trans target.symm)] at value
        exact .inl value
      · exact .inr ⟨covered, n', listed', equal⟩
  · have none : ∀ g' ∈ fs, g'.id ≠ n.id := fun g' own' target' => present ⟨g', own', target'⟩
    refine .inr ⟨none, ?_⟩
    rcases run.traced.origin g member with wrong | ⟨c, needed, one, rfl⟩
    · exact absurd target (none g wrong)
    · refine ⟨c, needed, one, target, fun n' needed' target' => ?_⟩
      obtain ⟨b', member', about', stands'⟩ := accounts n' needed'
      have equal := clean.unique member' member about' (congrArg some (target.trans target'.symm))
      subst equal
      rcases stands' with meets | ⟨-, g', own', wrong⟩
      · simp only [Block.meets, Bool.and_eq_true] at meets
        exact meets.2
      · cases wrong
        exact absurd target (none _ own')

end

section

variable {n : Need} {bs bs' : List Block} {f g : Field} {rest : List Field}

theorem Spoilt.insertAll (spoilt : Spoilt bs) (ns : List Need) :
    Spoilt (ns.foldl insertNeed bs) := by
  induction ns generalizing bs with
  | nil => exact spoilt
  | cons n ns ih => exact ih (spoilt.inserted (insertNeed_cases n bs))

theorem spoilt_addField (spoilt : Spoilt ((needs f.id).foldl insertNeed bs))
    (added : addField bs f = some bs') : Spoilt bs' := by
  obtain ⟨r, found, rfl⟩ := Option.map_eq_some_iff.mp added
  cases r with
  | none => exact spoilt.append _
  | some bs' => exact spoilt.placed (place_cases found)

theorem spoilt_addFields (spoilt : Spoilt bs) (added : addFields bs rest = some bs') :
    Spoilt bs' := by
  induction rest generalizing bs with
  | nil =>
    cases added
    exact spoilt
  | cons f rest ih =>
    rw [addFields_cons, Option.bind_eq_some_iff] at added
    obtain ⟨bs₁, first, later⟩ := added
    exact ih (spoilt_addField (Spoilt.insertAll spoilt _) first) later

private theorem spoilt_of_conflict (clean : Clean bs) (member : .real g ∈ bs) (same : g.id = n.id)
    (refused : n.accepts g.value = false) (step : Inserted n bs bs') : Spoilt bs' := by
  have taken : n.id ∈ fields bs := same ▸ mem_fields_of_real member
  rcases clean.inserted step with clean' | spoilt
  · cases step with
    | met meets =>
      obtain ⟨b, inside, met⟩ := List.any_eq_true.mp meets
      have equal := clean.unique inside member (id_of_meets met) (congrArg some same)
      subst equal
      simp [Block.meets, refused] at met
    | pending =>
      have once := clean'.once
      rw [fields_append, List.nodup_append] at once
      exact absurd rfl (once.2.2 n.id taken n.id (by simp))
    | conflict => exact .inl (by simp)
    | single c own one free =>
      subst own
      exact absurd taken free
  · exact spoilt

theorem spoilt_insertAll {ns : List Need} (state : Spoilt bs ∨ Clean bs ∧ .real g ∈ bs)
    (listed : n ∈ ns) (same : g.id = n.id) (refused : n.accepts g.value = false) :
    Spoilt (ns.foldl insertNeed bs) := by
  induction ns generalizing bs with
  | nil => cases listed
  | cons n' ns ih =>
    rcases state with spoilt | ⟨clean, member⟩
    · exact Spoilt.insertAll spoilt _
    · have step := insertNeed_cases n' bs
      rcases List.mem_cons.mp listed with rfl | later
      · exact Spoilt.insertAll (spoilt_of_conflict clean member same refused step) ns
      · refine ih ?_ later
        rcases clean.inserted step with clean' | spoilt
        · exact .inr ⟨clean', reals_inserted step member⟩
        · exact .inl spoilt

variable {p : Need}

private theorem pending_inserted (step : Inserted n bs bs') (member : .pending p ∈ bs) :
    .pending p ∈ bs' := by
  cases step with
  | met => exact member
  | pending => exact List.mem_append_left _ member
  | conflict => exact List.mem_append_left _ member
  | single => exact List.mem_append_left _ member

theorem pending_insertAll (member : .pending p ∈ bs) (ns : List Need) :
    .pending p ∈ ns.foldl insertNeed bs := by
  induction ns generalizing bs with
  | nil => exact member
  | cons n ns ih => exact ih (pending_inserted (insertNeed_cases n bs) member)

private theorem pending_placed (step : Placed f bs (some bs')) (other : f.id ≠ p.id)
    (member : .pending p ∈ bs) : .pending p ∈ bs' := by
  have remains {before behind : List Block} {n : Need}
      (member : .pending p ∈ before ++ .pending n :: behind) (same : n.id = f.id) :
      .pending p ∈ before ∨ .pending p ∈ behind := by
    have replaced : p ≠ n := fun equal => other (equal ▸ same.symm)
    simpa [replaced] using member
  cases step with
  | kept => exact member
  | conflict => simpa using member
  | chosen before behind pass same =>
    exact List.mem_append.mpr ((remains member same).imp_right (List.mem_cons_of_mem _))
  | masked before behind pass same accepted poisoned =>
    have inside := remains member same
    refine List.mem_append.mpr (inside.imp_right fun late => List.mem_cons_of_mem _ ?_)
    rcases poisonLater_cases poisoned with ⟨rfl, -⟩ | ⟨between, g, rest, rfl, -, rfl⟩
    · exact late
    · simpa using late

theorem pending_addField (other : f.id ≠ p.id)
    (member : .pending p ∈ (needs f.id).foldl insertNeed bs)
    (added : addField bs f = some bs') : .pending p ∈ bs' := by
  obtain ⟨r, found, rfl⟩ := Option.map_eq_some_iff.mp added
  cases r with
  | none => exact List.mem_append_left _ member
  | some bs' => exact pending_placed (place_cases found) other member

theorem pending_addFields (other : ∀ f ∈ rest, f.id ≠ p.id)
    (member : .pending p ∈ bs) (added : addFields bs rest = some bs') : .pending p ∈ bs' := by
  induction rest generalizing bs with
  | nil =>
    cases added
    exact member
  | cons f rest ih =>
    rw [List.forall_mem_cons] at other
    rw [addFields_cons, Option.bind_eq_some_iff] at added
    obtain ⟨bs₁, first, later⟩ := added
    exact ih other.2 (pending_addField other.1 (pending_insertAll member _) first) later

theorem pending_of_fresh {ns : List Need} {c : Choice} (distinct : (ns.map Need.id).Nodup)
    (listed : .oneOf c ∈ ns) (many : c.others ≠ []) (fresh : c.id ∉ fields bs) :
    .pending (.oneOf c) ∈ ns.foldl insertNeed bs := by
  induction ns generalizing bs with
  | nil => cases listed
  | cons n ns ih =>
    rw [List.map_cons, List.nodup_cons] at distinct
    have step := insertNeed_cases n bs
    rw [List.foldl_cons]
    rcases List.mem_cons.mp listed with rfl | later
    · apply pending_insertAll
      generalize insertNeed bs (.oneOf c) = bs₁ at step
      cases step with
      | met meets => exact absurd (mem_fields_of_meets meets) fresh
      | pending => simp
      | conflict unmet taken => exact absurd taken fresh
      | single c' same one =>
        cases same
        exact absurd one many
    · apply ih distinct.2 later
      have other : c.id ≠ n.id := fun same =>
        distinct.1 (List.mem_map.mpr ⟨_, later, same⟩)
      generalize insertNeed bs n = bs₁ at step
      cases step with
      | met => exact fresh
      | pending => simpa using ⟨fresh, other⟩
      | conflict => simpa using fresh
      | single c' same =>
        subst same
        simpa using ⟨fresh, other⟩

theorem not_validate_of_pending (member : .pending p ∈ bs) :
    validate (flatten bs) = false := by
  rw [Bool.eq_false_iff]
  intro valid
  obtain ⟨gs, rfl, -⟩ := validate_flatten_iff.mp valid
  simp at member

end

end Libofp.Match.OrderRuns
