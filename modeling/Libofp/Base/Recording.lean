/- GID: Libofp/Base/Recording
   generality: G
   digest: A state seen as a partial map, built by a fold whose steps each record one key. -/

import Mathlib.Data.List.Sigma
import Mathlib.Tactic.Common

set_option autoImplicit false

namespace Libofp.Base.Recording

open List

variable {S E K : Type} [DecidableEq K] {β : K → Type}

def record (c : ∀ k, Option (β k)) : Option (Sigma β) → ∀ k, Option (β k)
  | none => c
  | some x => Function.update c x.1 (some x.2)

variable {view : S → ∀ k, Option (β k)} {add : S → E → S} {note : E → Option (Sigma β)}

/-- A fold over distinct keys leaves what was noted, and the old values elsewhere. -/
theorem view_foldl {l : List E} (law : ∀ s, ∀ e ∈ l, view (add s e) = record (view s) (note e))
    (distinct : (l.filterMap note).NodupKeys) (s : S) (k : K) :
    view (l.foldl add s) k = (dlookup k (l.filterMap note)).or (view s k) := by
  induction l generalizing s with
  | nil => rfl
  | cons e l ih =>
    have step := law s e mem_cons_self
    have later : ∀ s, ∀ e ∈ l, view (add s e) = record (view s) (note e) :=
      fun s e member => law s e (mem_cons_of_mem _ member)
    cases noted : note e with
    | none =>
      rw [filterMap_cons_none noted] at distinct ⊢
      rw [foldl_cons, ih later distinct, step, noted, record]
    | some x =>
      obtain ⟨k', v⟩ := x
      rw [filterMap_cons_some noted] at distinct ⊢
      obtain ⟨fresh, distinct⟩ := nodupKeys_cons.mp distinct
      rw [foldl_cons, ih later distinct, step, noted, record]
      by_cases same : k = k'
      · subst same
        rw [dlookup_cons_eq, dlookup_eq_none.mpr fresh, Function.update_self]
        rfl
      · rw [dlookup_cons_ne _ ⟨k', v⟩ same, Function.update_of_ne same]

/-- From a state that says nothing, a fold leaves exactly what was noted. -/
theorem view_foldl_eq_some_iff {l : List E}
    (law : ∀ s, ∀ e ∈ l, view (add s e) = record (view s) (note e))
    (distinct : (l.filterMap note).NodupKeys) {s : S} (blank : ∀ k, view s k = none) {k : K}
    {v : β k} : view (l.foldl add s) k = some v ↔ ∃ e ∈ l, note e = some ⟨k, v⟩ := by
  rw [view_foldl law distinct, blank, Option.or_none, ← Option.mem_def,
    mem_dlookup_iff distinct, mem_filterMap]

omit [DecidableEq K] in
/-- Keys that are noted in the order of a list without repetitions are distinct. -/
theorem nodupKeys_filterMap {l : List K} (distinct : l.Nodup) {g : K → Option (Sigma β)}
    (own : ∀ k x, g k = some x → x.1 = k) : (l.filterMap g).NodupKeys := by
  have keys : (l.filterMap g).keys = l.filter fun k => (g k).isSome := by
    induction l with
    | nil => rfl
    | cons k l ih =>
      have ih := ih (nodup_cons.mp distinct).2
      cases noted : g k with
      | none => rw [filterMap_cons_none noted, ih, filter_cons_of_neg (by simp [noted])]
      | some x =>
        rw [filterMap_cons_some noted, keys_cons, ih, own k x noted,
          filter_cons_of_pos (by simp [noted])]
  rw [NodupKeys, keys]
  exact distinct.filter _

end Libofp.Base.Recording
