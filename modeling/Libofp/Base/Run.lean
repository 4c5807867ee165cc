/- GID: Libofp/Base/Run
   generality: G
   digest: Runs of a step function all of whose steps meet a condition, and positions that
     move forward to an end. -/

import Mathlib.Data.List.Basic
import Mathlib.Logic.Function.Iterate
import Mathlib.Tactic.Common

set_option autoImplicit false

namespace Libofp.Base.Run

variable {σ ι : Type}

/-- Every step of the run over the inputs starts in a state that meets the condition
for the input it takes. -/
def Along (step : σ → ι → σ) (ok : σ → ι → Prop) : σ → List ι → Prop
  | _, [] => True
  | s, x :: xs => ok s x ∧ Along step ok (step s x) xs

instance (step : σ → ι → σ) (ok : σ → ι → Prop) [∀ s x, Decidable (ok s x)] :
    ∀ (s : σ) (xs : List ι), Decidable (Along step ok s xs)
  | _, [] => inferInstanceAs (Decidable True)
  | s, x :: xs =>
      have := instDecidableAlong step ok (step s x) xs
      inferInstanceAs (Decidable (ok s x ∧ Along step ok (step s x) xs))

variable {step : σ → ι → σ} {ok : σ → ι → Prop}

/-- Invariant rule: what every step that meets the condition preserves holds at the
end of the run. The invariant may mention the inputs read so far. -/
theorem foldl_of_along (inv : List ι → σ → Prop) {s : σ} {seen xs : List ι}
    (along : Along step ok s xs) (start : inv seen s)
    (preserved : ∀ seen s x, x ∈ xs → inv seen s → ok s x → inv (seen ++ [x]) (step s x)) :
    inv (seen ++ xs) (xs.foldl step s) := by
  induction xs generalizing s seen with
  | nil => simpa using start
  | cons x rest ih =>
    have next := preserved seen s x List.mem_cons_self start along.1
    have final := ih along.2 next
      (fun seen s y member => preserved seen s y (List.mem_cons_of_mem _ member))
    rwa [List.append_assoc, List.singleton_append] at final

/-- Fuel rule: a loop over a list, each of whose turns goes on with a shorter list, does not
depend on the number of turns once it is at least the length. -/
theorem loop_eq_of_length_le {α β : Type} {loop : Nat → List α → β}
    (nil : ∀ n m, loop n [] = loop m [])
    (turn : ∀ n m x, x ≠ [] → (∀ y, y.length < x.length → loop n y = loop m y) →
      loop (n + 1) x = loop (m + 1) x)
    {n m : Nat} {x : List α} (hn : x.length ≤ n) (hm : x.length ≤ m) : loop n x = loop m x := by
  induction n generalizing m x with
  | zero =>
    obtain rfl := List.eq_nil_of_length_eq_zero (Nat.le_zero.mp hn)
    exact nil 0 m
  | succ n ih =>
    rcases eq_or_ne x [] with rfl | nonempty
    · exact nil (n + 1) m
    · have positive := List.length_pos_of_ne_nil nonempty
      obtain ⟨m, rfl⟩ := Nat.exists_eq_succ_of_ne_zero (show m ≠ 0 by omega)
      exact turn n m x nonempty fun y shorter => ih (by omega) (by omega)

section

variable {next count : Nat → Nat} {total : Nat} {inv : Nat → Prop}

/-- A position that moves forward without passing the end reaches the end, after as many
steps as a counter says that goes down by one with each. -/
theorem iterate_reaches (step : ∀ p, inv p → p < total →
      p < next p ∧ next p ≤ total ∧ inv (next p) ∧ count p = count (next p) + 1)
    (last : count total = 0) {p : Nat} (within : p ≤ total) (start : inv p) :
    next^[count p] p = total ∧ ∀ k < count p, next^[k] p < total ∧ inv (next^[k] p) := by
  induction left : total - p using Nat.strongRecOn generalizing p with
  | ind n ih =>
    rcases Nat.eq_or_lt_of_le within with atEnd | ahead
    · subst atEnd
      rw [last]
      exact ⟨rfl, fun k impossible => absurd impossible (Nat.not_lt_zero k)⟩
    · obtain ⟨forward, inside, kept, one⟩ := step p start ahead
      obtain ⟨reached, before⟩ := ih (total - next p) (by omega) inside kept rfl
      rw [one]
      refine ⟨reached, fun k early => ?_⟩
      cases k with
      | zero => exact ⟨ahead, start⟩
      | succ k => exact before k (by omega)

end

end Libofp.Base.Run
