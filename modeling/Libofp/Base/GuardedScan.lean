/- GID: Libofp/Base/GuardedScan
   generality: G
   digest: Scanning a list for a second element of a kind that no mark stands before. -/

import Mathlib.Data.List.Basic
import Mathlib.Tactic.Common

/-!
Some elements of a list are marks. A closing mark covers all that follow it. An opening mark
covers what follows when the element directly behind it is of the kind in question. A list is
safe for a kind when at most one element of the kind comes before it is covered.
-/

set_option autoImplicit false

namespace Libofp.Base.GuardedScan

/-- What the scan knows: whether it has found an element of the kind and whether the last
element was an opening mark; that the rest is covered; or that an element is repeated. -/
inductive Tally where
  | scanning (found led : Bool)
  | covered
  | repeated
  deriving DecidableEq, Repr

structure Marks (α : Type) where
  opens : α → Bool
  closes : α → Bool

variable {α : Type}

namespace Marks

variable (m : Marks α) (own : α → Bool)

def isMark (x : α) : Bool := m.opens x || m.closes x

def step : Tally → α → Tally
  | .covered, _ => .covered
  | .repeated, _ => .repeated
  | .scanning found led, x =>
    if m.closes x then .covered
    else if m.opens x then .scanning found true
    else if own x then
      if led then .covered else if found then .repeated else .scanning true false
    else .scanning found false

def scan (s : Tally) (xs : List α) : Tally := xs.foldl (m.step own) s

def Safe (s : Tally) (xs : List α) : Prop := m.scan own s xs ≠ .repeated

end Marks

/-- The scan in the first state has more reason to go on than the one in the second. -/
inductive Tally.Le : Tally → Tally → Prop
  | covered (t : Tally) : Le .covered t
  | repeated (s : Tally) : Le s .repeated
  | scanning {found found' led led' : Bool} (less : found = true → found' = true)
      (more : led' = true → led = true) : Le (.scanning found led) (.scanning found' led')

variable {m : Marks α} {own : α → Bool} {s t : Tally} {xs ys : List α} {x : α}

@[simp] theorem scan_nil : m.scan own s [] = s := rfl

@[simp] theorem scan_cons : m.scan own s (x :: xs) = m.scan own (m.step own s x) xs := rfl

theorem scan_append : m.scan own s (xs ++ ys) = m.scan own (m.scan own s xs) ys :=
  List.foldl_append

@[simp] theorem step_covered : m.step own .covered x = .covered := rfl

@[simp] theorem scan_covered : m.scan own .covered xs = .covered := by
  induction xs with
  | nil => rfl
  | cons x xs ih => exact ih

@[simp] theorem scan_repeated : m.scan own .repeated xs = .repeated := by
  induction xs with
  | nil => rfl
  | cons x xs ih => exact ih

theorem safe_append : m.Safe own s (xs ++ ys) ↔ m.Safe own (m.scan own s xs) ys := by
  rw [Marks.Safe, Marks.Safe, scan_append]

theorem Safe.left (safe : m.Safe own s (xs ++ ys)) : m.Safe own s xs := by
  rw [safe_append] at safe
  intro broken
  rw [broken] at safe
  exact safe scan_repeated

theorem step_mono (le : s.Le t) (x : α) : (m.step own s x).Le (m.step own t x) := by
  cases le with
  | covered t => exact .covered _
  | repeated s => exact .repeated _
  | @scanning found found' led led' less more =>
    simp only [Marks.step]
    by_cases closes : m.closes x = true
    · simp only [closes, if_true]
      exact .covered _
    · by_cases opens : m.opens x = true
      · simp only [closes, opens, if_true]
        exact .scanning less id
      · by_cases kind : own x = true
        · simp only [closes, opens, kind, if_true]
          cases led with
          | true => exact .covered _
          | false =>
            have unled : led' = false := by simpa using more
            cases found with
            | true =>
              rw [less rfl, unled]
              exact .repeated _
            | false =>
              rw [unled]
              cases found' with
              | true => exact .repeated _
              | false => exact .scanning id id
        · simp only [closes, opens, kind]
          exact .scanning less id

theorem scan_mono (le : s.Le t) (xs : List α) : (m.scan own s xs).Le (m.scan own t xs) := by
  induction xs generalizing s t with
  | nil => exact le
  | cons x xs ih => exact ih (step_mono le x)

theorem Safe.mono (le : s.Le t) (safe : m.Safe own t xs) : m.Safe own s xs := by
  intro broken
  have later : (m.scan own s xs).Le (m.scan own t xs) := scan_mono le xs
  rw [broken] at later
  rw [Marks.Safe] at safe
  generalize m.scan own t xs = state at later safe
  cases later with
  | repeated _ => exact safe rfl

theorem safe_close {mark : α} (closes : m.closes mark = true) (safe : m.Safe own s xs)
    (ys : List α) : m.Safe own s (xs ++ mark :: ys) := by
  rw [safe_append]
  cases state : m.scan own s xs with
  | scanning found led => simp [Marks.Safe, Marks.step, closes]
  | covered => simp [Marks.Safe]
  | repeated => exact absurd state safe

/-- Elements of other kinds, marks among them, do not change what is found. -/
theorem scan_foreign (foreign : ∀ x ∈ xs, own x = false) {found led : Bool} :
    m.scan own (.scanning found led) xs = .covered ∨
      ∃ led', m.scan own (.scanning found led) xs = .scanning found led' := by
  induction xs generalizing led with
  | nil => exact .inr ⟨led, rfl⟩
  | cons x xs ih =>
    rw [List.forall_mem_cons] at foreign
    rw [scan_cons, Marks.step]
    by_cases closes : m.closes x = true
    · simp [closes]
    · by_cases opens : m.opens x = true
      · simp only [closes, opens, if_true]
        exact ih foreign.2
      · simp only [closes, opens, foreign.1]
        exact ih foreign.2

theorem safe_foreign (foreign : ∀ x ∈ xs, own x = false) {found led : Bool} :
    m.Safe own (.scanning found led) xs := by
  rw [Marks.Safe]
  rcases scan_foreign foreign (m := m) with covered | ⟨led', scanning⟩
  · rw [covered]
    simp
  · rw [scanning]
    simp

theorem scan_unmarked (unmarked : ∀ x ∈ xs, m.isMark x = false) {found : Bool} :
    (Tally.scanning found false).Le (m.scan own (.scanning found false) xs) := by
  induction xs generalizing found with
  | nil => exact .scanning id id
  | cons x xs ih =>
    rw [List.forall_mem_cons, Marks.isMark, Bool.or_eq_false_iff] at unmarked
    simp only [scan_cons, Marks.step, unmarked.1, Bool.false_eq_true, if_false]
    by_cases kind : own x = true
    · simp only [kind, if_true]
      cases found with
      | true =>
        rw [if_pos rfl, scan_repeated]
        exact .repeated _
      | false =>
        have later : (Tally.scanning true false).Le (m.scan own (.scanning true false) xs) :=
          ih unmarked.2
        rw [if_neg Bool.false_ne_true]
        generalize m.scan own (.scanning true false) xs = state at later
        cases later with
        | repeated _ => exact .repeated _
        | scanning less more => exact .scanning nofun more
    · simp only [kind]
      exact ih unmarked.2

theorem safe_replace {mark p q : α} {more : List α} (opens : m.opens mark = true)
    (closes : m.closes mark = false) (unmarked : ∀ x ∈ p :: more, m.isMark x = false)
    (single : m.isMark q = false) (otherP : own p = false) (otherQ : own q = false)
    (safe : m.Safe own s (xs ++ mark :: (p :: more ++ ys))) : m.Safe own s (xs ++ q :: ys) := by
  rw [List.forall_mem_cons, Marks.isMark, Bool.or_eq_false_iff] at unmarked
  rw [Marks.isMark, Bool.or_eq_false_iff] at single
  rw [safe_append] at safe ⊢
  cases state : m.scan own s xs with
  | covered => simp [Marks.Safe]
  | repeated => simp [state, Marks.Safe, Marks.step] at safe
  | scanning found led =>
    rw [state] at safe
    have opened : m.step own (m.step own (.scanning found led) mark) p = .scanning found false := by
      simp [Marks.step, opens, closes, unmarked.1, otherP]
    have placed : m.step own (.scanning found led) q = .scanning found false := by
      simp [Marks.step, single, otherQ]
    have rest : m.Safe own (m.scan own (.scanning found false) more) ys := by
      rw [← safe_append]
      rwa [Marks.Safe, List.cons_append, scan_cons, scan_cons, opened] at safe
    rw [Marks.Safe, scan_cons, placed]
    exact Safe.mono (scan_unmarked unmarked.2) rest

theorem pairwise_of_safe (unmarked : ∀ x ∈ xs, m.isMark x = false)
    (safe : m.Safe own (.scanning false false) xs) :
    xs.Pairwise fun a b => ¬ (own a = true ∧ own b = true) := by
  have single (zs : List α) (unmarked : ∀ x ∈ zs, m.isMark x = false)
      (safe : m.Safe own (.scanning true false) zs) : ∀ z ∈ zs, own z = false := by
    induction zs with
    | nil => simp
    | cons z zs ih =>
      rw [List.forall_mem_cons, Marks.isMark, Bool.or_eq_false_iff] at unmarked
      simp only [Marks.Safe, scan_cons, Marks.step, unmarked.1, Bool.false_eq_true,
        if_false] at safe
      rw [List.forall_mem_cons]
      cases kind : own z with
      | true => simp [kind] at safe
      | false =>
        simp only [kind, Bool.false_eq_true, if_false] at safe
        exact ⟨rfl, ih unmarked.2 safe⟩
  induction xs with
  | nil => exact .nil
  | cons x xs ih =>
    rw [List.forall_mem_cons, Marks.isMark, Bool.or_eq_false_iff] at unmarked
    simp only [Marks.Safe, scan_cons, Marks.step, unmarked.1, Bool.false_eq_true, if_false] at safe
    rw [List.pairwise_cons]
    cases kind : own x with
    | true =>
      simp only [kind, if_true] at safe
      have others := single xs unmarked.2 safe
      refine ⟨fun b member both => ?_, ?_⟩
      · rw [others b member] at both
        exact absurd both.2 Bool.false_ne_true
      · refine List.pairwise_of_forall_mem_list fun a member b _ both => ?_
        rw [others a member] at both
        exact absurd both.1 Bool.false_ne_true
    | false =>
      simp only [kind, Bool.false_eq_true, if_false] at safe
      exact ⟨fun b _ both => absurd both.1 Bool.false_ne_true, ih unmarked.2 safe⟩

end Libofp.Base.GuardedScan
