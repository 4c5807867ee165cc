/- GID: Libofp/Base/Iteration
   generality: G
   digest: While loops run on fuel, with rules for halting and for running forever. -/

import Mathlib.Logic.Relation
import Mathlib.Tactic.Common

set_option autoImplicit false

namespace Libofp.Base.Iteration

variable {α β σ : Type}

/-- How a computation on fuel stands: it has a result, it went wrong, or the fuel ran
out while it was still running. -/
inductive Outcome (α : Type) where
  | done (value : α)
  | fault
  | running
  deriving DecidableEq, Repr

namespace Outcome

def bind : Outcome α → (α → Outcome β) → Outcome β
  | done a, f => f a
  | fault, _ => fault
  | running, _ => running

def map (f : α → β) (x : Outcome α) : Outcome β := x.bind fun a => done (f a)

@[simp] theorem bind_done (a : α) (f : α → Outcome β) : (done a).bind f = f a := rfl

@[simp] theorem bind_fault (f : α → Outcome β) : (fault : Outcome α).bind f = fault := rfl

@[simp] theorem bind_running (f : α → Outcome β) : (running : Outcome α).bind f = running := rfl

@[simp] theorem map_done (a : α) (f : α → β) : (done a).map f = done (f a) := rfl

@[simp] theorem map_fault (f : α → β) : (fault : Outcome α).map f = fault := rfl

@[simp] theorem map_running (f : α → β) : (running : Outcome α).map f = running := rfl

theorem map_map {γ : Type} (x : Outcome α) (f : α → β) (g : β → γ) :
    (x.map f).map g = x.map fun a => g (f a) := by
  cases x <;> rfl

theorem bind_eq_done {x : Outcome α} {f : α → Outcome β} {b : β} (h : x.bind f = done b) :
    ∃ a, x = done a ∧ f a = done b := by
  cases x with
  | done a => exact ⟨a, rfl, h⟩
  | fault => exact absurd h (by simp)
  | running => exact absurd h (by simp)

end Outcome

/-- `while (guard) body`, at most `fuel` turns of it. -/
def whileLoop (guard : σ → Bool) (body : σ → Outcome σ) : Nat → σ → Outcome σ
  | 0, s => if guard s then .running else .done s
  | fuel + 1, s => if guard s then (body s).bind (whileLoop guard body fuel) else .done s

/-- From some fuel on the computation stands at `r`, and it is not running. -/
def Settles (run : Nat → Outcome α) (r : Outcome α) : Prop :=
  r ≠ .running ∧ ∃ n, ∀ m, n ≤ m → run m = r

def Halts (run : Nat → Outcome α) : Prop := ∃ r, Settles run r

variable {r : Outcome α} {run : Nat → Outcome α} {f : Nat → α → Outcome β}

theorem Settles.unique {r' : Outcome α} (h : Settles run r) (h' : Settles run r') : r = r' := by
  obtain ⟨_, n, hn⟩ := h
  obtain ⟨_, n', hn'⟩ := h'
  rw [← hn (max n n') (Nat.le_max_left n n'), hn' (max n n') (Nat.le_max_right n n')]

theorem settles_const (h : r ≠ .running) : Settles (fun _ => r) r :=
  ⟨h, 0, fun _ _ => rfl⟩

theorem eq_of_settles_const {r' : Outcome α} (h : Settles (fun _ => r) r') : r = r' := by
  obtain ⟨_, n, settled⟩ := h
  exact settled n (Nat.le_refl n)

theorem halts_const (h : r ≠ .running) : Halts fun _ => r :=
  ⟨r, settles_const h⟩

theorem not_halts_of_running (h : ∀ m, run m = .running) :
    ¬ Halts run := by
  rintro ⟨r, notRunning, n, settled⟩
  exact notRunning ((settled n (Nat.le_refl n)).symm.trans (h n))

theorem settles_bind {a : α} {r : Outcome β}
    (h : Settles run (.done a)) (rest : Settles (fun m => f m a) r) :
    Settles (fun m => (run m).bind (f m)) r := by
  obtain ⟨_, n, hn⟩ := h
  obtain ⟨notRunning, n', hn'⟩ := rest
  refine ⟨notRunning, max n n', fun m more => ?_⟩
  show (run m).bind (f m) = r
  rw [hn m (by omega), Outcome.bind_done]
  exact hn' m (by omega)

theorem Settles.map {a : α} (h : Settles run (.done a)) (f : α → β) :
    Settles (fun m => (run m).map f) (.done (f a)) :=
  settles_bind h (settles_const (by simp))

theorem settles_bind_fault
    (h : Settles run .fault) : Settles (fun m => (run m).bind (f m)) .fault := by
  obtain ⟨_, n, hn⟩ := h
  refine ⟨by simp, n, fun m more => ?_⟩
  show (run m).bind (f m) = .fault
  rw [hn m more, Outcome.bind_fault]

theorem halts_bind (h : Halts run) (rest : ∀ a, Settles run (.done a) → Halts fun m => f m a) :
    Halts fun m => (run m).bind (f m) := by
  obtain ⟨r, settled⟩ := h
  cases r with
  | done a =>
    obtain ⟨r', settled'⟩ := rest a settled
    exact ⟨r', settles_bind settled settled'⟩
  | fault => exact ⟨.fault, settles_bind_fault settled⟩
  | running => exact absurd rfl settled.1

theorem halts_map (h : Halts run) (f : α → β) :
    Halts fun m => (run m).map f :=
  halts_bind h fun _ _ => halts_const (by simp)

theorem halts_ite {p : Prop} [Decidable p] {run' : Nat → Outcome α} (h : p → Halts run)
    (h' : ¬ p → Halts run') : Halts fun m => if p then run m else run' m := by
  by_cases holds : p
  · simpa [holds] using h holds
  · simpa [holds] using h' holds

theorem halts_done (a : α) : Halts fun _ => Outcome.done a :=
  halts_const (by simp)

/-- A computation behind an early return halts when it does so past the return. -/
theorem halts_past {p : Prop} [Decidable p] {a : α} (h : ¬ p → Halts run) :
    Halts fun m => if p then .done a else run m :=
  halts_ite (fun _ => halts_done a) h

def Steady (run : Nat → Outcome α) : Prop :=
  ∀ m more, m ≤ more → run m ≠ .running → run more = run m

theorem steady_const (r : Outcome α) : Steady fun _ => r := fun _ _ _ _ => rfl

theorem Steady.halts (h : Steady run) {m : Nat} (ended : run m ≠ .running) : Halts run :=
  ⟨run m, ended, m, fun more enough => h m more enough ended⟩

/-- Any fuel that is enough shows the result. -/
theorem Steady.apply_eq (h : Steady run) {a : α} (settled : Settles run (.done a)) {f : α → β}
    {b : β} {m : Nat} (value : (run m).map f = .done b) : f a = b := by
  obtain ⟨a', ended, result⟩ := Outcome.bind_eq_done value
  have settled' : Settles run (.done a') := by
    refine ⟨by simp, m, fun more enough => ?_⟩
    rw [h m more enough (by simp [ended]), ended]
  obtain rfl := Outcome.done.inj (settled.unique settled')
  exact Outcome.done.inj result

theorem Steady.map (h : Steady run) (f : α → β) :
    Steady fun m => (run m).map f := by
  intro m more enough ended
  show (run more).map f = (run m).map f
  rw [h m more enough]
  intro running
  exact ended (by simp [running])

/-- What is done with the result takes no fuel, so the computation itself halts. -/
theorem Steady.halts_of_map (h : Steady run) {f : α → β}
    (halts : Halts fun m => (run m).map f) : Halts run := by
  obtain ⟨r, notRunning, n, settled⟩ := halts
  have last : (run n).map f = r := settled n (Nat.le_refl n)
  refine h.halts (m := n) ?_
  intro running
  rw [running, Outcome.map_running] at last
  exact notRunning last.symm

section

variable {guard : σ → Bool} {body : Nat → σ → Outcome σ}

/-- One turn of the loop leads from `s` to `s'`. -/
def Turn (guard : σ → Bool) (body : Nat → σ → Outcome σ) (s s' : σ) : Prop :=
  guard s = true ∧ Settles (fun m => body m s) (.done s')

/-- Turns of the loop lead from `s` to `s'`. -/
def Visits (guard : σ → Bool) (body : Nat → σ → Outcome σ) : σ → σ → Prop :=
  Relation.ReflTransGen (Turn guard body)

variable {s s' : σ} {b : σ → Outcome σ}

theorem whileLoop_of_guard_false (b : σ → Outcome σ) (fuel : Nat) (h : guard s = false) :
    whileLoop guard b fuel s = .done s := by
  cases fuel <;> simp [whileLoop, h]

theorem whileLoop_succ (b : σ → Outcome σ) (fuel : Nat) (h : guard s = true) :
    whileLoop guard b (fuel + 1) s = (b s).bind (whileLoop guard b fuel) := by
  simp [whileLoop, h]

/-- Variant rule: a loop halts when the turns from every state that keeps the invariant
end, keep the invariant and make the measure smaller. -/
theorem halts_whileLoop (inv : σ → Prop) (size : σ → Nat)
    (ends : ∀ s, inv s → guard s = true → Halts fun m => body m s)
    (keeps : ∀ s s', inv s → Turn guard body s s' → inv s' ∧ size s' < size s) (start : inv s) :
    Halts fun m => whileLoop guard (body m) m s := by
  -- Fuel of the loop and fuel of its body are told apart for the induction.
  have general : ∀ s, inv s → ∃ r, r ≠ .running ∧
      ∃ n, ∀ m fuel, n ≤ m → n ≤ fuel → whileLoop guard (body m) fuel s = r := by
    intro s
    induction hsize : size s using Nat.strongRecOn generalizing s with
    | ind k ih =>
      intro hs
      cases hguard : guard s with
      | false => exact ⟨.done s, by simp, 0, fun m fuel _ _ => whileLoop_of_guard_false _ _ hguard⟩
      | true =>
        obtain ⟨r, settled⟩ := ends s hs hguard
        obtain ⟨notRunning, n, hn⟩ := settled
        have ended : ∀ m, n ≤ m → body m s = r := hn
        cases r with
        | running => exact absurd rfl notRunning
        | fault =>
          refine ⟨.fault, by simp, n + 1, fun m fuel hm hfuel => ?_⟩
          obtain ⟨fuel, rfl⟩ := Nat.exists_eq_add_of_le' (Nat.le_of_add_left_le hfuel)
          rw [whileLoop_succ _ _ hguard, ended m (by omega), Outcome.bind_fault]
        | done s' =>
          obtain ⟨inv', smaller⟩ := keeps s s' hs ⟨hguard, notRunning, n, hn⟩
          obtain ⟨r', notRunning', n', hn'⟩ := ih (size s') (hsize ▸ smaller) s' rfl inv'
          refine ⟨r', notRunning', max n n' + 1, fun m fuel hm hfuel => ?_⟩
          obtain ⟨fuel, rfl⟩ := Nat.exists_eq_add_of_le' (Nat.le_of_add_left_le hfuel)
          rw [whileLoop_succ _ _ hguard, ended m (by omega), Outcome.bind_done]
          exact hn' m fuel (by omega) (by omega)
  obtain ⟨r, notRunning, n, hn⟩ := general s start
  exact ⟨r, notRunning, n, fun m hm => hn m m hm hm⟩

/-- The variant rule over the states that the loop visits. -/
theorem halts_whileLoop_of_visits (size : σ → Nat) {start : σ}
    (ends : ∀ s, Visits guard body start s → guard s = true → Halts fun m => body m s)
    (smaller : ∀ s s', Visits guard body start s → Turn guard body s s' → size s' < size s) :
    Halts fun m => whileLoop guard (body m) m start :=
  halts_whileLoop (Visits guard body start) size ends
    (fun s s' visited turn => ⟨visited.tail turn, smaller s s' visited turn⟩) .refl

/-- A loop that keeps an invariant which implies its guard runs forever. -/
theorem whileLoop_running (inv : σ → Prop)
    (keeps : ∀ s, inv s → guard s = true ∧ ∃ s', b s = .done s' ∧ inv s') (start : inv s)
    (fuel : Nat) : whileLoop guard b fuel s = .running := by
  induction fuel generalizing s with
  | zero => simp [whileLoop, (keeps s start).1]
  | succ fuel ih =>
    obtain ⟨hguard, s', turn, inv'⟩ := keeps s start
    rw [whileLoop_succ _ _ hguard, turn, Outcome.bind_done]
    exact ih inv'

theorem whileLoop_running_of_body (hguard : guard s = true)
    (stuck : b s = .running) (fuel : Nat) : whileLoop guard b fuel s = .running := by
  cases fuel with
  | zero => simp [whileLoop, hguard]
  | succ fuel => rw [whileLoop_succ _ _ hguard, stuck, Outcome.bind_running]

/-- Partial correctness: what every turn keeps holds where the loop ends. -/
theorem inv_of_whileLoop_done (inv : σ → Prop)
    (keeps : ∀ s s', inv s → guard s = true → b s = .done s' → inv s') (start : inv s) {fuel : Nat}
    (h : whileLoop guard b fuel s = .done s') :
    inv s' ∧ guard s' = false := by
  induction fuel generalizing s with
  | zero =>
    cases hguard : guard s with
    | true => simp [whileLoop, hguard] at h
    | false =>
      obtain rfl : s = s' := by simpa [whileLoop, hguard] using h
      exact ⟨start, hguard⟩
  | succ fuel ih =>
    cases hguard : guard s with
    | true =>
      rw [whileLoop_succ _ _ hguard] at h
      obtain ⟨next, turn, rest⟩ := Outcome.bind_eq_done h
      exact ih (keeps s next start hguard turn) rest
    | false =>
      obtain rfl : s = s' := by simpa [whileLoop, hguard] using h
      exact ⟨start, hguard⟩

/-- A loop whose turns cannot go wrong keeps what they keep, for as long as it runs. -/
theorem whileLoop_keeps (inv : σ → Prop)
    (keeps : ∀ s, inv s → guard s = true → ∃ s', b s = .done s' ∧ inv s') (start : inv s)
    (fuel : Nat) :
    whileLoop guard b fuel s = .running ∨ ∃ s', whileLoop guard b fuel s = .done s' ∧ inv s' := by
  induction fuel generalizing s with
  | zero =>
    cases hguard : guard s with
    | true => exact Or.inl (by simp [whileLoop, hguard])
    | false => exact Or.inr ⟨s, by simp [whileLoop, hguard], start⟩
  | succ fuel ih =>
    cases hguard : guard s with
    | true =>
      obtain ⟨next, turn, inv'⟩ := keeps s start hguard
      rw [whileLoop_succ _ _ hguard, turn, Outcome.bind_done]
      exact ih inv'
    | false => exact Or.inr ⟨s, whileLoop_of_guard_false _ _ hguard, start⟩

theorem visits_of_whileLoop_done {fuel : Nat}
    (h : whileLoop guard b fuel s = .done s') : Visits guard (fun _ => b) s s' := by
  refine (inv_of_whileLoop_done (Visits guard (fun _ => b) s) ?_ .refl h).1
  intro t t' visited hguard turn
  exact visited.tail ⟨hguard, turn ▸ settles_const (by simp [turn])⟩

theorem settles_whileLoop_step {r : Outcome σ} (hguard : guard s = true) (turn : b s = .done s')
    (rest : Settles (fun m => whileLoop guard b m s') r) :
    Settles (fun m => whileLoop guard b m s) r := by
  obtain ⟨notRunning, n, settled⟩ := rest
  refine ⟨notRunning, n + 1, fun m enough => ?_⟩
  obtain ⟨m, rfl⟩ := Nat.exists_eq_add_of_le' (Nat.le_of_add_left_le enough)
  show whileLoop guard b (m + 1) s = r
  rw [whileLoop_succ _ _ hguard, turn, Outcome.bind_done]
  exact settled m (by omega)

theorem settles_whileLoop_of_visits (visited : Visits guard body s s')
    (stop : guard s' = false) : Settles (fun m => whileLoop guard (body m) m s) (.done s') := by
  -- Fuel of the loop and fuel of its body are told apart for the induction.
  have general : ∃ n, ∀ m fuel, n ≤ m → n ≤ fuel →
      whileLoop guard (body m) fuel s = .done s' := by
    induction visited using Relation.ReflTransGen.head_induction_on with
    | refl => exact ⟨0, fun m fuel _ _ => whileLoop_of_guard_false _ _ stop⟩
    | @head s next turn _ ih =>
      obtain ⟨hguard, _, n, ended⟩ := turn
      obtain ⟨n', settled⟩ := ih
      refine ⟨max n n' + 1, fun m fuel hm hfuel => ?_⟩
      obtain ⟨fuel, rfl⟩ := Nat.exists_eq_add_of_le' (Nat.le_of_add_left_le hfuel)
      have first : body m s = .done next := ended m (by omega)
      rw [whileLoop_succ _ _ hguard, first, Outcome.bind_done]
      exact settled m fuel (by omega) (by omega)
  obtain ⟨n, settled⟩ := general
  exact ⟨by simp, n, fun m enough => settled m m enough enough⟩

section

variable (steady : ∀ s, Steady fun m => body m s)

include steady

/-- More turns, and more fuel for each of them, do not change where a loop ends. -/
theorem whileLoop_mono {m m' fuel fuel' : Nat} (enough : m ≤ m') (turns : fuel ≤ fuel')
    (h : whileLoop guard (body m) fuel s ≠ .running) :
    whileLoop guard (body m') fuel' s = whileLoop guard (body m) fuel s := by
  induction fuel generalizing s fuel' with
  | zero =>
    cases hguard : guard s with
    | true => simp [whileLoop, hguard] at h
    | false => rw [whileLoop_of_guard_false _ _ hguard, whileLoop_of_guard_false _ _ hguard]
  | succ fuel ih =>
    obtain ⟨fuel', rfl⟩ := Nat.exists_eq_add_of_le' (Nat.le_of_add_left_le turns)
    cases hguard : guard s with
    | true =>
      rw [whileLoop_succ _ _ hguard] at h ⊢
      have same : body m' s = body m s := by
        apply steady s m m' enough
        intro (running : body m s = .running)
        rw [running, Outcome.bind_running] at h
        exact h rfl
      rw [whileLoop_succ _ _ hguard, same]
      cases turn : body m s with
      | done s' =>
        rw [turn, Outcome.bind_done] at h
        exact ih (by omega) h
      | fault => rfl
      | running => rfl
    | false => rw [whileLoop_of_guard_false _ _ hguard, whileLoop_of_guard_false _ _ hguard]

theorem steady_whileLoop (s : σ) : Steady fun m => whileLoop guard (body m) m s :=
  fun _ _ enough ended => whileLoop_mono steady enough enough ended

theorem halts_body_of_halts
    (hguard : guard s = true) (h : Halts fun m => whileLoop guard (body m) m s) :
    Halts fun m => body m s := by
  obtain ⟨r, notRunning, n, settled⟩ := h
  have last : whileLoop guard (body (n + 1)) (n + 1) s = r := settled (n + 1) (by omega)
  refine (steady s).halts (m := n + 1) ?_
  intro (running : body (n + 1) s = .running)
  rw [whileLoop_running_of_body hguard running] at last
  exact notRunning last.symm

theorem halts_of_visits {start : σ} (visited : Visits guard body start s)
    (h : Halts fun m => whileLoop guard (body m) m start) :
    Halts fun m => whileLoop guard (body m) m s := by
  induction visited with
  | refl => exact h
  | @tail s s' _ turn ih =>
    obtain ⟨hguard, _, n, ended⟩ := turn
    obtain ⟨r, notRunning, n', settled⟩ := ih
    refine ⟨r, notRunning, max n n' + 1, fun m enough => ?_⟩
    obtain ⟨m, rfl⟩ := Nat.exists_eq_add_of_le' (Nat.le_of_add_left_le enough)
    have first : whileLoop guard (body (m + 1)) (m + 1) s = r := settled (m + 1) (by omega)
    have step : body (m + 1) s = .done s' := ended (m + 1) (by omega)
    rw [whileLoop_succ _ _ hguard, step, Outcome.bind_done] at first
    show whileLoop guard (body (m + 1)) (m + 1) s' = r
    rw [whileLoop_mono steady (Nat.le_refl _) (Nat.le_succ m)
      (by rw [first]; exact notRunning), first]

end

end

end Libofp.Base.Iteration
