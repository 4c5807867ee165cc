/- GID: Libofp/Rpc/RateLimiter
   digest: The rate limiter of events: n out of p events, n events in a time, and the limiters that
     are meant to let nothing through. -/

import Libofp.Base.IntervalLimiter
import Libofp.Text.TimeOrder
import Mathlib.Algebra.Order.Ring.Rat

set_option autoImplicit false

namespace Libofp.Rpc

open Octets.ByteRange Base.Digits Text.StringRef Text.Timestamp Text.TimeOrder
open Text (Timestamp)

/-- The members of `RateLimiter`. -/
structure RateLimiter where
  exp : Timestamp
  t : Timestamp
  nc : UInt32
  n : UInt32
  p : UInt32
  deriving DecidableEq

namespace RateLimiter

/-- `Timestamp{}`. -/
def zeroTime : Timestamp := ⟨0, 0⟩

/-- `RateLimiter{n, t}`. -/
def ofInterval (n : UInt32) (t : Timestamp) : RateLimiter := ⟨zeroTime, t, 0, n, 0xffffffff⟩

/-- `RateLimiter{n, p, t}`. -/
def ofCycleInterval (n p : UInt32) (t : Timestamp) : RateLimiter := ⟨zeroTime, t, 0, n, p⟩

/-- `RateLimiter{n, p}`. -/
def ofCycle (n p : UInt32) : RateLimiter := ⟨kInfinity, zeroTime, 0, n, p⟩

/-- `RateLimiter{allow}`. -/
def ofBool (allow : Bool) : RateLimiter :=
  ofCycle (if allow then 1 else 0) (if allow then 1 else 0xffffffff)

def allow (r : RateLimiter) (t : Timestamp) : Bool × RateLimiter :=
  if ge t r.exp then (true, { r with exp := add t r.t, nc := 1 })
  else
    let r := { r with nc := r.nc + 1 }
    if r.nc ≤ r.n then (true, r)
    else if r.nc ≤ r.p then (false, r)
    else
      let r := if r.exp ≠ kInfinity then { r with exp := add t r.t } else r
      (true, { r with nc := 1 })

/-- The part of `parse` behind `n`: the rest of the string and `p`. -/
def parseCycle (s : Bytes) : Option (Bytes × UInt32) :=
  match consumeFront s (literal ":") with
  | none => some (s, 0xffffffff)
  | some s => (consumeUnsigned 32 s 10).map fun (s, p) => (s, UInt32.ofNat p)

/-- The part of `parse` behind `p`: the rest of the string and `t`. -/
def parseInterval (s : Bytes) : Option (Bytes × Timestamp) :=
  match consumeFront s (literal "/") with
  | none => some (s, zeroTime)
  | some s =>
    match Text.Timestamp.parse zeroTime s with
    | (false, _) => none
    | (true, t) => some ([], t)

/-- `RateLimiter::parse`: the limiter that the string stands for. Where it returns false the
limiter stays as it was. -/
def parse (s : Bytes) : Option RateLimiter :=
  if equalsLower s (literal "true") then some (ofBool true)
  else if equalsLower s (literal "false") then some (ofBool false)
  else
    match consumeUnsigned 32 s 10 with
    | none => none
    | some (s, n) =>
      match parseCycle s with
      | none => none
      | some (s, p) =>
        match parseInterval s with
        | none => none
        | some (s, t) =>
          if ¬s.isEmpty then none
          else if valid t then some (ofCycleInterval (UInt32.ofNat n) p t)
          else some (ofCycle (UInt32.ofNat n) p)

/-- `operator<<`. -/
def toString (r : RateLimiter) : Bytes :=
  if r.n = 0 then literal "false"
  else if r.n = 1 ∧ r.p = 1 then literal "true"
  else if ¬valid r.t then printNat 10 r.n.toNat ++ literal ":" ++ printNat 10 r.p.toNat
  else if r.p = 0xffffffff then printNat 10 r.n.toNat ++ literal "/" ++ Text.Timestamp.toString r.t
  else
    printNat 10 r.n.toNat ++ literal ":" ++ printNat 10 r.p.toNat ++ literal "/" ++
      Text.Timestamp.toString r.t

def after (r : RateLimiter) (events : List Time) : RateLimiter :=
  events.foldl (fun r e => (allow r e.1).2) r

/-- The events of a run, each with what `allow` returned for it. -/
def outcomes (r : RateLimiter) : List Time → List (Time × Bool)
  | [] => []
  | e :: events => (e, (allow r e.1).1) :: outcomes (allow r e.1).2 events

def before (r : RateLimiter) (events : Nat → Time) : Nat → RateLimiter
  | 0 => r
  | k + 1 => (allow (before r events k) (events k).1).2

section

variable {r : RateLimiter} {e : Time}

theorem allow_endless (endless : r.exp = kInfinity) (finite : e.1 ≠ kInfinity) :
    allow r e.1 =
      if r.nc + 1 ≤ r.n then (true, { r with nc := r.nc + 1 })
      else if r.nc + 1 ≤ r.p then (false, { r with nc := r.nc + 1 })
      else (true, { r with nc := 1 }) := by
  have early : ge e.1 r.exp = false := by
    rw [endless, Bool.eq_false_iff]
    intro late
    exact finite ((ge_kInfinity_iff e.2).mp late)
  obtain ⟨exp, t, nc, n, p⟩ := r
  subst endless
  rw [allow, early, if_neg Bool.false_ne_true]
  dsimp only
  rw [if_neg (not_not_intro rfl)]

private theorem allow_infinite (endless : r.exp = kInfinity) (infinite : e.1 = kInfinity) :
    (allow r e.1).1 = true := by
  have late : ge e.1 r.exp = true := by
    rw [endless]
    exact (ge_kInfinity_iff e.2).mpr infinite
  rw [allow, late, if_pos rfl]

section

variable {n p c : UInt32}

def counted (p c : UInt32) : UInt32 := if c + 1 ≤ p then c + 1 else 1

theorem toNat_counted (small : p.toNat ≤ 2 ^ 32 - 2) (within : c.toNat ≤ p.toNat) :
    (counted p c).toNat = if c.toNat + 1 ≤ p.toNat then c.toNat + 1 else 1 := by
  have next : (c + 1).toNat = c.toNat + 1 := by
    simp
    omega
  have fits : c + 1 ≤ p ↔ c.toNat + 1 ≤ p.toNat := by
    rw [UInt32.le_iff_toNat_le, next]
  by_cases room : c + 1 ≤ p
  · rw [counted, if_pos room, if_pos (fits.mp room), next]
  · rw [counted, if_neg room, if_neg (fun within => room (fits.mpr within))]
    rfl

theorem allow_counted (positive : 1 ≤ n.toNat) (proper : n.toNat < p.toNat)
    (finite : e.1 ≠ kInfinity) :
    allow { ofCycle n p with nc := c } e.1 =
      (decide (counted p c ≤ n), { ofCycle n p with nc := counted p c }) := by
  have one : (1 : UInt32) ≤ n := UInt32.le_iff_toNat_le.mpr positive
  rw [allow_endless rfl finite]
  simp only [ofCycle]
  by_cases cycle : c + 1 ≤ p
  · have same : counted p c = c + 1 := if_pos cycle
    by_cases quota : c + 1 ≤ n
    · simp [same, quota, ↓reduceIte]
    · simp [same, quota, cycle, ↓reduceIte]
  · have same : counted p c = 1 := if_neg cycle
    have quota : ¬c + 1 ≤ n := by
      intro quota
      rw [UInt32.le_iff_toNat_le] at cycle quota
      omega
    simp only [same, quota, cycle, one, ↓reduceIte, decide_true]

end

section

variable {n p : UInt32} {events : Nat → Time}

private theorem mod_succ_eq {p : Nat} (proper : 1 < p) (k : Nat) :
    (k + 1) % p + 1 = if k % p + 1 + 1 ≤ p then k % p + 1 + 1 else 1 := by
  have below : k % p < p := Nat.mod_lt _ (by omega)
  rw [Nat.add_mod, Nat.mod_eq_of_lt proper]
  by_cases room : k % p + 1 < p
  · rw [Nat.mod_eq_of_lt room, if_pos (by omega)]
  · have whole : k % p + 1 = p := by omega
    rw [if_neg (by omega), whole, Nat.mod_self]

private theorem before_ofCycle (positive : 1 ≤ n.toNat) (proper : n.toNat < p.toNat)
    (small : p.toNat ≤ 2 ^ 32 - 2) (finite : ∀ k, (events k).1 ≠ kInfinity) (k : Nat) :
    ∃ c, before (ofCycle n p) events k = { ofCycle n p with nc := c } ∧ c.toNat ≤ p.toNat ∧
      (counted p c).toNat = k % p.toNat + 1 := by
  induction k with
  | zero =>
    refine ⟨0, rfl, Nat.zero_le _, ?_⟩
    rw [toNat_counted small (Nat.zero_le _), if_pos (by simp; omega), Nat.zero_mod]
    rfl
  | succ k ih =>
    obtain ⟨c, state, within, value⟩ := ih
    have below : k % p.toNat < p.toNat := Nat.mod_lt _ (by omega)
    refine ⟨counted p c, ?_, by omega, ?_⟩
    · rw [before, state, allow_counted positive proper (finite k)]
    · rw [toNat_counted small (by omega), value, mod_succ_eq (by omega)]

/-- Without a time limit, `n` out of `p` events are allowed. -/
theorem allow_iff_mod_lt (positive : 1 ≤ n.toNat) (proper : n.toNat < p.toNat)
    (small : p.toNat ≤ 2 ^ 32 - 2) (finite : ∀ k, (events k).1 ≠ kInfinity) (k : Nat) :
    (allow (before (ofCycle n p) events k) (events k).1).1 = true ↔ k % p.toNat < n.toNat := by
  obtain ⟨c, state, _, value⟩ := before_ofCycle positive proper small finite k
  rw [state, allow_counted positive proper (finite k), decide_eq_true_iff,
    UInt32.le_iff_toNat_le, value]
  exact Nat.succ_le_iff

/-- Two out of three events, all at one time. -/
theorem allow_iff_mod_lt_two_three :
    (allow (before (ofCycle 2 3) (fun _ => ⟨zeroTime, by decide⟩) 5) zeroTime).1 = true ↔
      5 % 3 < 2 :=
  @allow_iff_mod_lt 2 3 (fun _ => ⟨zeroTime, by decide⟩) (by decide) (by decide) (by decide)
    (fun _ => by decide) 5

end

end

/-- `allow` returns false for every event of the run. -/
def AllDenied (r : RateLimiter) (events : List Time) : Prop :=
  ∀ o ∈ outcomes r events, o.2 = false

theorem allDenied_cons (r : RateLimiter) (e : Time) (events : List Time) :
    AllDenied r (e :: events) ↔ (allow r e.1).1 = false ∧ AllDenied (allow r e.1).2 events := by
  simp [AllDenied, outcomes]

/-- With no quota, the event behind a full cycle is allowed: either the counter is above `p`, or it
has wrapped around to the quota. -/
private theorem allow_zero_full {p : UInt32} {e : Time} (finite : e.1 ≠ kInfinity) :
    (allow { ofCycle 0 p with nc := p } e.1).1 = true := by
  rw [allow_endless rfl finite]
  simp only [ofCycle]
  by_cases wrapped : p + 1 ≤ 0
  · simp [wrapped]
  · have above : ¬p + 1 ≤ p := by
      rw [UInt32.le_iff_toNat_le, UInt32.toNat_add] at wrapped ⊢
      have bound := p.toNat_lt
      simp at wrapped ⊢
      omega
    simp only [wrapped, above, ↓reduceIte]

private theorem allow_zero_within {p c : UInt32} {e : Time} (finite : e.1 ≠ kInfinity)
    (room : c.toNat < p.toNat) :
    allow { ofCycle 0 p with nc := c } e.1 = (false, { ofCycle 0 p with nc := c + 1 }) ∧
      (c + 1).toNat = c.toNat + 1 := by
  have next : (c + 1).toNat = c.toNat + 1 := by
    have bound := p.toNat_lt
    simp
    omega
  have quota : ¬c + 1 ≤ 0 := by
    rw [UInt32.le_iff_toNat_le, next]
    exact Nat.not_succ_le_zero _
  have cycle : c + 1 ≤ p := by
    rwa [UInt32.le_iff_toNat_le, next]
  refine ⟨?_, next⟩
  rw [allow_endless rfl finite]
  simp only [ofCycle, quota, cycle, ↓reduceIte]

private theorem allDenied_ofCycle_iff (p c : UInt32) (events : List Time)
    (within : c.toNat ≤ p.toNat) :
    AllDenied { ofCycle 0 p with nc := c } events ↔
      c.toNat + events.length ≤ p.toNat ∧ ∀ e ∈ events, e.1 ≠ kInfinity := by
  induction events generalizing c with
  | nil =>
    refine ⟨fun _ => ⟨within, List.forall_mem_nil _⟩, fun _ => List.forall_mem_nil _⟩
  | cons e events ih =>
    rw [allDenied_cons, List.length_cons, List.forall_mem_cons]
    by_cases infinite : e.1 = kInfinity
    · have allowed := allow_infinite (r := { ofCycle 0 p with nc := c }) rfl infinite
      constructor
      · rintro ⟨denied, _⟩
        exact absurd (allowed.symm.trans denied) (by decide)
      · rintro ⟨_, finite, _⟩
        exact absurd infinite finite
    · rcases Nat.lt_or_eq_of_le within with room | full
      · obtain ⟨denied, next⟩ := allow_zero_within infinite room
        rw [denied, ih _ (by omega), next]
        constructor
        · rintro ⟨_, length, finite⟩
          exact ⟨by omega, infinite, finite⟩
        · rintro ⟨length, _, finite⟩
          exact ⟨rfl, by omega, finite⟩
      · obtain rfl : c = p := UInt32.toNat_inj.mp full
        constructor
        · rintro ⟨denied, _⟩
          exact absurd ((allow_zero_full infinite).symm.trans denied) (by decide)
        · omega

private theorem allow_ofCycleInterval (n p : UInt32) (t e : Timestamp) :
    (allow (ofCycleInterval n p t) e).1 = true := by
  have late : ge e (ofCycleInterval n p t).exp = true := by
    simp only [ge, le, ofCycleInterval, zeroTime, Bool.or_eq_true, Bool.and_eq_true,
      decide_eq_true_eq, beq_iff_eq, UInt64.lt_iff_toNat_lt, UInt32.le_iff_toNat_le,
      ← UInt64.toNat_inj]
    simp
    omega
  rw [allow, late, if_pos rfl]

private theorem parse_cases {s : Bytes} {r : RateLimiter} (parsed : parse s = some r) :
    (∃ n p, r = ofCycle n p) ∨ ∃ n p t, valid t = true ∧ r = ofCycleInterval n p t := by
  unfold parse at parsed
  split at parsed
  · cases parsed
    exact Or.inl ⟨_, _, rfl⟩
  · split at parsed
    · cases parsed
      exact Or.inl ⟨_, _, rfl⟩
    · repeat' split at parsed
      all_goals cases parsed
      · rename_i timed
        exact Or.inr ⟨_, _, _, timed, rfl⟩
      · exact Or.inl ⟨_, _, rfl⟩

/-- The limiters that `parse` makes, and `RateLimiter{false}`. -/
inductive Obtainable : RateLimiter → Prop
  | never : Obtainable (ofBool false)
  | parsed {s : Bytes} {r : RateLimiter} (made : parse s = some r) : Obtainable r

theorem Obtainable.cases {r : RateLimiter} (obtainable : Obtainable r) :
    (∃ n p, r = ofCycle n p) ∨ ∃ n p t, valid t = true ∧ r = ofCycleInterval n p t := by
  cases obtainable with
  | never => exact Or.inl ⟨_, _, rfl⟩
  | parsed made => exact parse_cases made

/-- Which runs a limiter without a quota denies: none that begins, when it has a time limit;
otherwise those within its first cycle, at finite times. -/
theorem allDenied_iff {r : RateLimiter} (obtainable : Obtainable r) (quota : r.n = 0)
    (events : List Time) :
    AllDenied r events ↔
      events = [] ∨ valid r.t = false ∧ events.length ≤ r.p.toNat ∧
        ∀ e ∈ events, e.1 ≠ kInfinity := by
  rcases obtainable.cases with ⟨n, p, rfl⟩ | ⟨n, p, t, timed, rfl⟩
  · obtain rfl : n = 0 := quota
    have run := allDenied_ofCycle_iff p 0 events (Nat.zero_le _)
    have start : (0 : UInt32).toNat + events.length = events.length := Nat.zero_add _
    rw [start] at run
    refine Iff.trans run ?_
    constructor
    · intro within
      exact Or.inr ⟨rfl, within⟩
    · rintro (rfl | ⟨_, within⟩)
      · exact ⟨Nat.zero_le _, List.forall_mem_nil _⟩
      · exact within
  · cases events with
    | nil => exact ⟨fun _ => Or.inl rfl, fun _ => List.forall_mem_nil _⟩
    | cons e events =>
      rw [allDenied_cons, allow_ofCycleInterval]
      constructor
      · rintro ⟨denied, _⟩
        exact absurd denied (by decide)
      · rintro (empty | ⟨untimed, _⟩)
        · exact absurd empty (List.cons_ne_nil _ _)
        · exact absurd (timed.symm.trans untimed) (by decide)

/-- `RateLimiter{false}` denies an event. -/
theorem allDenied_iff_never :
    AllDenied (ofBool false) [⟨zeroTime, by decide⟩] ↔
      [(⟨zeroTime, by decide⟩ : Time)] = [] ∨ valid (ofBool false).t = false ∧
        1 ≤ (ofBool false).p.toNat ∧ ∀ e ∈ [(⟨zeroTime, by decide⟩ : Time)], e.1 ≠ kInfinity :=
  allDenied_iff Obtainable.never rfl [⟨zeroTime, by decide⟩]

/-- "0/1" has no quota, and allows the first event. -/
theorem zero_quota_allows :
    ∃ r, parse (literal "0/1") = some r ∧ r.n = 0 ∧ toString r = literal "false" ∧
      ¬AllDenied r [⟨zeroTime, by decide⟩] := by
  refine ⟨ofCycleInterval 0 0xffffffff ⟨1, 0⟩, by decide, rfl, by decide, ?_⟩
  intro denied
  exact absurd (denied (⟨zeroTime, by decide⟩, true) (by decide)) (by decide)

section

open Base.IntervalLimiter

def point (e : Time) : ℚ := nanos e.1

def Follows (n : UInt32) (t : Time) (r : RateLimiter) : Option (Epoch ℚ) → Prop
  | none => r = ofInterval n t.1
  | some i =>
    ∃ (exp : Time) (nc : UInt32), r = { ofInterval n t.1 with exp := exp.1, nc := nc } ∧
      point exp = i.start + point t ∧ nc.toNat = i.count

def count (current : Option (Epoch ℚ)) : Nat := current.elim 0 Epoch.count

variable {n : UInt32} {t : Time} {r : RateLimiter} {current : Option (Epoch ℚ)}

theorem follows_begin {exp : Timestamp} {nc : UInt32} {e : Time} (late : ge e.1 exp = true)
    (room : nanos e.1 + nanos t.1 < 2 ^ 64 * NANO_UNITS) :
    (allow { ofInterval n t.1 with exp := exp, nc := nc } e.1).1 = true ∧
      Follows n t (allow { ofInterval n t.1 with exp := exp, nc := nc } e.1).2
        (some ⟨point e, 1⟩) := by
  obtain ⟨sum, normal⟩ := nanos_add e.2 t.2 room
  have step : allow { ofInterval n t.1 with exp := exp, nc := nc } e.1 =
      (true, { ofInterval n t.1 with exp := add e.1 t.1, nc := 1 }) := by
    rw [allow, if_pos late]
    rfl
  rw [step]
  refine ⟨rfl, ⟨add e.1 t.1, normal⟩, 1, rfl, ?_, rfl⟩
  simp [point, sum]

theorem follows_allow {e : Time} (follows : Follows n t r current)
    (few : count current + 1 < 2 ^ 32) (room : nanos e.1 + nanos t.1 < 2 ^ 64 * NANO_UNITS) :
    (allow r e.1).1 = (meter n.toNat (point t) current (point e)).1 ∧
      Follows n t (allow r e.1).2 (some (meter n.toNat (point t) current (point e)).2) := by
  cases current with
  | none =>
    obtain rfl := follows
    have late : ge e.1 zeroTime = true :=
      (le_iff (by decide) e.2).mpr (Nat.zero_le _)
    exact @follows_begin n t zeroTime 0 e late room
  | some i =>
    obtain ⟨exp, nc, rfl, start, counted⟩ := follows
    have late : ge e.1 exp.1 = true ↔ i.start + point t ≤ point e := by
      rw [ge, le_iff exp.2 e.2, ← start, point, point, Nat.cast_le]
    by_cases begins : i.start + point t ≤ point e
    · rw [meter, if_pos begins]
      exact follows_begin (late.mpr begins) room
    · have next : (nc + 1).toNat = i.count + 1 := by
        change i.count + 1 < 2 ^ 32 at few
        rw [UInt32.toNat_add, counted]
        exact Nat.mod_eq_of_lt few
      have quota : nc + 1 ≤ n ↔ i.count + 1 ≤ n.toNat := by
        rw [UInt32.le_iff_toNat_le, next]
      have cycle : nc + 1 ≤ 0xffffffff := by
        exact Nat.le_of_lt_succ (nc + 1).toNat_lt
      have step : allow { ofInterval n t.1 with exp := exp.1, nc := nc } e.1 =
          (decide (i.count + 1 ≤ n.toNat),
            { ofInterval n t.1 with exp := exp.1, nc := nc + 1 }) := by
        rw [allow, if_neg (fun passed => begins (late.mp passed))]
        by_cases within : nc + 1 ≤ n
        · simp [ofInterval, within, quota.mp within, ↓reduceIte]
        · have spent : ¬i.count + 1 ≤ n.toNat := fun less => within (quota.mpr less)
          simp [ofInterval, within, cycle, spent, ↓reduceIte]
      rw [step, meter, if_neg begins]
      exact ⟨rfl, exp, nc + 1, rfl, start, next⟩

theorem count_meter (quota : Nat) (span : ℚ) (current : Option (Epoch ℚ)) (e : ℚ) :
    count (some (meter quota span current e).2) ≤ count current + 1 := by
  cases current with
  | none => exact Nat.le_refl _
  | some i =>
    rw [meter]
    split
    · exact Nat.le_add_left _ _
    · exact Nat.le_refl _

private theorem outcomes_eq_decisions (events : List Time) (follows : Follows n t r current)
    (few : count current + events.length < 2 ^ 32)
    (room : ∀ e ∈ events, nanos e.1 + nanos t.1 < 2 ^ 64 * NANO_UNITS) :
    (outcomes r events).map (Prod.map point id) =
      decisions n.toNat (point t) current (events.map point) := by
  induction events generalizing r current with
  | nil => rfl
  | cons e events ih =>
    rw [List.forall_mem_cons] at room
    rw [List.length_cons] at few
    obtain ⟨same, next⟩ := follows_allow follows (by omega) room.1
    have less := count_meter n.toNat (point t) current (point e)
    rw [outcomes, List.map_cons, ih next (by omega) room.2, List.map_cons, decisions, same]
    rfl

private theorem follows_after (events : List Time) (follows : Follows n t r current)
    (few : count current + events.length < 2 ^ 32)
    (room : ∀ e ∈ events, nanos e.1 + nanos t.1 < 2 ^ 64 * NANO_UNITS) :
    ∃ i, (events.map point).foldl (fun i e => some (meter n.toNat (point t) i e).2) current = i ∧
      Follows n t (after r events) i ∧ count i ≤ count current + events.length := by
  induction events generalizing r current with
  | nil => exact ⟨current, rfl, follows, Nat.le_refl _⟩
  | cons e events ih =>
    rw [List.forall_mem_cons] at room
    rw [List.length_cons] at few
    obtain ⟨_, next⟩ := follows_allow follows (by omega) room.1
    have less := count_meter n.toNat (point t) current (point e)
    obtain ⟨i, run, last, bound⟩ := ih next (by omega) room.2
    exact ⟨i, run, last, by rw [List.length_cons]; omega⟩

/-- The burst bound of a limiter with a time limit, and the events that begin an interval. -/
theorem interval_bounds (positive : 1 ≤ n.toNat) {events : List Time}
    (few : events.length < 2 ^ 32 - 1) (sorted : events.Pairwise fun a b => le a.1 b.1 = true)
    (room : ∀ e ∈ events, nanos e.1 + nanos t.1 < 2 ^ 64 * NANO_UNITS) :
    (∀ x : ℚ, (outcomes (ofInterval n t.1) events).countP
        (fun o => o.2 && decide (x ≤ point o.1 ∧ point o.1 < x + point t)) ≤ 2 * n.toNat - 1) ∧
      ∀ front e back s, events = front ++ e :: back →
        started (point t) (front.map point) = some s → s + point t ≤ point e →
        (allow (after (ofInterval n t.1) front) e.1).1 = true := by
  have nothing : count none = 0 := rfl
  have fresh : Follows n t (ofInterval n t.1) none := rfl
  constructor
  · intro x
    have run := outcomes_eq_decisions events fresh (by rw [nothing]; omega) room
    have order : (events.map point).Pairwise (· ≤ ·) := by
      rw [List.pairwise_map]
      refine sorted.imp ?_
      intro a b less
      exact Nat.cast_le.mpr ((le_iff a.2 b.2).mp less)
    have bound : burst n.toNat (point t) x none (events.map point) ≤ 2 * n.toNat - 1 :=
      burst_le order positive
    rw [burst, ← run, List.countP_map] at bound
    refine Nat.le_trans (Nat.le_of_eq (List.countP_congr ?_)) bound
    intro o _
    simp [inWindow]
  · rintro front e back s rfl start past
    rw [List.length_append, List.length_cons] at few
    have early : ∀ e ∈ front, nanos e.1 + nanos t.1 < 2 ^ 64 * NANO_UNITS := fun e member =>
      room e (List.mem_append_left _ member)
    obtain ⟨i, run, follows, bound⟩ := follows_after front fresh (by rw [nothing]; omega) early
    have step := follows_allow follows (by omega) (room e (by simp))
    rw [step.1, ← run]
    exact meter_of_started n.toNat start past

/-- One event in a second, and two events a second apart. -/
theorem interval_bounds_one :
    (∀ x : ℚ, (outcomes (ofInterval 1 ⟨1, 0⟩) [⟨⟨5, 0⟩, by decide⟩, ⟨⟨6, 0⟩, by decide⟩]).countP
        (fun o => o.2 && decide (x ≤ point o.1 ∧ point o.1 < x + point ⟨⟨1, 0⟩, by decide⟩)) ≤
          2 * 1 - 1) ∧
      ∀ front e back s,
        [(⟨⟨5, 0⟩, by decide⟩ : Time), ⟨⟨6, 0⟩, by decide⟩] = front ++ e :: back →
        started (point ⟨⟨1, 0⟩, by decide⟩) (front.map point) = some s →
        s + point ⟨⟨1, 0⟩, by decide⟩ ≤ point e →
        (allow (after (ofInterval 1 ⟨1, 0⟩) front) e.1).1 = true :=
  @interval_bounds 1 ⟨⟨1, 0⟩, by decide⟩ (by decide) [⟨⟨5, 0⟩, by decide⟩, ⟨⟨6, 0⟩, by decide⟩]
    (by decide) (by decide) (by decide)

end

end RateLimiter

end Libofp.Rpc
