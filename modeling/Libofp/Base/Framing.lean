/- GID: Libofp/Base/Framing
   generality: G
   digest: Greedy framing of a growing stream does not depend on how the stream arrives. -/

import Libofp.Base.Run

/-!
A cutter looks at the front of a list and either waits for more elements or removes
a positive number of them and emits some outputs. When its decision does not change as
more elements arrive, draining a list in two portions is the same as draining it at
once, provided the elements left over from the first portion stay in front.
-/

set_option autoImplicit false

namespace Libofp.Base.Framing

/-- How many elements to remove from the front and what to emit for them. -/
structure Cutter (α β : Type) where
  cut : List α → Option (Nat × List β)
  progress : ∀ {x k out}, cut x = some (k, out) → 0 < k ∧ k ≤ x.length
  stable : ∀ {x r} (y : List α), cut x = some r → cut (x ++ y) = some r

variable {α β : Type} (c : Cutter α β)

/-- Cut at most `fuel` times; the outputs and what is left. -/
def drainLoop : Nat → List α → List β × List α
  | 0, x => ([], x)
  | fuel + 1, x =>
      match c.cut x with
      | none => ([], x)
      | some (k, out) => (out ++ (drainLoop fuel (x.drop k)).1, (drainLoop fuel (x.drop k)).2)

/-- Cut until the cutter waits. Every cut removes an element, so the length is enough fuel. -/
def drain (x : List α) : List β × List α := drainLoop c x.length x

end Libofp.Base.Framing
