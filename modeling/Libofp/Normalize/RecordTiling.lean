/- GID: Libofp/Normalize/RecordTiling
   digest: Loops over records that put each new record in the place of the old one. -/

import Libofp.Normalize.MultipartReplies

set_option autoImplicit false

namespace Libofp.Normalize.RecordTiling

open Octets.ByteRange Octets.ByteList Base.Iteration Oxm.Field MultipartReplies

structure At (w : Walk) (pre entry post : Bytes) : Prop where
  buf : w.buf = pre ++ (entry ++ post)
  start : w.start = pre.length

section

variable {w : Walk} {pre entry post : Bytes}

theorem At.window_eq (place : At w pre entry post) {k len : Nat}
    (inside : k + len ≤ entry.length) : window w.buf (w.start + k) len = window entry k len := by
  rw [place.buf, window_append_right _ place.start.symm, window_append_left _ inside]

theorem At.remaining_eq (place : At w pre entry post) :
    w.remaining = entry.length + post.length := by
  rw [Walk.remaining, place.buf, place.start, List.length_append, List.length_append]
  omega

theorem At.more_iff (place : At w pre entry post) : w.more = true ↔ entry ++ post ≠ [] := by
  rw [Walk.more, place.buf, place.start, decide_eq_true_iff, List.length_append, ne_eq,
    ← List.length_eq_zero_iff]
  omega

end

def Replaces (host : Host) (slack : Slack) (kind : RecordKind) (w : Walk)
    (pre new post : Bytes) : Prop :=
  ∃ w', Settles (fun fuel => turn host slack kind fuel w) (.done w') ∧ At w' (pre ++ new) [] post

variable {α : Type} {host : Host} {slack : Slack} {kind : RecordKind} {old new : α → Bytes}

/-- The rule for a loop whose turns each replace one entry. What is in front of an entry may be
assumed to satisfy what new entries do not destroy. -/
theorem visits_tiles (inv : Bytes → Prop) (as : List α) (filled : ∀ a ∈ as, old a ≠ [])
    (keeps : ∀ a ∈ as, ∀ pre, inv pre → inv (pre ++ new a))
    (step : ∀ a ∈ as, ∀ w pre post, At w pre (old a) post → inv pre →
      Replaces host slack kind w pre (new a) post) :
    ∀ {w : Walk} {pre : Bytes}, At w pre (as.map old).flatten [] → inv pre →
      ∃ w', Visits Walk.more (turn host slack kind) w w' ∧
        At w' (pre ++ (as.map new).flatten) [] [] := by
  induction as with
  | nil =>
    intro w pre place _
    refine ⟨w, .refl, ?_⟩
    rwa [List.map_nil, List.flatten_nil, List.append_nil]
  | cons a as ih =>
    intro w pre place holds
    rw [List.forall_mem_cons] at filled keeps step
    have here : At w pre (old a) (as.map old).flatten := by
      refine ⟨?_, place.start⟩
      rw [place.buf, List.map_cons, List.flatten_cons, List.append_nil]
    obtain ⟨w₁, settled, next⟩ := step.1 w pre _ here holds
    have more : w.more = true := here.more_iff.mpr (by simp [filled.1])
    have later : At w₁ (pre ++ new a) (as.map old).flatten [] := by
      refine ⟨?_, next.start⟩
      rw [next.buf, List.nil_append, List.append_nil]
    obtain ⟨w', visited, ended⟩ := ih filled.2 keeps.2 step.2 later (keeps.1 pre holds)
    refine ⟨w', .head ⟨more, settled⟩ visited, ?_⟩
    rwa [List.map_cons, List.flatten_cons, ← List.append_assoc]

theorem settles_of_visits {w w' : Walk} {pre : Bytes}
    (visited : Visits Walk.more (turn host slack kind) w w') (ended : At w' pre [] []) :
    Settles (fun fuel => records host slack kind fuel w) (.done w') := by
  refine settles_whileLoop_of_visits visited ?_
  rw [Bool.eq_false_iff, ne_eq, ended.more_iff]
  simp

end Libofp.Normalize.RecordTiling
