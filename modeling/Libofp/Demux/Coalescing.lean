/- GID: Libofp/Demux/Coalescing
   digest: When storing a piece keeps the cache sorted with gaps, and what the cache then covers. -/

import Libofp.Demux.StreamPieces

/-!
The cache is meant to hold maximal runs of received bytes: sorted, with a gap between
neighbours. Storing a piece that touches at most two cached pieces keeps it so,
because `update` repairs one neighbour. The final flag survives when the final
piece brings the last byte itself and runs into no second unfinished piece.
-/

set_option autoImplicit false

namespace Libofp.Demux.Coalescing

open StreamPieces

variable {n : Nat}

def Covers (ps : List (Piece n)) (i : Nat) : Prop := ∃ p ∈ ps, p.lo ≤ i ∧ i < p.hi

def Touches (p q : Piece n) : Prop := p.lo ≤ q.hi ∧ q.lo ≤ p.hi

instance (p q : Piece n) : Decidable (Touches p q) :=
  inferInstanceAs (Decidable (_ ∧ _))

def Gapped (ps : List (Piece n)) : Prop := ps.Pairwise fun p q => p.hi < q.lo

def Solid (p : Piece n) : Prop := p.lo < p.hi ∨ p.final = true

structure Coalesced (ps : List (Piece n)) : Prop where
  gapped : Gapped ps
  solid : ∀ p ∈ ps, Solid p

/-- `result` is the cache `ps` with the positions of `new` added. -/
structure Merged (new : Piece n) (ps result : List (Piece n)) : Prop where
  coalesced : Coalesced result
  covers : ∀ i, Covers result i ↔ (new.lo ≤ i ∧ i < new.hi) ∨ Covers ps i
  low : ∀ b ≤ new.lo, (∀ q ∈ ps, b ≤ q.lo) → ∀ p ∈ result, b ≤ p.lo
  high : ∀ b, (Solid new ∧ b ≤ new.hi) ∨ (∃ q ∈ ps, b ≤ q.hi) → ∃ p ∈ result, b ≤ p.hi

theorem covers_nil (i : Nat) : ¬ Covers ([] : List (Piece n)) i := by
  simp [Covers]

theorem covers_cons (p : Piece n) (ps : List (Piece n)) (i : Nat) :
    Covers (p :: ps) i ↔ (p.lo ≤ i ∧ i < p.hi) ∨ Covers ps i := by
  simp [Covers]

theorem coalesced_nil : Coalesced ([] : List (Piece n)) :=
  ⟨List.Pairwise.nil, nofun⟩

variable {p new g : Piece n} {ps rest : List (Piece n)}

theorem coalesced_cons :
    Coalesced (p :: ps) ↔ (∀ q ∈ ps, p.hi < q.lo) ∧ Solid p ∧ Coalesced ps := by
  constructor
  · rintro ⟨gapped, solid⟩
    obtain ⟨gap, rest⟩ := List.pairwise_cons.1 gapped
    exact ⟨gap, solid p List.mem_cons_self, rest,
      fun q member => solid q (List.mem_cons_of_mem _ member)⟩
  · rintro ⟨gap, solid, rest⟩
    refine ⟨List.pairwise_cons.2 ⟨gap, rest.gapped⟩, ?_⟩
    intro q member
    rcases List.mem_cons.1 member with rfl | tail
    · exact solid
    · exact rest.solid q tail

theorem merged_cons (cache : Coalesced ps)
    (solid : Solid new) (gap : ∀ q ∈ ps, new.hi < q.lo) : Merged new ps (new :: ps) where
  coalesced := coalesced_cons.2 ⟨gap, solid, cache⟩
  covers := covers_cons new ps
  low := by
    intro b le lows p member
    rcases List.mem_cons.1 member with rfl | tail
    · exact le
    · exact lows p tail
  high := by
    rintro b (⟨-, le⟩ | ⟨q, member, le⟩)
    · exact ⟨new, List.mem_cons_self, le⟩
    · exact ⟨q, List.mem_cons_of_mem _ member, le⟩

private theorem merged_skip {result : List (Piece n)}
    (merged : Merged new ps result) (solid : Solid p) (gap : ∀ q ∈ ps, p.hi < q.lo)
    (before : p.hi < new.lo) : Merged new (p :: ps) (p :: result) where
  coalesced := coalesced_cons.2 ⟨merged.low (p.hi + 1) before gap, solid, merged.coalesced⟩
  covers i := by
    rw [covers_cons, covers_cons, merged.covers]
    tauto
  low := by
    intro b le lows q member
    rcases List.mem_cons.1 member with rfl | tail
    · exact lows q List.mem_cons_self
    · exact merged.low b le (fun r hr => lows r (List.mem_cons_of_mem _ hr)) q tail
  high := by
    intro b reached
    have later : (Solid new ∧ b ≤ new.hi) ∨ (∃ q ∈ ps, b ≤ q.hi) →
        ∃ q ∈ p :: result, b ≤ q.hi := by
      intro behind
      obtain ⟨q, member, le⟩ := merged.high b behind
      exact ⟨q, List.mem_cons_of_mem _ member, le⟩
    rcases reached with fresh | ⟨q, member, le⟩
    · exact later (Or.inl fresh)
    · rcases List.mem_cons.1 member with rfl | tail
      · exact ⟨q, List.mem_cons_self, le⟩
      · exact later (Or.inr ⟨q, tail, le⟩)

/-- A cached piece that the new one touches is absorbed: merging their union `g` into
the remaining cache merges the new piece into the whole cache. -/
theorem merged_absorb {result : List (Piece n)} (merged : Merged g ps result) (solid : Solid g)
    (touches : Touches new p) (lo : g.lo = min p.lo new.lo) (hi : g.hi = max p.hi new.hi) :
    Merged new (p :: ps) result where
  coalesced := merged.coalesced
  covers i := by
    have union : (g.lo ≤ i ∧ i < g.hi) ↔
        (new.lo ≤ i ∧ i < new.hi) ∨ (p.lo ≤ i ∧ i < p.hi) := by
      obtain ⟨above, below⟩ := touches
      omega
    rw [covers_cons, merged.covers, union]
    tauto
  low := by
    intro b le lows
    have front := lows p List.mem_cons_self
    exact merged.low b (by omega) (fun r hr => lows r (List.mem_cons_of_mem _ hr))
  high := by
    rintro b (⟨-, le⟩ | ⟨q, member, le⟩)
    · exact merged.high b (Or.inl ⟨solid, by omega⟩)
    · rcases List.mem_cons.1 member with rfl | tail
      · exact merged.high b (Or.inl ⟨solid, by omega⟩)
      · exact merged.high b (Or.inr ⟨q, tail, le⟩)

theorem merged_empty (cache : Coalesced ps)
    (empty : new.hi ≤ new.lo) (reached : Solid new → ∃ q ∈ ps, new.hi ≤ q.hi) :
    Merged new ps ps where
  coalesced := cache
  covers i := by
    constructor
    · exact Or.inr
    · rintro (inside | cached)
      · omega
      · exact cached
  low := fun _ _ lows => lows
  high := by
    rintro b (⟨solid, le⟩ | cached)
    · obtain ⟨q, member, above⟩ := reached solid
      exact ⟨q, member, le_trans le above⟩
    · exact cached

private theorem merged_updateAt (cache : Coalesced ps)
    (solid : Solid g) (after : ∀ q ∈ ps, g.lo ≤ q.lo) (second : ∀ r ∈ ps.tail, g.hi < r.lo) :
    Merged g ps (updateAt g ps) := by
  cases ps with
  | nil => exact merged_cons cache solid nofun
  | cons q rest =>
    obtain ⟨gap, solidQ, cacheRest⟩ := coalesced_cons.1 cache
    have hq := q.ordered
    have above := after q List.mem_cons_self
    simp only [updateAt]
    split
    · rename_i reaches
      have solidReach : Solid (g.reach q) := by
        simp only [Solid, Piece.reach_lo, Piece.reach_hi, Piece.reach_final]
        rcases solidQ with inside | final
        · exact Or.inl (by omega)
        · exact Or.inr final
      have gapReach : ∀ r ∈ rest, (g.reach q).hi < r.lo := by
        intro r member
        have first := second r member
        have next := gap r member
        simp only [Piece.reach_hi]
        omega
      refine merged_absorb (merged_cons cacheRest solidReach gapReach) solidReach ?_ ?_ ?_
      · exact ⟨by omega, reaches⟩
      · simp only [Piece.reach_lo]
        omega
      · simp only [Piece.reach_hi]
        omega
    · refine merged_cons cache solid ?_
      intro r member
      rcases List.mem_cons.1 member with rfl | tail
      · omega
      · exact second r tail

/-- In a coalesced cache the pieces behind a touched one that are touched as well
come first; with at most two in total, only the very next one is touched. -/
private theorem second_untouched (cache : Coalesced (p :: rest)) (touches : Touches new p)
    (few : (p :: rest).countP (fun q => decide (Touches new q)) ≤ 2) :
    ∀ r ∈ rest.tail, new.hi < r.lo := by
  obtain ⟨gap, -, cacheRest⟩ := coalesced_cons.1 cache
  cases rest with
  | nil => exact nofun
  | cons q rest =>
    obtain ⟨gapQ, -, -⟩ := coalesced_cons.1 cacheRest
    intro r member
    by_contra reaches
    have between := gap q List.mem_cons_self
    have behind := gapQ r member
    have hq := q.ordered
    have hr := r.ordered
    have touchesQ : Touches new q := ⟨by have := touches.1; omega, by omega⟩
    have touchesR : Touches new r := ⟨by have := touches.1; omega, by omega⟩
    have counted : 0 < rest.countP (fun q => decide (Touches new q)) :=
      List.countP_pos_iff.2 ⟨r, member, by simpa using touchesR⟩
    rw [List.countP_cons_of_pos (by simpa using touches),
      List.countP_cons_of_pos (by simpa using touchesQ)] at few
    omega

theorem solid_reach (solid : Solid new) (above : p.lo ≤ new.lo) :
    Solid (p.reach new) := by
  simp only [Solid, Piece.reach_lo, Piece.reach_hi, Piece.reach_final]
  rcases solid with inside | final
  · exact Or.inl (by omega)
  · exact Or.inr final

private theorem solid_lower (new : Piece n) (solid : Solid p) : Solid (p.lower new) := by
  simp only [Solid, Piece.lower_lo, Piece.lower_hi, Piece.lower_final]
  rcases solid with inside | final
  · exact Or.inl (by omega)
  · exact Or.inr final

theorem merged_grow (cache : Coalesced (p :: rest)) (touches : Touches new p)
    (few : (p :: rest).countP (fun q => decide (Touches new q)) ≤ 2) (solid : Solid g)
    (lo : g.lo = min p.lo new.lo) (hi : g.hi = max p.hi new.hi) :
    Merged new (p :: rest) (updateAt g rest) := by
  obtain ⟨gap, -, cacheRest⟩ := coalesced_cons.1 cache
  have hp := p.ordered
  have after : ∀ q ∈ rest, g.lo ≤ q.lo := by
    intro q member
    have behind := gap q member
    omega
  have second : ∀ r ∈ rest.tail, g.hi < r.lo := by
    intro r member
    have free := second_untouched cache touches few r member
    have behind := gap r (List.mem_of_mem_tail member)
    omega
  exact merged_absorb (merged_updateAt cacheRest solid after second) solid touches lo hi

theorem merged_lower (cache : Coalesced (p :: rest)) (touches : Touches new p)
    (inside : new.hi ≤ p.hi) : Merged new (p :: rest) (p.lower new :: rest) := by
  obtain ⟨gap, solid, cacheRest⟩ := coalesced_cons.1 cache
  have lower := solid_lower new solid
  have gapLower : ∀ q ∈ rest, (p.lower new).hi < q.lo := gap
  refine merged_absorb (merged_cons cacheRest lower gapLower) lower touches rfl ?_
  rw [Piece.lower_hi]
  omega

private theorem merged_storeLoopAt (cache : Coalesced ps)
    (solid : Solid new) (few : ps.countP (fun q => decide (Touches new q)) ≤ 2) :
    Merged new ps (storeLoopAt new ps) := by
  induction ps with
  | nil => exact merged_cons cache solid nofun
  | cons p rest ih =>
    obtain ⟨gap, solidP, cacheRest⟩ := coalesced_cons.1 cache
    have hp := p.ordered
    have hp' := p.bounded
    have hn := new.ordered
    have hn' := new.bounded
    simp only [storeLoopAt]
    split
    · split
      · rename_i final
        -- A final piece ends the stream, so the new piece is empty.
        have atEnd := p.ends final
        exact merged_empty cache (by omega) fun _ => ⟨p, List.mem_cons_self, by omega⟩
      · refine merged_grow cache ⟨by omega, by omega⟩ few
          (solid_reach solid (by omega)) ?_ ?_
        · simp only [Piece.reach_lo]
          omega
        · simp
    · split
      · split
        · rename_i final
          -- Only the empty final piece can begin at the end of the stream.
          have atEnd := new.ends final
          have alone : rest = [] := by
            cases rest with
            | nil => rfl
            | cons q _ =>
              have behind := gap q List.mem_cons_self
              have hq := q.ordered
              have hq' := q.bounded
              omega
          subst alone
          simp only [insertAt, final, if_true]
          exact merged_absorb (merged_cons cacheRest solid nofun) solid ⟨by omega, by omega⟩
            (by omega) (by omega)
        · exact merged_lower cache ⟨by omega, by omega⟩ (by omega)
      · split
        · rename_i before
          have unfinished : new.final = false := by
            cases final : new.final with
            | false => rfl
            | true =>
              have atEnd := new.ends final
              omega
          simp only [insertAt, unfinished, Bool.false_eq_true, if_false]
          refine merged_cons cache solid ?_
          intro q member
          rcases List.mem_cons.1 member with rfl | tail
          · exact before
          · have behind := gap q tail
            omega
        · split
          · simp only [overlapAt]
            split
            · exact merged_lower cache ⟨by omega, by omega⟩ (by omega)
            · refine merged_grow cache ⟨by omega, by omega⟩ few
                (solid_reach solid ?_) ?_ ?_
              · simp only [Piece.lower_lo]
                omega
              · simp
              · simp
          · split
            · rename_i final
              have atEnd := p.ends final
              exact merged_empty cache (by omega) fun _ => ⟨p, List.mem_cons_self, by omega⟩
            · have apart : ¬ Touches new p := by
                rintro ⟨above, -⟩
                omega
              have fewRest : rest.countP (fun q => decide (Touches new q)) ≤ 2 := by
                rwa [List.countP_cons_of_neg (by simpa using apart)] at few
              exact merged_skip (ih cacheRest fewRest) solidP gap (by omega)

theorem merged_storeAt (cache : Coalesced ps)
    (few : ps.countP (fun q => decide (Touches new q)) ≤ 2) :
    Merged new ps (storeAt new ps) := by
  have hn := new.ordered
  simp only [storeAt]
  split
  · rename_i ignored
    refine merged_empty cache (by omega) ?_
    rintro (inside | final)
    · omega
    · rw [final] at ignored
      exact absurd ignored.2 (by decide)
  · rename_i kept
    have solid : Solid new := by
      rw [not_and, Bool.not_eq_false] at kept
      rcases Nat.lt_or_ge new.lo new.hi with lt | ge
      · exact Or.inl lt
      · exact Or.inr (kept (by omega))
    exact merged_storeLoopAt cache solid few

def HasFinal (ps : List (Piece n)) : Prop := ∃ p ∈ ps, p.final = true

/-- A final piece brings the last byte of the stream unless that byte is cached in a
piece without the flag, and it touches at most one piece without the flag. -/
structure KeepsFlag (new : Piece n) (ps : List (Piece n)) : Prop where
  brings : new.lo < new.hi → ∀ p ∈ ps, p.final = false → p.hi < new.hi
  one : ps.countP (fun q => decide (Touches new q) && !q.final) ≤ 1

theorem hasFinal_cons :
    HasFinal (p :: ps) ↔ p.final = true ∨ HasFinal ps := by
  simp [HasFinal]

theorem KeepsFlag.behind
    (keeps : KeepsFlag new (p :: rest)) (touches : Touches new p) (unfinished : p.final = false)
    {q : Piece n} (member : q ∈ rest) (touchesQ : Touches new q) : q.final = true := by
  by_contra lacks
  have counted : 0 < rest.countP (fun q => decide (Touches new q) && !q.final) :=
    List.countP_pos_iff.2 ⟨q, member, by simp [touchesQ, lacks]⟩
  have one := keeps.one
  rw [List.countP_cons_of_pos (by simp [touches, unfinished])] at one
  omega

theorem hasFinal_updateAt (flag : HasFinal ps ∨ (g.final = true ∧ ∀ q ∈ ps, q.final = true)) :
    HasFinal (updateAt g ps) := by
  cases ps with
  | nil =>
    rcases flag with ⟨p, member, -⟩ | ⟨final, -⟩
    · cases member
    · exact hasFinal_cons.2 (Or.inl final)
  | cons q rest =>
    simp only [updateAt]
    split
    · rw [hasFinal_cons, Piece.reach_final]
      rcases flag with cached | ⟨-, all⟩
      · exact hasFinal_cons.1 cached
      · exact Or.inl (all q List.mem_cons_self)
    · rw [hasFinal_cons]
      rcases flag with cached | ⟨final, -⟩
      · exact Or.inr cached
      · exact Or.inl final

private theorem hasFinal_storeLoopAt_of_hasFinal
    (cache : Coalesced ps) (flag : HasFinal ps) : HasFinal (storeLoopAt new ps) := by
  induction ps with
  | nil =>
    obtain ⟨p, member, -⟩ := flag
    cases member
  | cons p rest ih =>
    obtain ⟨gap, -, cacheRest⟩ := coalesced_cons.1 cache
    have hn' := new.bounded
    have split_flag := hasFinal_cons.1 flag
    have inserted : HasFinal (insertAt new (p :: rest)) := by
      cases final : new.final with
      | true => simp [insertAt, final, HasFinal]
      | false =>
        simp only [insertAt, final, Bool.false_eq_true, if_false]
        exact hasFinal_cons.2 (Or.inr flag)
    simp only [storeLoopAt]
    split
    · split
      · exact flag
      · rename_i unfinished
        exact hasFinal_updateAt (Or.inl (split_flag.resolve_left unfinished))
    · split
      · split
        · exact inserted
        · exact hasFinal_cons.2 split_flag
      · split
        · exact inserted
        · split
          · simp only [overlapAt]
            split
            · exact hasFinal_cons.2 split_flag
            · have unfinished : p.final ≠ true := by
                intro final
                have atEnd := p.ends final
                omega
              exact hasFinal_updateAt (Or.inl (split_flag.resolve_left unfinished))
          · split
            · exact flag
            · rename_i unfinished
              exact hasFinal_cons.2 (Or.inr (ih cacheRest (split_flag.resolve_left unfinished)))

private theorem hasFinal_storeLoopAt_of_final
    (cache : Coalesced ps) (final : new.final = true) (keeps : KeepsFlag new ps) :
    HasFinal (storeLoopAt new ps) := by
  have atEnd := new.ends final
  induction ps with
  | nil => exact ⟨new, List.mem_singleton_self new, final⟩
  | cons p rest ih =>
    obtain ⟨gap, -, cacheRest⟩ := coalesced_cons.1 cache
    have hp := p.ordered
    have hp' := p.bounded
    have inserted : HasFinal (insertAt new (p :: rest)) := by
      simp [insertAt, final, HasFinal]
    -- Behind an unfinished piece that is touched, everything is touched and final.
    have behind : Touches new p → p.final ≠ true → ∀ q ∈ rest, q.final = true := by
      intro touches unfinished q member
      have after := gap q member
      have hq := q.ordered
      have hq' := q.bounded
      exact keeps.behind touches (by simpa using unfinished) member
        ⟨by have := touches.1; omega, by omega⟩
    simp only [storeLoopAt]
    split
    · split
      · rename_i flag
        exact hasFinal_cons.2 (Or.inl flag)
      · rename_i unfinished
        exact hasFinal_updateAt
          (Or.inr ⟨final, behind ⟨by omega, by omega⟩ unfinished⟩)
    · split
      · simpa only [final, if_true] using inserted
      · split
        · exact inserted
        · split
          · simp only [overlapAt]
            split
            · have flag : p.final = true := by
                by_contra unfinished
                have brings := keeps.brings (by omega) p List.mem_cons_self
                  (by simpa using unfinished)
                omega
              exact hasFinal_cons.2 (Or.inl flag)
            · have unfinished : p.final ≠ true := by
                intro flag
                have ends := p.ends flag
                omega
              exact hasFinal_updateAt
                (Or.inr ⟨final, behind ⟨by omega, by omega⟩ unfinished⟩)
          · split
            · rename_i flag
              exact hasFinal_cons.2 (Or.inl flag)
            · have apart : ¬ Touches new p := by
                rintro ⟨above, -⟩
                omega
              have keepsRest : KeepsFlag new rest := by
                refine ⟨fun nonempty q member => keeps.brings nonempty q
                  (List.mem_cons_of_mem _ member), ?_⟩
                have one := keeps.one
                rwa [List.countP_cons_of_neg (by simp [apart])] at one
              exact hasFinal_cons.2 (Or.inr (ih cacheRest keepsRest))

theorem hasFinal_storeAt (cache : Coalesced ps)
    (flag : HasFinal ps ∨ (new.final = true ∧ KeepsFlag new ps)) :
    HasFinal (storeAt new ps) := by
  simp only [storeAt]
  split
  · rename_i ignored
    rcases flag with cached | ⟨final, -⟩
    · exact cached
    · rw [final] at ignored
      exact absurd ignored.2 (by decide)
  · rcases flag with cached | ⟨final, keeps⟩
    · exact hasFinal_storeLoopAt_of_hasFinal cache cached
    · exact hasFinal_storeLoopAt_of_final cache final keeps

end Libofp.Demux.Coalescing
